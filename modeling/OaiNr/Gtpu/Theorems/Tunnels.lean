import OaiNr.Lib.Trace
import OaiNr.Gtpu.Lemmas.Tunnels

/-!
# The tunnel tables are inverse to each other

Over every sequence of calls, the two tables hold the tunnels that were asked for.
-/

namespace OaiNr.Gtpu

variable {s s' : Tables} {T : Tunnels}

def Small (T : Tunnels) : Prop := ∀ u b tunnel, T u b = some tunnel → b < 256

theorem perform_represents_iff (h : Represents s T) (hsmall : Small T) {call : Tables.Call} {teid : Option UInt32}
    (hperform : s.perform call = .ok (s', teid)) : Represents s' (T.perform call teid) ↔ call.Good s := by
  cases call with
  | create req draws =>
    obtain ⟨r, hcreate, hr⟩ := map_eq_ok.mp hperform
    cases hr
    exact newGtpuCreateTunnel_represents_iff h hcreate
  | updateUeId oldUeId newUeId =>
    obtain ⟨r, hupdate, hr⟩ := map_eq_ok.mp hperform
    cases hr
    exact gtpv1uUpdateUeId_represents_iff h hsmall hupdate
  | deleteOne ueId rbId =>
    cases hperform
    exact iff_of_true (newGtpuDeleteOneTunnel_represents h rbId) trivial
  | deleteAll ueId =>
    cases hperform
    exact iff_of_true (newGtpuDeleteAllTunnels_represents h) trivial

theorem perform_small (hsmall : Small T) {call : Tables.Call} (hgood : call.Good s) (teid : Option UInt32) :
    Small (T.perform call teid) := by
  intro u b tunnel htunnel
  cases call with
  | create req draws =>
    simp only [Tunnels.perform, Tunnels.create] at htunnel
    split at htunnel
    next heq => exact heq.2 ▸ hgood.1
    next => exact hsmall u b tunnel htunnel
  | updateUeId oldUeId newUeId =>
    simp only [Tunnels.perform, Tunnels.rename] at htunnel
    split at htunnel
    next =>
      dsimp only at htunnel
      split at htunnel
      next => exact hsmall oldUeId b tunnel htunnel
      next =>
        split at htunnel
        next => cases htunnel
        next => exact hsmall u b tunnel htunnel
    next => exact hsmall u b tunnel htunnel
  | deleteOne ueId rbId =>
    simp only [Tunnels.perform, Tunnels.deleteOne] at htunnel
    split at htunnel
    next => cases htunnel
    next => exact hsmall u b tunnel htunnel
  | deleteAll ueId =>
    simp only [Tunnels.perform, Tunnels.deleteAll] at htunnel
    split at htunnel
    next => cases htunnel
    next => exact hsmall u b tunnel htunnel

section Runs

noncomputable def step (p : Tables × Tunnels) (call : Tables.Call) : Except Fault (Tables × Tunnels) :=
  (p.1.perform call).map fun r => (r.1, p.2.perform call r.2)

def Keeps (p : Tables × Tunnels) (call : Tables.Call) : Prop :=
  ∀ p', step p call = .ok p' → Represents p'.1 p'.2

theorem keeps_iff (p p' : Tables × Tunnels) (call : Tables.Call) (hp : Represents p.1 p.2 ∧ Small p.2)
    (hstep : step p call = .ok p') : Keeps p call ↔ call.Good p.1 := by
  obtain ⟨r, hperform, rfl⟩ := map_eq_ok.mp hstep
  rw [← perform_represents_iff hp.1 hp.2 hperform]
  constructor
  · exact fun h => h _ hstep
  · intro h p' hstep'
    cases hstep.symm.trans hstep'
    exact h

/-- For every sequence of calls on an instance, from empty tables on: after each call that returns, both tables hold
exactly the tunnels that the calls were for, if and only if every call is a good one. -/
theorem gtpu_tunnels_inverse_iff (calls : List Tables.Call) : Trace.AlongOk step Keeps (.empty, fun _ _ => none) calls ↔
      Trace.AlongOk step (fun p call => call.Good p.1) (.empty, fun _ _ => none) calls := by
  have hstart : Represents .empty (fun _ _ => none) ∧ Small fun _ _ => none :=
    ⟨.empty, fun _ _ _ h => nomatch h⟩
  refine Trace.alongOk_iff (fun p => Represents p.1 p.2 ∧ Small p.2)
    (fun p call p' hp hstep => keeps_iff p p' call hp hstep) (fun p call p' hp hstep hkeeps => ?_) hstart calls
  have hgood := (keeps_iff p p' call hp hstep).mp hkeeps
  refine ⟨hkeeps p' hstep, ?_⟩
  obtain ⟨r, -, rfl⟩ := map_eq_ok.mp hstep
  exact perform_small hp.2 hgood r.2

/-- A UE with bearer 1 is renamed: TEID 0 is then for UE 0 and bearer 0 in one table, and for the renamed UE and
bearer 0 in the other. -/
theorem gtpu_renamed_tables_disagree :
    ∃ created renamed teid, Tables.empty.newGtpuCreateTunnel ⟨1, 1, 1, 7, 32, true, true⟩ [(0, 0)] =
        .ok (created, teid) ∧ created.gtpv1uUpdateUeId 1 2 = .ok renamed ∧
      renamed.te2ue.lookup 0 = some ⟨0, 0, false, 0, false, 0⟩ ∧ renamed.bearer 0 0 = none ∧
      renamed.bearer 2 0 = some ⟨0, 0⟩ :=
  ⟨_, _, _, rfl, rfl, rfl, rfl, rfl⟩

end Runs

end OaiNr.Gtpu
