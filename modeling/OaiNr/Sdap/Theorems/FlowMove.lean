import OaiNr.Sdap.Lemmas.Config

/-!
# Moving a QoS flow to another DRB

RRC moves a flow by two reconfigurations: DRB `a` releases it and DRB `b` adds it.
-/

namespace OaiNr.Sdap

open Entity

abbrev DrbId := { d : Nat // 0 < d ∧ d ≤ maxDrbsPerUe }

def releaseFlow (c : SdapConfig) (a : DrbId) (qfi : Fin sdapMaxQfi) : SdapConfig :=
  { c with drbId := a, mappedQfis2Add := [], mappedQfis2Release := [qfi] }

def addFlow (c : SdapConfig) (b : DrbId) (qfi : Fin sdapMaxQfi) : SdapConfig :=
  { c with drbId := b, mappedQfis2Add := [qfi], mappedQfis2Release := [] }

inductive MoveOrder where
  | releaseFirst
  | addFirst
  deriving Repr, DecidableEq

namespace Entity

def reconfigureTwice (e : Entity) (c c' : SdapConfig) : Except Fault Entity := do
  let r ← e.qfi2drbMapUpdate c
  let r' ← r.1.qfi2drbMapUpdate c'
  return r'.1

def moveFlow (e : Entity) (release add : SdapConfig) : MoveOrder → Except Fault Entity
  | .releaseFirst => e.reconfigureTwice release add
  | .addFirst => e.reconfigureTwice add release

/-- The flow ends up at `b`, and no other rule changes. -/
def MovesTo (e : Entity) (b : DrbId) (qfi : Fin sdapMaxQfi) (r : Except Fault Entity) : Prop :=
  ∃ e', r = .ok e' ∧ (e'.qfi2drbTable qfi).drbId = b ∧ ∀ q ≠ qfi, e'.qfi2drbTable q = e.qfi2drbTable q

/-- Without SDAP headers there is one DRB only: `a` before the move, and `b` after it. -/
def OneDrbEach (e : Entity) (a b : DrbId) (qfi : Fin sdapMaxQfi) : Prop :=
  e.OneDrb a ∧ ∀ q ≠ qfi, (e.qfi2drbTable q).drbId = 0 ∨ (e.qfi2drbTable q).drbId = b

variable {e e' : Entity} {c c' : SdapConfig} {a b : DrbId} {qfi : Fin sdapMaxQfi}

theorem qfi2drbMapUpdate_release : e.qfi2drbMapUpdate (releaseFlow c a qfi) =
    if e.enableSdap = false ∧ ¬e.OneDrb a then .error .assertion else .ok (e.qfi2drbMapDel qfi, []) := by
  have hctrl : e.controlPdus (releaseFlow c a qfi) = .ok [] := by
    rw [controlPdus]
    split <;> rfl
  have hrm : (e.addQosFlowsToDrb (releaseFlow c a qfi)).rmQosFlows [qfi.val] = .ok (e.qfi2drbMapDel qfi) := by
    simp [addQosFlowsToDrb, releaseFlow, rmQosFlows, qfi.isLt]
  rw [qfi2drbMapUpdate, hctrl]
  refine if_congr Iff.rfl rfl ?_
  simp only [bind, Except.bind]
  rw [show (releaseFlow c a qfi).mappedQfis2Release = [qfi.val] from rfl, hrm]

theorem qfi2drbMapUpdate_add : (e.qfi2drbMapUpdate (addFlow c b qfi)).map Prod.fst =
    if e.enableSdap = false ∧ ¬e.OneDrb b then .error .assertion else .ok (e.qfi2drbMapAdd qfi b c.role) := by
  have hadd : e.addQosFlowsToDrb (addFlow c b qfi) = e.qfi2drbMapAdd qfi b c.role := by
    simp [addQosFlowsToDrb, addFlow, addQosFlow, qfi.isLt, b.2.1, b.2.2]
  obtain ⟨ctrl, hctrl⟩ : ∃ ctrl, e.controlPdus (addFlow c b qfi) = .ok ctrl := by
    rw [controlPdus]
    split
    · exact ⟨_, rfl⟩
    · exact ⟨_, by simp [addFlow, ueControlPduConfig, qfi.isLt, Except.map]; rfl⟩
  have hrm : (e.qfi2drbMapAdd qfi b c.role).rmQosFlows [] = .ok (e.qfi2drbMapAdd qfi b c.role) := rfl
  rw [qfi2drbMapUpdate, hctrl, hadd]
  by_cases hone : e.enableSdap = false ∧ ¬e.OneDrb b
  · have hone' : e.enableSdap = false ∧ ¬e.OneDrb (addFlow c b qfi).drbId := hone
    rw [if_pos hone, if_pos hone']
    rfl
  · have hone' : ¬(e.enableSdap = false ∧ ¬e.OneDrb (addFlow c b qfi).drbId) := hone
    rw [if_neg hone, if_neg hone']
    simp only [bind, Except.bind]
    rw [show (addFlow c b qfi).mappedQfis2Release = [] from rfl, hrm]
    rfl

theorem reconfigureTwice_eq (e : Entity) (c c' : SdapConfig) : e.reconfigureTwice c c' =
    (e.qfi2drbMapUpdate c).map Prod.fst >>= fun e' => (e'.qfi2drbMapUpdate c').map Prod.fst := by
  rw [reconfigureTwice]
  cases e.qfi2drbMapUpdate c with
  | error f => rfl
  | ok r =>
    simp only [bind, Except.bind, Except.map]
    cases r.1.qfi2drbMapUpdate c' <;> rfl

theorem oneDrb_del : (e.qfi2drbMapDel qfi).OneDrb b ↔
    ∀ q ≠ qfi, (e.qfi2drbTable q).drbId = 0 ∨ (e.qfi2drbTable q).drbId = b := by
  constructor
  · intro h q hq
    simpa [qfi2drbMapDel, hq] using h q
  · intro h q
    by_cases hq : q = qfi
    · subst hq
      simp [qfi2drbMapDel]
    · simpa [qfi2drbMapDel, hq] using h q hq

/-- The move works if and only if the release comes first, and, without SDAP headers, there is one DRB
before it and one after it. -/
theorem moveFlow_iff_releaseFirst (e : Entity) (c c' : SdapConfig) (a b : DrbId) (qfi : Fin sdapMaxQfi)
    (o : MoveOrder) : e.MovesTo b qfi (e.moveFlow (releaseFlow c a qfi) (addFlow c' b qfi) o) ↔
      o = .releaseFirst ∧ (e.enableSdap = true ∨ e.OneDrbEach a b qfi) := by
  have hb : (b : Nat) ≠ 0 := by have := b.2.1; omega
  cases o with
  | releaseFirst =>
    rw [moveFlow, reconfigureTwice_eq, qfi2drbMapUpdate_release]
    by_cases ha : e.enableSdap = false ∧ ¬e.OneDrb a
    · rw [if_pos ha]
      refine iff_of_false ?_ ?_
      · rintro ⟨e', he, -⟩
        cases he
      · rintro ⟨-, hen | hone⟩
        · simp [hen] at ha
        · exact ha.2 hone.1
    · rw [if_neg ha]
      change e.MovesTo b qfi (((e.qfi2drbMapDel qfi).qfi2drbMapUpdate (addFlow c' b qfi)).map Prod.fst) ↔ _
      rw [qfi2drbMapUpdate_add]
      have hen : (e.qfi2drbMapDel qfi).enableSdap = e.enableSdap := rfl
      rw [hen]
      by_cases hb' : e.enableSdap = false ∧ ¬(e.qfi2drbMapDel qfi).OneDrb b
      · rw [if_pos hb']
        refine iff_of_false ?_ ?_
        · rintro ⟨e', he, -⟩
          cases he
        · rintro ⟨-, hen | hone⟩
          · simp [hen] at hb'
          · exact hb'.2 (oneDrb_del.mpr hone.2)
      · rw [if_neg hb']
        refine iff_of_true ⟨_, rfl, ?_, fun q hq => ?_⟩ ⟨rfl, ?_⟩
        · simp [qfi2drbMapAdd]
        · simp [qfi2drbMapAdd, qfi2drbMapDel, hq]
        · cases hen : e.enableSdap with
          | true => exact .inl rfl
          | false =>
            simp only [hen, true_and, not_not] at ha hb'
            exact .inr ⟨ha, oneDrb_del.mp hb'⟩
  | addFirst =>
    -- the rule that was just added is deleted
    refine iff_of_false ?_ (by simp)
    rintro ⟨e', he, hto, -⟩
    rw [moveFlow, reconfigureTwice_eq] at he
    obtain ⟨e₁, -, he⟩ := bind_eq_ok.mp he
    rw [qfi2drbMapUpdate_release] at he
    split at he
    · cases he
    · cases he
      simp [qfi2drbMapDel] at hto
      exact hb hto.symm

/-- The flow 5 is moved from DRB 1 to DRB 2 of a session with headers, and DRB 2 is reconfigured first:
the flow has no rule in the end. -/
theorem moveFlow_addFirst_loses_rule :
    let config : SdapConfig := ⟨10, 1, { ulRx := true, dlTx := true }, false, [5, 6], []⟩
    ∃ e, addEntity true 1 config = .ok e ∧ (e.qfi2drbTable 5).drbId = 1 ∧
      ∃ e', e.moveFlow (releaseFlow config ⟨1, by decide⟩ 5) (addFlow config ⟨2, by decide⟩ 5) .addFirst =
          .ok e' ∧
        (e'.qfi2drbTable 5).drbId = 0 ∧ e'.qfi2drb 5 = 0 :=
  ⟨_, rfl, rfl, _, rfl, rfl, rfl⟩

end Entity

end OaiNr.Sdap
