import OaiNr.Mac.Lemmas.Beam
import OaiNr.Mac.Lemmas.Policy
import OaiNr.Mac.UlSchedule

/-!
# The candidates on their way through the stages
-/

namespace OaiNr.Mac

open List

theorem DlCandidate.withBeam_scheduled (c : DlCandidate) (found : Option (Nat × Bool)) :
    (c.withBeam found).scheduled = c.scheduled := by
  cases found <;> rfl

theorem nrDlBeamSelectDefault_scheduled {index : Nat} {b : BeamInfo} {cands : List DlCandidate}
    (hcands : ∀ c ∈ cands, c.scheduled = false) :
    ∀ c ∈ (nrDlBeamSelectDefault index b cands).2, c.scheduled = false := by
  induction cands generalizing b with
  | nil => exact hcands
  | cons c cands ih =>
    obtain ⟨hc, hcands⟩ := forall_mem_cons.mp hcands
    exact forall_mem_cons.mpr ⟨(c.withBeam_scheduled _).trans hc, ih hcands⟩

section Downlink

variable {σ : Type} {P : DlPolicies σ} {index numBeams : Nat} {b : BeamInfo} {s : σ}
  {cands : List DlCandidate} {r : DlScheduled σ}

theorem dlBeamSelect_scheduled {c : DlCandidate}
    (hc : c ∈ (dlBeamSelect P numBeams index b (cands.map DlCandidate.collected)).2) : c.scheduled = false := by
  have hcollected : ∀ c ∈ cands.map DlCandidate.collected, c.scheduled = false := by
    intro c hc
    obtain ⟨a, _, rfl⟩ := mem_map.mp hc
    rfl
  unfold dlBeamSelect at hc
  split at hc
  · exact nrDlBeamSelectDefault_scheduled (fun c hc => hcollected c ((P.pfOrder_perm _).mem_iff.mp hc)) c hc
  · exact hcollected c hc

def DlPolicies.default {ρ : Type} (acknack : ρ → DlCandidate → Nat → Option ρ)
    (pfOrder : List DlCandidate → List DlCandidate) (pfOrder_perm : ∀ cands, (pfOrder cands).Perm cands)
    (tdaSelect : List DlCandidate → List DlCandidate × Nat)
    (tdaSelect_spec : ∀ cands, List.Forall₂ DlCandidate.TdaSelected cands (tdaSelect cands).1)
    (maxNumUe : Nat) : DlPolicies (DlSlot ρ) where
  pfOrder := pfOrder
  tdaSelect := tdaSelect
  rbAlloc := nrDlProportionalFair acknack pfOrder maxNumUe
  pfOrder_perm := pfOrder_perm
  tdaSelect_spec := tdaSelect_spec

end Downlink

section Uplink

variable {σ : Type} {P : UlPolicies σ} {dciIndex schedIndex : Nat} {b : BeamInfo} {s : σ}
  {cands : List UlCandidate} {r : UlScheduled σ}

theorem ulBeamSelect_scheduled (dciIndex schedIndex : Nat) (b : BeamInfo) (c : UlCandidate) :
    (ulBeamSelect dciIndex schedIndex b c).2.scheduled = c.scheduled := by
  unfold ulBeamSelect
  split
  · rfl
  · split <;> rfl

theorem nrUlBeamSelectDefault_scheduled (hcands : ∀ c ∈ cands, c.scheduled = false) :
    ∀ c ∈ (nrUlBeamSelectDefault dciIndex schedIndex b cands).2, c.scheduled = false := by
  induction cands generalizing b with
  | nil => exact hcands
  | cons c cands ih =>
    obtain ⟨hc, hcands⟩ := forall_mem_cons.mp hcands
    exact forall_mem_cons.mpr ⟨(ulBeamSelect_scheduled dciIndex schedIndex b c).trans hc, ih hcands⟩

/-- Step 3 of `nr_ul_schedule` -/
def ulSelected (P : UlPolicies σ) (dciIndex schedIndex : Nat) (b : BeamInfo) (cands : List UlCandidate) :
    BeamInfo × List UlCandidate :=
  nrUlBeamSelectDefault dciIndex schedIndex b (P.pfOrder (cands.map UlCandidate.collected))

theorem ulSelected_scheduled {c : UlCandidate} (hc : c ∈ (ulSelected P dciIndex schedIndex b cands).2) :
    c.scheduled = false := by
  refine nrUlBeamSelectDefault_scheduled (fun c hc => ?_) c hc
  obtain ⟨a, _, rfl⟩ := mem_map.mp ((P.pfOrder_perm _).mem_iff.mp hc)
  rfl

def UlPolicies.default (pfOrder : List UlCandidate → List UlCandidate)
    (pfOrder_perm : ∀ cands, (pfOrder cands).Perm cands) (tdaSelect : List UlCandidate → List UlCandidate × Nat)
    (tdaSelect_spec : ∀ cands, List.Forall₂ UlCandidate.TdaSelected cands (tdaSelect cands).1)
    (minRb maxNumUe : Nat) : UlPolicies UlSlot where
  pfOrder := pfOrder
  tdaSelect := tdaSelect
  rbAlloc := nrUlProportionalFair pfOrder minRb maxNumUe
  pfOrder_perm := pfOrder_perm
  tdaSelect_spec := tdaSelect_spec

end Uplink

end OaiNr.Mac
