import OaiNr.Lib.Fallible
import OaiNr.Sdap.Entity

/-!
# Configurations of an entity
-/

namespace OaiNr.Sdap

open Entity

variable {c : SdapConfig} {e e' : Entity}

theorem qfi2drbMapUpdate_cases {e : Entity} {r : Entity × List Submission} (h : e.qfi2drbMapUpdate c = .ok r) :
    (e.addQosFlowsToDrb c).rmQosFlows c.mappedQfis2Release = .ok r.1 := by
  rw [qfi2drbMapUpdate] at h
  split at h
  · cases h
  · obtain ⟨ctrl, -, h⟩ := bind_eq_ok.mp h
    obtain ⟨e', hrm, h⟩ := bind_eq_ok.mp h
    cases h
    exact hrm

theorem addEntity_cases {e : Entity} {isGnb : Bool} {ueId : Nat} (h : addEntity isGnb ueId c = .ok e) :
    e = Entity.addQosFlowsToDrb
      { ueId
        pdusessionId := c.pdusessionId
        isGnb
        enableSdap := c.role ≠ noSdapHeader
        defaultDrb := if c.defaultDrb then c.drbId else 0
        qfi2drbTable := fun _ => ⟨0, noSdapHeader⟩ } c := by
  rw [addEntity] at h
  simp only at h
  split at h
  · cases h
  · cases h
    rfl

/-! ## What a configuration leaves alone -/

structure SameIds (e e' : Entity) : Prop where
  ueId : e'.ueId = e.ueId
  pdusessionId : e'.pdusessionId = e.pdusessionId
  isGnb : e'.isGnb = e.isGnb
  enableSdap : e'.enableSdap = e.enableSdap
  defaultDrb : e'.defaultDrb = e.defaultDrb

theorem SameIds.refl (e : Entity) : SameIds e e := ⟨rfl, rfl, rfl, rfl, rfl⟩

theorem SameIds.trans {e'' : Entity} (h : SameIds e e') (h' : SameIds e' e'') : SameIds e e'' :=
  ⟨h'.ueId.trans h.ueId, h'.pdusessionId.trans h.pdusessionId, h'.isGnb.trans h.isGnb,
    h'.enableSdap.trans h.enableSdap, h'.defaultDrb.trans h.defaultDrb⟩

theorem addQosFlow_sameIds (c : SdapConfig) (e : Entity) (qfi : Nat) : SameIds e (Entity.addQosFlow c e qfi) := by
  rw [Entity.addQosFlow]
  split
  · split
    · exact ⟨rfl, rfl, rfl, rfl, rfl⟩
    · exact .refl e
  · exact .refl e

theorem addQosFlowsToDrb_sameIds (e : Entity) (c : SdapConfig) : SameIds e (e.addQosFlowsToDrb c) := by
  rw [Entity.addQosFlowsToDrb]
  induction c.mappedQfis2Add generalizing e with
  | nil => exact .refl e
  | cons qfi l ih => exact (addQosFlow_sameIds c e qfi).trans (ih _)

theorem rmQosFlows_sameIds {l : List Nat} (h : e.rmQosFlows l = .ok e') : SameIds e e' := by
  induction l generalizing e with
  | nil =>
    cases h
    exact .refl _
  | cons qfi l ih =>
    rw [Entity.rmQosFlows] at h
    split at h
    · have hl := ih h
      exact { hl with }
    · cases h

theorem qfi2drbMapUpdate_sameIds {r : Entity × List Submission} (h : e.qfi2drbMapUpdate c = .ok r) : SameIds e r.1 :=
  (addQosFlowsToDrb_sameIds e c).trans (rmQosFlows_sameIds (qfi2drbMapUpdate_cases h))

theorem addEntity_ids {isGnb : Bool} {ueId : Nat} (h : addEntity isGnb ueId c = .ok e) :
    e.ueId = ueId ∧ e.pdusessionId = c.pdusessionId := by
  rw [addEntity_cases h]
  exact ⟨(addQosFlowsToDrb_sameIds _ c).ueId, (addQosFlowsToDrb_sameIds _ c).pdusessionId⟩

end OaiNr.Sdap
