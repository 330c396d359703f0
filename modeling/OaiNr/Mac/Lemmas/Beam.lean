import OaiNr.Mac.Beam

/-!
# The beams of a period
-/

namespace OaiNr.Mac

variable {b b' : BeamInfo} {index beam i : Nat} {isNew : Bool} {found : Option (Nat × Bool)}

theorem BeamColumn.allocate_lt {col : BeamColumn} (h : (allocate beam col).2 = some (i, isNew)) : i < col.length := by
  induction col generalizing i with
  | nil => cases h
  | cons e col ih =>
    cases e with
    | none =>
      cases h
      exact Nat.succ_pos _
    | some e =>
      unfold allocate at h
      split at h
      · cases h
        exact Nat.succ_pos _
      · obtain ⟨⟨j, isNew'⟩, hj, heq⟩ := Option.map_eq_some_iff.mp h
        cases heq
        exact Nat.succ_lt_succ (ih hj)

namespace BeamInfo

theorem beamAllocationProcedure_lt
    (h : b.beamAllocationProcedure index beam = (b', some (i, isNew))) : i < b.numBeams := by
  unfold beamAllocationProcedure at h
  split at h
  · next hmode =>
    cases h
    simp [numBeams, hmode]
  · next hmode =>
    rw [numBeams, if_neg hmode, ← b.length_eq index]
    exact BeamColumn.allocate_lt (congrArg Prod.snd h)

theorem beamAllocationProcedure_numBeams
    (h : b.beamAllocationProcedure index beam = (b', found)) : b'.numBeams = b.numBeams := by
  unfold beamAllocationProcedure at h
  split at h <;> cases h <;> rfl

theorem resetBeamStatus_numBeams (newBeam : Bool) : (b.resetBeamStatus index beam newBeam).numBeams = b.numBeams := by
  cases newBeam <;> rfl

end BeamInfo

end OaiNr.Mac
