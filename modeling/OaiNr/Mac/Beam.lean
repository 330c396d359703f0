import Mathlib.Logic.Function.Basic

/-!
# The beams of the gNB

With analog beamforming, only a few beams can be in use in a period of slots. A channel that is to use a beam takes an
entry of the period, or shares one with others on the same beam.
-/

namespace OaiNr.Mac

abbrev BeamColumn := List (Option Nat)

/-- The loop of `beam_allocation_procedure`: the entry that is found, and whether it was free. -/
def BeamColumn.allocate (beam : Nat) : BeamColumn → BeamColumn × Option (Nat × Bool)
  | [] => ([], none)
  | none :: col => (some beam :: col, some (0, true))
  | some e :: col =>
    if e = beam then (some e :: col, some (0, false))
    else
      let (col, found) := BeamColumn.allocate beam col
      (some e :: col, found.map fun (i, newBeam) => (i + 1, newBeam))

def BeamColumn.reset (beam : Nat) (col : BeamColumn) : BeamColumn :=
  col.map fun e => if e = some beam then none else e

theorem BeamColumn.length_allocate (beam : Nat) (col : BeamColumn) :
    (BeamColumn.allocate beam col).1.length = col.length := by
  induction col with
  | nil => rfl
  | cons e col ih =>
    cases e with
    | none => rfl
    | some e =>
      unfold BeamColumn.allocate
      split <;> simp [ih]

/-- `NR_beam_info_t`. There is a table unless the mode is `NO_BEAM_MODE`, and each of its periods has
`beams_per_period` entries. -/
structure BeamInfo where
  noBeamMode : Bool
  beamsPerPeriod : Nat
  beamAllocation : Nat → BeamColumn
  length_eq : ∀ i, (beamAllocation i).length = beamsPerPeriod

namespace BeamInfo

variable (b : BeamInfo)

def setColumn (index : Nat) (col : BeamColumn) (h : col.length = b.beamsPerPeriod) : BeamInfo :=
  { b with
    beamAllocation := Function.update b.beamAllocation index col
    length_eq := fun i => by
      by_cases hi : i = index
      · simp [hi, h]
      · simp [hi, b.length_eq i] }

/-- `beam_allocation_procedure`: the index of the beam and `new_beam`, nothing if the index is -1. -/
def beamAllocationProcedure (index beam : Nat) : BeamInfo × Option (Nat × Bool) :=
  if b.noBeamMode then (b, some (0, false))
  else
    (b.setColumn index (BeamColumn.allocate beam (b.beamAllocation index)).1
        ((BeamColumn.length_allocate _ _).trans (b.length_eq index)),
      (BeamColumn.allocate beam (b.beamAllocation index)).2)

def resetBeamStatus (index beam : Nat) (newBeam : Bool) : BeamInfo :=
  if newBeam then
    b.setColumn index (BeamColumn.reset beam (b.beamAllocation index))
      (by simp [BeamColumn.reset, b.length_eq])
  else b

def numBeams : Nat := if b.noBeamMode then 1 else b.beamsPerPeriod

end BeamInfo

end OaiNr.Mac
