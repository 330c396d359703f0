import Mathlib.Data.List.Sort
import OaiNr.Mac.NrList

/-!
# Loops that the two schedulers share

Both schedulers call their allocation policy once for each beam, and both proportional fair policies go
over their candidates in three phases, with a limit on how many they schedule.
-/

namespace OaiNr.Mac

variable {σ κ : Type}

/-- The loop that calls a policy for each group of candidates with one beam. The candidates are sorted
by beam. -/
def allocPerBeam (beamOf : κ → Int) (rbAlloc : σ → List κ → Except Fault (List κ × σ)) :
    (fuel : Nat) → σ → List κ → Except Fault (List κ × σ)
  | 0, _, _ => .error .endless
  | _ + 1, s, [] => .ok ([], s)
  | fuel + 1, s, c :: cands => do
    let sameBeam := fun d => beamOf d == beamOf c
    let (group, s) ← rbAlloc s (c :: cands.takeWhile sameBeam)
    let (rest, s) ← allocPerBeam beamOf rbAlloc fuel s (cands.dropWhile sameBeam)
    return (group ++ rest, s)

/-- `qsort` by beam, then the loop -/
def sortAndAllocPerBeam (beamOf : κ → Int) (rbAlloc : σ → List κ → Except Fault (List κ × σ)) (s : σ)
    (cands : List κ) : Except Fault (List κ × σ) :=
  allocPerBeam beamOf rbAlloc (cands.length + 1) s (cands.insertionSort fun a c => beamOf a ≤ beamOf c)

/-- A run of a policy: the state of the slot, how many candidates are scheduled, and whether the policy
has returned because these are as many as there may be. -/
structure PfState (σ : Type) where
  slot : σ
  nScheduled : Nat
  full : Bool

/-- What a policy decides for a candidate: its resource blocks, its MCS and its DCI. -/
structure Grant where
  rbStart : Nat
  rbSize : Nat
  mcs : Nat
  cceIndex : Nat
  aggregationLevel : Nat
  deriving DecidableEq, Repr

abbrev Attempt (σ κ : Type) := σ → κ → Except Fault (Option (Grant × σ))

/-- One phase of a policy: the loop over the candidates that are due in it. An attempt that succeeds is
written to the candidate; the limit is compared after that. -/
def pfPhase (granted : κ → Grant → κ) (maxNumUe : Nat) (due : κ → Bool) (attempt : Attempt σ κ) :
    PfState σ → List κ → Except Fault (List κ × PfState σ)
  | s, [] => .ok ([], s)
  | s, c :: cands =>
    if s.full || !due c then do
      let (cands, s) ← pfPhase granted maxNumUe due attempt s cands
      return (c :: cands, s)
    else do
      match ← attempt s.slot c with
      | none =>
        let (cands, s) ← pfPhase granted maxNumUe due attempt s cands
        return (c :: cands, s)
      | some (g, slot) =>
        let n := s.nScheduled + 1
        let (cands, s) ← pfPhase granted maxNumUe due attempt ⟨slot, n, maxNumUe ≤ n⟩ cands
        return (granted c g :: cands, s)

/-- The three phases of a policy, each with the candidates that are due in it and what it tries -/
structure PfPhases (σ κ : Type) where
  due₁ : κ → Bool
  attempt₁ : Attempt σ κ
  due₂ : κ → Bool
  attempt₂ : Attempt σ κ
  due₃ : κ → Bool
  attempt₃ : Attempt σ κ

def PfPhases.Grants (phases : PfPhases σ κ) (s : σ) (c : κ) (g : Grant) (s' : σ) : Prop :=
  phases.due₁ c ∧ phases.attempt₁ s c = .ok (some (g, s')) ∨
  phases.due₂ c ∧ phases.attempt₂ s c = .ok (some (g, s')) ∨
  phases.due₃ c ∧ phases.attempt₃ s c = .ok (some (g, s'))

/-- A proportional fair policy: the candidates that are not skipped go through the phases in the order
of their priority. They come out in that order, the others behind them. -/
def proportionalFair (granted : κ → Grant → κ) (skipped : κ → Bool) (pfOrder : List κ → List κ)
    (phases : PfPhases σ κ) (maxNumUe : Nat) (s : σ) (cands : List κ) : Except Fault (List κ × σ) := do
  let order := pfOrder (cands.filter fun c => !skipped c)
  let (order, s) ← pfPhase granted maxNumUe phases.due₁ phases.attempt₁ ⟨s, 0, false⟩ order
  let (order, s) ← pfPhase granted maxNumUe phases.due₂ phases.attempt₂ s order
  let (order, s) ← pfPhase granted maxNumUe phases.due₃ phases.attempt₃ s order
  return (order ++ cands.filter skipped, s.slot)

def maxDciCoreset : Nat := 8

/-- The DCIs of what was scheduled, by CORESET: each takes the entry `numDlDci` of the PDCCH PDU in
`prepare_dci_pdu`. -/
def placeDcis : (coresets : List Nat) → (numDlDci : Nat → Nat) → Except Fault (Nat → Nat)
  | [], n => .ok n
  | c :: coresets, n =>
    if n c < maxDciCoreset then placeDcis coresets (Function.update n c (n c + 1))
    else .error .outOfBounds

end OaiNr.Mac
