import OaiNr.Mac.Beam
import OaiNr.Mac.Policy
import OaiNr.Mac.VrbMap

/-!
# The downlink scheduler of a slot

The scheduler takes the UEs that have something to be sent through its stages: a beam, a time domain allocation,
resource blocks and a DCI. The stages are policies, some of which the model has in their default form.
-/

namespace OaiNr.Mac

/-- The part of `nr_dl_candidate_t` that the stages read and write. `tbs` is the size of the transport
block by the MCS and the number of resource blocks, and `overhead` what is added to the data for
subheaders and a timing advance. -/
structure DlCandidate where
  rnti : Nat
  isRetx : Bool
  retxRbSize : Nat
  pendingBytes : Nat
  overhead : Nat
  mcs : Nat
  tbs : Nat → Nat → Nat
  bwpStart : Nat
  bwpSize : Nat
  pdcch : Pdcch
  skipped : Bool
  scheduled : Bool
  allocSlbitmap : Nat
  allocBeamDir : Nat
  allocBeamIdx : Nat
  allocNewBeam : Bool
  rbStart : Nat
  rbSize : Nat
  allocCceIndex : Nat
  allocAggregationLevel : Nat

namespace DlCandidate

/-- What the stages write, as `collect_dl_candidates` leaves it -/
def collected (c : DlCandidate) : DlCandidate :=
  { c with skipped := false, scheduled := false, allocBeamIdx := 0, allocNewBeam := false }

/-- `COMMIT_ALLOC`: what it writes when the commit succeeds -/
def granted (c : DlCandidate) (g : Grant) : DlCandidate :=
  { c with
    rbStart := g.rbStart, rbSize := g.rbSize, mcs := g.mcs, allocCceIndex := g.cceIndex,
    allocAggregationLevel := g.aggregationLevel, scheduled := true }

/-- What a TDA selection may do to a candidate: it leaves it its beam, and does not schedule it. -/
structure TdaSelected (a c : DlCandidate) : Prop where
  idx : c.allocBeamIdx = a.allocBeamIdx
  scheduled : c.scheduled = a.scheduled

end DlCandidate

/-- The policies of `nr_dl_schedule`. `pfOrder` is the order of the priorities, in which the default
selection of beams goes over the candidates. An allocation of resource blocks has a state: the maps of
the slot, the PUCCHs of the UEs. -/
structure DlPolicies (σ : Type) where
  pfOrder : List DlCandidate → List DlCandidate
  tdaSelect : List DlCandidate → List DlCandidate × Nat
  rbAlloc : σ → List DlCandidate → Except Fault (List DlCandidate × σ)
  pfOrder_perm : ∀ cands, (pfOrder cands).Perm cands
  tdaSelect_spec : ∀ cands, List.Forall₂ DlCandidate.TdaSelected cands (tdaSelect cands).1

def DlCandidate.withBeam (c : DlCandidate) : Option (Nat × Bool) → DlCandidate
  | none => { c with skipped := true }
  | some (idx, newBeam) => { c with allocBeamIdx := idx, allocNewBeam := newBeam }

/-- `nr_dl_beam_select_default`, for candidates in the order of their priority -/
def nrDlBeamSelectDefault (index : Nat) : BeamInfo → List DlCandidate → BeamInfo × List DlCandidate
  | b, [] => (b, [])
  | b, c :: cands =>
    let (b, beam) := b.beamAllocationProcedure index c.allocBeamDir
    let (b, cands) := nrDlBeamSelectDefault index b cands
    (b, c.withBeam beam :: cands)

def releaseRejected (index : Nat) (b : BeamInfo) (cands : List DlCandidate) : BeamInfo :=
  cands.foldl (fun b c => if c.scheduled || c.skipped then b
    else b.resetBeamStatus index c.allocBeamDir c.allocNewBeam) b

structure DlScheduled (σ : Type) where
  beam : BeamInfo
  cands : List DlCandidate
  slot : σ

/-- Step 3 of `nr_dl_schedule`: with a single beam there is nothing to select. -/
def dlBeamSelect {σ : Type} (P : DlPolicies σ) (numBeams index : Nat) (b : BeamInfo)
    (cands : List DlCandidate) : BeamInfo × List DlCandidate :=
  if 1 < numBeams then nrDlBeamSelectDefault index b (P.pfOrder cands) else (b, cands)

/-- `nr_dl_schedule` up to the point where the decisions are made. `index` is the period of the slot in
the table of beams. The three early exits come before the release. -/
def nrDlSchedule {σ : Type} (P : DlPolicies σ) (numBeams index : Nat) (b : BeamInfo) (s : σ)
    (cands : List DlCandidate) : Except Fault (DlScheduled σ) :=
  let cands := cands.map DlCandidate.collected
  if cands.isEmpty then .ok ⟨b, cands, s⟩
  else
    let (b, cands) := dlBeamSelect P numBeams index b cands
    if 1 < numBeams ∧ cands.all DlCandidate.skipped then .ok ⟨b, cands, s⟩
    else
      let (cands, nValid) := P.tdaSelect cands
      if nValid = 0 then .ok ⟨b, cands, s⟩
      else do
        let (cands, s) ← sortAndAllocPerBeam (fun c => c.allocBeamIdx) P.rbAlloc s cands
        return ⟨releaseRejected index b cands, cands, s⟩

section ProportionalFair

structure DlSlot (ρ : Type) where
  vrbMap : Nat → VrbMap
  pucch : ρ

variable {ρ : Type} (acknack : ρ → DlCandidate → Nat → Option ρ)

/-- `commit_alloc`. `acknack` stands for the search for a PUCCH of the UE, for a DCI in this CCE. -/
def commitAlloc (s : DlSlot ρ) (c : DlCandidate) (rbStart rbSize : Nat) : Option (Grant × DlSlot ρ) := do
  let map := s.vrbMap c.allocBeamIdx
  let (cce, aggregation) ← c.pdcch.getCceIndex map
  let pucch ← acknack s.pucch c cce
  let map := c.pdcch.fillPdcchVrbMap map cce aggregation
  let map := map.mark c.allocSlbitmap fun rb =>
    c.bwpStart + rbStart ≤ rb ∧ rb < c.bwpStart + rbStart + rbSize
  return (⟨rbStart, rbSize, c.mcs, cce, aggregation⟩,
    ⟨Function.update s.vrbMap c.allocBeamIdx map, pucch⟩)

def minRbSize : Nat := 5

def attemptRetx (s : DlSlot ρ) (c : DlCandidate) : Option (Grant × DlSlot ρ) := do
  let block ← (s.vrbMap c.allocBeamIdx).getRbAlloc c.allocSlbitmap c.retxRbSize c.bwpSize c.bwpStart
    c.bwpSize
  commitAlloc acknack s c block.start c.retxRbSize

def attemptNoData (s : DlSlot ρ) (c : DlCandidate) : Option (Grant × DlSlot ρ) := do
  let block ← (s.vrbMap c.allocBeamIdx).getRbAlloc c.allocSlbitmap minRbSize c.bwpSize c.bwpStart
    c.bwpSize
  commitAlloc acknack s c block.start minRbSize

def attemptNewData (s : DlSlot ρ) (c : DlCandidate) : Except Fault (Option (Grant × DlSlot ρ)) :=
  let block := (s.vrbMap c.allocBeamIdx).findLargestFreeBlock c.allocSlbitmap c.bwpStart c.bwpSize
  if block.len < minRbSize then .ok none
  else do
    let rbSize ← nrFindNbRb (c.tbs c.mcs) false (c.pendingBytes + c.overhead) minRbSize block.len
    return commitAlloc acknack s c block.start rbSize

def dlPhases {σ : Type} (retx noData newData : Attempt σ DlCandidate) : PfPhases σ DlCandidate where
  due₁ c := c.isRetx
  attempt₁ := retx
  due₂ c := !c.isRetx && c.pendingBytes == 0
  attempt₂ := noData
  due₃ c := !c.isRetx && c.pendingBytes != 0
  attempt₃ := newData

def nrDlProportionalFair (pfOrder : List DlCandidate → List DlCandidate) (maxNumUe : Nat) (s : DlSlot ρ)
    (cands : List DlCandidate) : Except Fault (List DlCandidate × DlSlot ρ) :=
  proportionalFair DlCandidate.granted DlCandidate.skipped pfOrder
    (dlPhases (fun s c => .ok (attemptRetx acknack s c)) (fun s c => .ok (attemptNoData acknack s c))
      (attemptNewData acknack)) maxNumUe s cands

end ProportionalFair

section Dispatch

def averageAggLevel : Nat := 4

/-- How many UEs a policy may schedule, by the bandwidth of the carrier: `max_sched_ues` of the downlink
and `max_dci` of the uplink -/
def maxSchedUes (bw : Nat) : Nat := min (bw / (averageAggLevel * nrNbRegPerCce)) maxDciCoreset

def maxMobilesPerGnb : Nat := 16

/-- `nr_dlsch_preprocessor` with the DCIs of step 7. `numDlDci` is how many there are already in the PDCCH
PDU of each CORESET, and `policies` are the policies by the limit. -/
def nrDlschPreprocessor {σ : Type} (policies : Nat → DlPolicies σ) (bw index : Nat) (b : BeamInfo) (s : σ)
    (numDlDci : Nat → Nat) (cands : List DlCandidate) : Except Fault (Nat → Nat) := do
  let r ← nrDlSchedule (policies (maxSchedUes bw)) b.numBeams index b s cands
  placeDcis ((r.cands.filter DlCandidate.scheduled).map fun c => c.pdcch.coresetId) numDlDci

end Dispatch

end OaiNr.Mac
