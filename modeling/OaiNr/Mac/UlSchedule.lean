import OaiNr.Mac.DlSchedule

/-!
# The uplink scheduler of a slot

A grant for the uplink takes a beam in two slots: that of its DCI and that of the PUSCH. The
preprocessor goes on to later slots for the PUSCH as long as it may send DCIs.
-/

namespace OaiNr.Mac

/-- The part of `nr_ul_candidate_t` that the stages read and write. `tbs` is the size of the transport
block by the MCS and the number of resource blocks, and `txPower` the power headroom that a grant
takes, by the number of resource blocks and the MCS. -/
structure UlCandidate where
  rnti : Nat
  isRetx : Bool
  retxRbSize : Nat
  schedInactive : Bool
  pendingBytes : Nat
  mcs : Nat
  tbs : Nat → Nat → Nat
  transformPrecoding : Bool
  ph : Int
  pcmax : Int
  txPower : Nat → Nat → Int
  bwpStart : Nat
  bwpSize : Nat
  pdcch : Pdcch
  skipped : Bool
  scheduled : Bool
  allocSlbitmap : Nat
  beamIndex : Nat
  allocDciBeamIdx : Nat
  allocDciBeamNew : Bool
  allocBeamIdx : Int
  allocSchedBeamNew : Bool
  rbStart : Nat
  rbSize : Nat
  allocCceIndex : Nat
  allocAggregationLevel : Nat

namespace UlCandidate

def collected (c : UlCandidate) : UlCandidate :=
  { c with
    skipped := false, scheduled := false, allocDciBeamIdx := 0, allocDciBeamNew := false,
    allocBeamIdx := -1, allocSchedBeamNew := false }

def granted (c : UlCandidate) (g : Grant) : UlCandidate :=
  { c with
    rbStart := g.rbStart, rbSize := g.rbSize, mcs := g.mcs, allocCceIndex := g.cceIndex,
    allocAggregationLevel := g.aggregationLevel, scheduled := true }

structure TdaSelected (a c : UlCandidate) : Prop where
  idx : c.allocBeamIdx = a.allocBeamIdx
  scheduled : c.scheduled = a.scheduled

end UlCandidate

/-- The policies of `nr_ul_schedule` -/
structure UlPolicies (σ : Type) where
  pfOrder : List UlCandidate → List UlCandidate
  tdaSelect : List UlCandidate → List UlCandidate × Nat
  rbAlloc : σ → List UlCandidate → Except Fault (List UlCandidate × σ)
  pfOrder_perm : ∀ cands, (pfOrder cands).Perm cands
  tdaSelect_spec : ∀ cands, List.Forall₂ UlCandidate.TdaSelected cands (tdaSelect cands).1

/-- `nr_ul_beam_select_default` for one candidate. The beam of the DCI is given back if there is none
for the PUSCH. -/
def ulBeamSelect (dciIndex schedIndex : Nat) (b : BeamInfo) (c : UlCandidate) : BeamInfo × UlCandidate :=
  match b.beamAllocationProcedure dciIndex c.beamIndex with
  | (b, none) => (b, { c with skipped := true })
  | (b, some (dciIdx, dciNew)) =>
    match b.beamAllocationProcedure schedIndex c.beamIndex with
    | (b, none) => (b.resetBeamStatus dciIndex c.beamIndex dciNew, { c with skipped := true })
    | (b, some (idx, schedNew)) =>
      (b, { c with
        allocDciBeamIdx := dciIdx, allocDciBeamNew := dciNew, allocBeamIdx := idx,
        allocSchedBeamNew := schedNew })

def nrUlBeamSelectDefault (dciIndex schedIndex : Nat) :
    BeamInfo → List UlCandidate → BeamInfo × List UlCandidate
  | b, [] => (b, [])
  | b, c :: cands =>
    let (b, c) := ulBeamSelect dciIndex schedIndex b c
    let (b, cands) := nrUlBeamSelectDefault dciIndex schedIndex b cands
    (b, c :: cands)

def releaseUl (dciIndex schedIndex : Nat) (b : BeamInfo) (c : UlCandidate) : BeamInfo :=
  if c.scheduled || c.skipped then b
  else (b.resetBeamStatus dciIndex c.beamIndex c.allocDciBeamNew).resetBeamStatus schedIndex c.beamIndex
    c.allocSchedBeamNew

structure UlScheduled (σ : Type) where
  beam : BeamInfo
  cands : List UlCandidate
  slot : σ

def ulRbAlloc {σ : Type} (P : UlPolicies σ) (s : σ) (group : List UlCandidate) : Except Fault (List UlCandidate × σ) :=
  if group.head?.any fun c => c.allocBeamIdx < 0 then .ok (group, s) else P.rbAlloc s group

/-- `nr_ul_schedule` up to the point where the decisions are made -/
def nrUlSchedule {σ : Type} (P : UlPolicies σ) (dciIndex schedIndex : Nat) (b : BeamInfo) (s : σ)
    (cands : List UlCandidate) : Except Fault (UlScheduled σ) :=
  let cands := cands.map UlCandidate.collected
  if cands.isEmpty then .ok ⟨b, cands, s⟩
  else
    let (b, cands) := nrUlBeamSelectDefault dciIndex schedIndex b (P.pfOrder cands)
    if cands.all UlCandidate.skipped then .ok ⟨b, cands, s⟩
    else
      let (cands, nValid) := P.tdaSelect cands
      if nValid = 0 then .ok ⟨b, cands, s⟩
      else do
        let (cands, s) ← sortAndAllocPerBeam (fun c => c.allocBeamIdx) (ulRbAlloc P) s cands
        return ⟨cands.foldl (releaseUl dciIndex schedIndex) b, cands, s⟩

section ProportionalFair

/-- What an uplink policy changes: the maps of the DCI slot and those of the PUSCH slot, by beam. -/
structure UlSlot where
  vrbMap : Nat → VrbMap
  vrbMapUl : Int → VrbMap

def commitUlAlloc (s : UlSlot) (c : UlCandidate) (rbStart rbSize mcs : Nat) : Option (Grant × UlSlot) := do
  let map := s.vrbMap c.allocDciBeamIdx
  let (cce, aggregation) ← c.pdcch.getCceIndex map
  let mapUl := (s.vrbMapUl c.allocBeamIdx).mark c.allocSlbitmap fun rb =>
    c.bwpStart + rbStart ≤ rb ∧ rb < c.bwpStart + rbStart + rbSize
  return (⟨rbStart, rbSize, mcs, cce, aggregation⟩,
    ⟨Function.update s.vrbMap c.allocDciBeamIdx (c.pdcch.fillPdcchVrbMap map cce aggregation),
      Function.update s.vrbMapUl c.allocBeamIdx mapUl⟩)

def ulBlock (s : UlSlot) (c : UlCandidate) : VrbMap.Block :=
  (s.vrbMapUl c.allocBeamIdx).findLargestFreeBlock c.allocSlbitmap c.bwpStart c.bwpSize

/-- `max_mcs_min_rb` of `nr_ul_check_phr`: fewer resource blocks first, then a lower MCS. -/
def fewerRbs (c : UlCandidate) (minRb mcs : Nat) : (rbSize : Nat) → Nat
  | 0 => 0
  | rbSize + 1 =>
    if c.ph < c.txPower (rbSize + 1) mcs ∧ minRb < rbSize + 1 then fewerRbs c minRb mcs rbSize
    else rbSize + 1

def lowerMcs (c : UlCandidate) (rbSize : Nat) : (mcs : Nat) → Nat
  | 0 => 0
  | mcs + 1 => if c.ph < c.txPower rbSize (mcs + 1) then lowerMcs c rbSize mcs else mcs + 1

def ulCheckPhr (c : UlCandidate) (minRb rbSize : Nat) : Nat × Nat :=
  if (c.pcmax ≠ 0 ∨ c.ph ≠ 0) ∧ c.ph < c.txPower rbSize c.mcs then
    let rbSize := fewerRbs c minRb c.mcs rbSize
    (rbSize, lowerMcs c rbSize c.mcs)
  else (rbSize, c.mcs)

def attemptUlRetx (s : UlSlot) (c : UlCandidate) : Option (Grant × UlSlot) :=
  if (ulBlock s c).len < c.retxRbSize then none
  else commitUlAlloc s c (ulBlock s c).start c.retxRbSize c.mcs

def attemptUlInactive (minRb : Nat) (s : UlSlot) (c : UlCandidate) : Option (Grant × UlSlot) :=
  if (ulBlock s c).len < minRb then none else commitUlAlloc s c (ulBlock s c).start minRb c.mcs

def attemptUlNewData (minRb : Nat) (s : UlSlot) (c : UlCandidate) : Except Fault (Option (Grant × UlSlot)) :=
  if (ulBlock s c).len < minRb then .ok none
  else do
    let (rbSize, mcs) := ulCheckPhr c minRb (ulBlock s c).len
    let rbSize ← nrFindNbRb (c.tbs mcs) c.transformPrecoding c.pendingBytes minRb rbSize
    return commitUlAlloc s c (ulBlock s c).start rbSize mcs

def ulPhases {σ : Type} (retx inactive newData : Attempt σ UlCandidate) : PfPhases σ UlCandidate where
  due₁ c := c.isRetx
  attempt₁ := retx
  due₂ c := !c.isRetx && c.schedInactive
  attempt₂ := inactive
  due₃ c := !c.isRetx && !c.schedInactive
  attempt₃ := newData

def nrUlProportionalFair (pfOrder : List UlCandidate → List UlCandidate) (minRb maxNumUe : Nat) (s : UlSlot)
    (cands : List UlCandidate) : Except Fault (List UlCandidate × UlSlot) :=
  proportionalFair UlCandidate.granted UlCandidate.skipped pfOrder
    (ulPhases (fun s c => .ok (attemptUlRetx s c)) (fun s c => .ok (attemptUlInactive minRb s c))
      (attemptUlNewData minRb)) maxNumUe s cands

end ProportionalFair

section Dispatch

/-- A round of `nr_ulsch_preprocessor`: the slot of the PUSCHs, the candidates that are collected for it,
and the state with the maps of that slot. -/
structure UlRound (σ : Type) where
  schedIndex : Nat
  cands : List UlCandidate
  enter : σ → σ

/-- The loop of `nr_ulsch_preprocessor` over the slots that can be reached, with the DCIs of step 7.
`max_dci` is as good as 0 when it is negative. -/
def ulschRounds {σ : Type} (policies : Nat → UlPolicies σ) (dciIndex : Nat) (lastDl : Bool) :
    (maxDci : Nat) → BeamInfo → σ → (numDlDci : Nat → Nat) → List (UlRound σ) → Except Fault (Nat → Nat)
  | _, _, _, n, [] => .ok n
  | maxDci, b, s, n, round :: rounds =>
    if maxDci = 0 then .ok n
    else if round.cands.isEmpty && !lastDl then .ok n
    else do
      let r ← nrUlSchedule (policies maxDci) dciIndex round.schedIndex b (round.enter s) round.cands
      let scheduled := r.cands.filter UlCandidate.scheduled
      let n ← placeDcis (scheduled.map fun c => c.pdcch.coresetId) n
      if scheduled.isEmpty && !lastDl then return n
      else ulschRounds policies dciIndex lastDl (maxDci - scheduled.length) r.beam r.slot n rounds

def nrUlschPreprocessor {σ : Type} (policies : Nat → UlPolicies σ) (bw dciIndex : Nat) (lastDl : Bool)
    (b : BeamInfo) (s : σ) (rounds : List (UlRound σ)) : Except Fault (Nat → Nat) :=
  ulschRounds policies dciIndex lastDl (maxSchedUes bw) b s (fun _ => 0) rounds

end Dispatch

end OaiNr.Mac
