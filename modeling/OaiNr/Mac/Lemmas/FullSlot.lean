import OaiNr.Mac.Lemmas.BeamSelect
import OaiNr.Mac.Lemmas.VrbMap

/-!
# Slots in which every beam is full

Retransmissions of a few resource blocks each, with a CCE for each: on every beam there is room for as many of them as
a policy may schedule.
-/

namespace OaiNr.Mac

open List

variable {numBeams n m maxNumUe : Nat} {κ : Type}

def wideCoreset (coresetId cce : Nat) : Pdcch where
  coresetId := coresetId
  bwpStart := 0
  bwpSize := 48
  nRb := 48
  startSymbolIndex := 0
  durationSymbols := 1
  regBundleSize := 6
  interleaverSize := 0
  shiftIndex := 0
  desiredLevel := 0
  nrofCandidates i := if i = 0 then 1 else 0
  y := cce
  duration_pos := Nat.one_pos
  bundle_size := by decide
  inBwp := Nat.le_refl 48
  enough i h := by
    split at h
    · next hi => subst hi; decide
    · exact absurd h (Nat.lt_irrefl 0)

def cceMap (n : Nat) : VrbMap := fun rb => if rb < 6 * n then 1 else 0

/-- The map after `n` retransmissions, in the symbols behind the CORESET -/
def dataMap (n : Nat) : VrbMap := fun rb => if rb < 5 * n then slToBitmap 1 13 else 0

def sharedMap (n : Nat) : VrbMap := fun rb => cceMap n rb ||| dataMap n rb

theorem wideCoreset_dciRbs (coresetId : Nat) {cce : Nat} (h : cce < 8) (rb : Nat) :
    rb ∈ (wideCoreset coresetId cce).dciRbs cce 1 ↔ 6 * cce ≤ rb ∧ rb < 6 * cce + 6 := by
  have hrbs : ∀ cce < 8, (wideCoreset 0 cce).dciRbs cce 1 = List.range' (6 * cce) 6 := by decide
  rw [show (wideCoreset coresetId cce).dciRbs cce 1 = _ from hrbs cce h, mem_range'_1]

theorem wideCoreset_mask (coresetId cce : Nat) : (wideCoreset coresetId cce).mask = 1 := by
  simp [Pdcch.mask, slToBitmap, wideCoreset]

theorem wideCoreset_getCceIndex (coresetId : Nat) {cce : Nat} (h : cce < 8) :
    (wideCoreset coresetId cce).getCceIndex (cceMap cce) = some (cce, 1) ∧
      (wideCoreset coresetId cce).getCceIndex (sharedMap cce) = some (cce, 1) := by
  have hfound : ∀ cce < 8, (wideCoreset 0 cce).getCceIndex (cceMap cce) = some (cce, 1) ∧
      (wideCoreset 0 cce).getCceIndex (sharedMap cce) = some (cce, 1) := by decide
  exact hfound cce h

theorem cceMap_fill (coresetId : Nat) (h : n < 8) :
    (wideCoreset coresetId n).fillPdcchVrbMap (cceMap n) n 1 = cceMap (n + 1) := by
  funext rb
  simp only [Pdcch.fillPdcchVrbMap, VrbMap.mark, wideCoreset_dciRbs coresetId h, wideCoreset_mask, decide_eq_true_eq]
  unfold cceMap
  split_ifs <;> first | rfl | omega

theorem dataMap_mark (n : Nat) : (dataMap n).mark (slToBitmap 1 13) (fun rb => 0 + 5 * n ≤ rb ∧ rb < 0 + 5 * n + 5) =
      dataMap (n + 1) := by
  funext rb
  simp only [VrbMap.mark, decide_eq_true_eq]
  unfold dataMap
  split_ifs <;> first | rfl | omega

theorem sharedMap_mark (coresetId : Nat) (h : n < 8) :
    ((wideCoreset coresetId n).fillPdcchVrbMap (sharedMap n) n 1).mark (slToBitmap 1 13)
      (fun rb => 0 + 5 * n ≤ rb ∧ rb < 0 + 5 * n + 5) = sharedMap (n + 1) := by
  funext rb
  simp only [Pdcch.fillPdcchVrbMap, VrbMap.mark, wideCoreset_dciRbs coresetId h, wideCoreset_mask, decide_eq_true_eq]
  unfold sharedMap cceMap dataMap
  split_ifs <;> first | rfl | omega

/-- What the beams have in a slot: those before `beam` are full, and this one has `n` grants. -/
def onBeams (map : Nat → VrbMap) (limit beam n : Nat) : Int → VrbMap := fun i =>
  if i < beam then map limit else if i = beam then map n else map 0

theorem onBeams_self (map : Nat → VrbMap) (limit beam n : Nat) : onBeams map limit beam n beam = map n := by
  simp [onBeams]

theorem onBeams_update (map : Nat → VrbMap) (limit beam n n' : Nat) :
    Function.update (onBeams map limit beam n) beam (map n') = onBeams map limit beam n' := by
  funext i
  by_cases hi : i = beam
  · simp [hi, onBeams]
  · simp [hi, onBeams]

theorem onBeams_next (map : Nat → VrbMap) (limit beam : Nat) :
    onBeams map limit beam limit = onBeams map limit (beam + 1) 0 := by
  funext i
  unfold onBeams
  push_cast
  split_ifs <;> first | rfl | omega

theorem onBeams_update_nat (map : Nat → VrbMap) (limit beam n n' : Nat) :
    Function.update (fun i : Nat => onBeams map limit beam n i) beam (map n') =
      fun i : Nat => onBeams map limit beam n' i := by
  funext i
  by_cases hi : i = beam
  · simp [hi, onBeams]
  · simp only [Function.update_of_ne hi, onBeams, Int.natCast_inj, hi, if_false]

section Table

def everyBeam (numBeams : Nat) : BeamInfo where
  noBeamMode := false
  beamsPerPeriod := numBeams
  beamAllocation _ := (List.range numBeams).map some
  length_eq _ := by simp

theorem allocate_range' {beam start : Nat} (hle : start ≤ beam) (hlt : beam < start + n) :
    BeamColumn.allocate beam ((List.range' start n).map some) =
      ((List.range' start n).map some, some (beam - start, false)) := by
  induction n generalizing start with
  | zero => omega
  | succ n ih =>
    rw [List.range'_succ, map_cons, BeamColumn.allocate]
    split
    · next heq => simp [heq]
    · next hne =>
      rw [ih (by omega) (by omega)]
      simp only [Option.map_some, Prod.mk.injEq, Option.some.injEq, and_true, true_and]
      omega

theorem everyBeam_procedure {beam : Nat} (h : beam < numBeams) (index : Nat) :
    (everyBeam numBeams).beamAllocationProcedure index beam = (everyBeam numBeams, some (beam, false)) := by
  have halloc : BeamColumn.allocate beam ((List.range numBeams).map some) =
      ((List.range numBeams).map some, some (beam, false)) := by
    have hrange := allocate_range' (Nat.zero_le beam) (by omega : beam < 0 + numBeams)
    rwa [← range_eq_range'] at hrange
  simp only [BeamInfo.beamAllocationProcedure, everyBeam, Bool.false_eq_true, ↓reduceIte, halloc,
    BeamInfo.setColumn, Prod.mk.injEq, BeamInfo.mk.injEq, and_true, true_and]
  exact Function.update_eq_self index _

end Table

def perBeam {κ : Type} (cand : Nat → Nat → κ) (numBeams limit : Nat) : List κ :=
  (List.range numBeams).flatMap fun i => (List.range limit).map (cand i)

theorem mem_perBeam {cand : Nat → Nat → κ} {limit : Nat} {c : κ} :
    c ∈ perBeam cand numBeams limit ↔ ∃ i < numBeams, ∃ j < limit, cand i j = c := by
  simp [perBeam]

theorem map_perBeam {τ : Type} (f : κ → τ) (cand : Nat → Nat → κ) (numBeams limit : Nat) :
    (perBeam cand numBeams limit).map f = perBeam (fun i j => f (cand i j)) numBeams limit := by
  simp [perBeam, map_flatMap, Function.comp_def]

theorem length_perBeam (cand : Nat → Nat → κ) (numBeams limit : Nat) :
    (perBeam cand numBeams limit).length = numBeams * limit := by
  simp [perBeam, length_flatMap]

section Downlink

def dlRetx (coresetId beam cce : Nat) : DlCandidate where
  rnti := 8 * beam + cce
  isRetx := true
  retxRbSize := 5
  pendingBytes := 0
  overhead := 0
  mcs := 9
  tbs _ _ := 0
  bwpStart := 0
  bwpSize := 48
  pdcch := wideCoreset coresetId cce
  skipped := false
  scheduled := false
  allocSlbitmap := slToBitmap 1 13
  allocBeamDir := beam
  allocBeamIdx := beam
  allocNewBeam := false
  rbStart := 0
  rbSize := 0
  allocCceIndex := 0
  allocAggregationLevel := 0

def dlFull (limit beam n : Nat) : DlSlot Unit := ⟨fun i => onBeams sharedMap limit beam n i, ()⟩

def retxGrant (n : Nat) : Grant := ⟨5 * n, 5, 9, n, 1⟩

theorem attemptRetx_full (coresetId limit beam : Nat) (h : n < 8) :
    attemptRetx (fun _ _ _ => some ()) (dlFull limit beam n) (dlRetx coresetId beam n) =
      some (retxGrant n, dlFull limit beam (n + 1)) := by
  have hblock : ∀ n < 8, ((sharedMap n).getRbAlloc (slToBitmap 1 13) 5 48 0 48).map VrbMap.Block.start =
      some (5 * n) := by decide
  obtain ⟨block, hfound, hstart⟩ := Option.map_eq_some_iff.mp (hblock n h)
  have hmap : (dlFull limit beam n).vrbMap (dlRetx coresetId beam n).allocBeamIdx = sharedMap n :=
    onBeams_self sharedMap limit beam n
  have hcce : (dlRetx coresetId beam n).pdcch.getCceIndex (sharedMap n) = some (n, 1) :=
    (wideCoreset_getCceIndex coresetId h).2
  have hmark : ((dlRetx coresetId beam n).pdcch.fillPdcchVrbMap (sharedMap n) n 1).mark
      (dlRetx coresetId beam n).allocSlbitmap (fun rb => (dlRetx coresetId beam n).bwpStart + 5 * n ≤ rb ∧
        rb < (dlRetx coresetId beam n).bwpStart + 5 * n + 5) = sharedMap (n + 1) :=
    sharedMap_mark coresetId h
  have hnext : Function.update (dlFull limit beam n).vrbMap (dlRetx coresetId beam n).allocBeamIdx
      (sharedMap (n + 1)) = (dlFull limit beam (n + 1)).vrbMap :=
    onBeams_update_nat sharedMap limit beam n (n + 1)
  have hcommit : commitAlloc (fun _ _ _ => some ()) (dlFull limit beam n) (dlRetx coresetId beam n) (5 * n) 5 =
      some (retxGrant n, dlFull limit beam (n + 1)) := by
    simp only [commitAlloc, hmap, hcce, bind, Option.bind, hmark, hnext]
    rfl
  simp only [attemptRetx, hmap]
  exact Option.bind_eq_some_iff.mpr ⟨block, hfound, hstart ▸ hcommit⟩

def dlPoliciesInOrder : Nat → DlPolicies (DlSlot Unit) :=
  .default (fun _ _ _ => some ()) id (fun _ => .refl _) (fun cands => (cands, cands.length))
    (fun _ => forall₂_same.mpr fun _ _ => ⟨rfl, rfl⟩)

theorem nrDlProportionalFair_full (coresetId beam : Nat) (h : maxNumUe ≤ 8) :
    nrDlProportionalFair (fun _ _ _ => some ()) id maxNumUe (dlFull (max 1 maxNumUe) beam 0)
        ((List.range (max 1 maxNumUe)).map (dlRetx coresetId beam)) =
      .ok ((List.range (max 1 maxNumUe)).map fun n => (dlRetx coresetId beam n).granted (retxGrant n),
        dlFull (max 1 maxNumUe) (beam + 1) 0) := by
  have hnext : dlFull (max 1 maxNumUe) beam (max 1 maxNumUe) = dlFull (max 1 maxNumUe) (beam + 1) 0 := by
    simp only [dlFull, onBeams_next]
  rw [← hnext]
  refine proportionalFair_all (fun _ => rfl) (fun _ => rfl) (fun _ => ⟨rfl, rfl⟩) fun n hn => ?_
  exact congrArg _ (attemptRetx_full coresetId _ beam (by omega))

theorem nrDlBeamSelectDefault_everyBeam (index : Nat) {cands : List DlCandidate}
    (h : ∀ c ∈ cands, c.allocBeamDir < numBeams) : nrDlBeamSelectDefault index (everyBeam numBeams) cands =
      (everyBeam numBeams, cands.map fun c => c.withBeam (some (c.allocBeamDir, false))) := by
  induction cands with
  | nil => rfl
  | cons c cands ih =>
    obtain ⟨hc, hcands⟩ := forall_mem_cons.mp h
    simp only [nrDlBeamSelectDefault, everyBeam_procedure hc, ih hcands, map_cons]

theorem dlBeamSelect_full (coresetId index maxNumUe limit : Nat) (hm : m ≤ max 1 numBeams) :
    dlBeamSelect (dlPoliciesInOrder maxNumUe) numBeams index (everyBeam numBeams)
        ((perBeam (dlRetx coresetId) m limit).map DlCandidate.collected) =
      (everyBeam numBeams, perBeam (dlRetx coresetId) m limit) := by
  unfold dlBeamSelect
  split
  · next hbeams =>
    change nrDlBeamSelectDefault index (everyBeam numBeams)
      ((perBeam (dlRetx coresetId) m limit).map DlCandidate.collected) = _
    rw [nrDlBeamSelectDefault_everyBeam, map_perBeam, map_perBeam]
    · rfl
    · intro c hc
      rw [map_perBeam] at hc
      obtain ⟨i, hi, j, _, rfl⟩ := mem_perBeam.mp hc
      change i < numBeams
      omega
  · next hbeams =>
    -- without a selection, all candidates are on the one beam
    have hcollected : ∀ c ∈ perBeam (dlRetx coresetId) m limit, DlCandidate.collected c = id c := by
      intro c hc
      obtain ⟨i, hi, j, _, rfl⟩ := mem_perBeam.mp hc
      obtain rfl : i = 0 := by omega
      rfl
    rw [map_congr_left hcollected, map_id]

theorem nrDlSchedule_full (coresetId index : Nat) (hm : m ≤ max 1 numBeams)
    (hpos : 0 < m) (h : maxNumUe ≤ 8) : (nrDlSchedule (dlPoliciesInOrder maxNumUe) numBeams index (everyBeam numBeams)
        (dlFull (max 1 maxNumUe) 0 0) (perBeam (dlRetx coresetId) m (max 1 maxNumUe))).map DlScheduled.cands =
      .ok (perBeam (fun i n => (dlRetx coresetId i n).granted (retxGrant n)) m (max 1 maxNumUe)) := by
  have hne : perBeam (dlRetx coresetId) m (max 1 maxNumUe) ≠ [] := by
    rw [Ne, ← length_eq_zero_iff, length_perBeam]
    exact Nat.ne_of_gt (Nat.mul_pos hpos (by omega))
  have hfresh : ¬ (1 < numBeams ∧ (perBeam (dlRetx coresetId) m (max 1 maxNumUe)).all DlCandidate.skipped) := by
    obtain ⟨c, hc⟩ := exists_mem_of_ne_nil _ hne
    rintro ⟨_, hall⟩
    have hskip := all_eq_true.mp hall c hc
    obtain ⟨i, _, j, _, rfl⟩ := mem_perBeam.mp hc
    cases hskip
  have halloc := sortAndAllocPerBeam_all (fun c : DlCandidate => (c.allocBeamIdx : Int))
    (Nat.lt_of_lt_of_le Nat.one_pos (Nat.le_max_left 1 maxNumUe)) (fun _ _ => rfl)
    (fun i => nrDlProportionalFair_full coresetId i h) m
  unfold nrDlSchedule
  simp only [dlBeamSelect_full coresetId index maxNumUe _ hm]
  rw [if_neg (by simpa using hne), if_neg hfresh]
  split
  · next hzero => exact absurd (length_eq_zero_iff.mp hzero) hne
  · exact congrArg (Except.map DlScheduled.cands) (congrArg (· >>= _) halloc)

end Downlink

section Uplink

def ulRetx (coresetId beam cce : Nat) : UlCandidate where
  rnti := 8 * beam + cce
  isRetx := true
  retxRbSize := 5
  schedInactive := false
  pendingBytes := 0
  mcs := 9
  tbs _ _ := 0
  transformPrecoding := false
  ph := 0
  pcmax := 0
  txPower _ _ := 0
  bwpStart := 0
  bwpSize := 48
  pdcch := wideCoreset coresetId cce
  skipped := false
  scheduled := false
  allocSlbitmap := slToBitmap 1 13
  beamIndex := beam
  allocDciBeamIdx := beam
  allocDciBeamNew := false
  allocBeamIdx := beam
  allocSchedBeamNew := false
  rbStart := 0
  rbSize := 0
  allocCceIndex := 0
  allocAggregationLevel := 0

def ulFull (limit beam n : Nat) : UlSlot :=
  ⟨fun i => onBeams cceMap limit beam n i, onBeams dataMap limit beam n⟩

theorem attemptUlRetx_full (coresetId limit beam : Nat) (h : n < 8) :
    attemptUlRetx (ulFull limit beam n) (ulRetx coresetId beam n) = some (retxGrant n, ulFull limit beam (n + 1)) := by
  have hlargest : ∀ n < 8, ((dataMap n).findLargestFreeBlock (slToBitmap 1 13) 0 48).start = 5 * n ∧
      5 ≤ ((dataMap n).findLargestFreeBlock (slToBitmap 1 13) 0 48).len := by decide +kernel
  have hblock : ulBlock (ulFull limit beam n) (ulRetx coresetId beam n) =
      (dataMap n).findLargestFreeBlock (slToBitmap 1 13) 0 48 :=
    congrArg (VrbMap.findLargestFreeBlock · (slToBitmap 1 13) 0 48) (onBeams_self dataMap limit beam n)
  have hmap : (ulFull limit beam n).vrbMap (ulRetx coresetId beam n).allocDciBeamIdx = cceMap n :=
    onBeams_self cceMap limit beam n
  have hmapUl : (ulFull limit beam n).vrbMapUl (ulRetx coresetId beam n).allocBeamIdx = dataMap n :=
    onBeams_self dataMap limit beam n
  have hcce : (ulRetx coresetId beam n).pdcch.getCceIndex (cceMap n) = some (n, 1) :=
    (wideCoreset_getCceIndex coresetId h).1
  have hfill : (ulRetx coresetId beam n).pdcch.fillPdcchVrbMap (cceMap n) n 1 = cceMap (n + 1) :=
    cceMap_fill coresetId h
  have hmark : (dataMap n).mark (ulRetx coresetId beam n).allocSlbitmap
      (fun rb => (ulRetx coresetId beam n).bwpStart + 5 * n ≤ rb ∧
        rb < (ulRetx coresetId beam n).bwpStart + 5 * n + (ulRetx coresetId beam n).retxRbSize) = dataMap (n + 1) :=
    dataMap_mark n
  have hnext : Function.update (ulFull limit beam n).vrbMap (ulRetx coresetId beam n).allocDciBeamIdx
      (cceMap (n + 1)) = (ulFull limit beam (n + 1)).vrbMap :=
    onBeams_update_nat cceMap limit beam n (n + 1)
  have hnextUl : Function.update (ulFull limit beam n).vrbMapUl (ulRetx coresetId beam n).allocBeamIdx
      (dataMap (n + 1)) = (ulFull limit beam (n + 1)).vrbMapUl :=
    onBeams_update dataMap limit beam n (n + 1)
  unfold attemptUlRetx
  rw [if_neg (by rw [hblock]; exact Nat.not_lt.mpr (hlargest n h).2), hblock, (hlargest n h).1]
  simp only [commitUlAlloc, hmap, hmapUl, hcce, bind, Option.bind, hfill, hmark, hnext, hnextUl]
  rfl

def ulPoliciesInOrder : Nat → UlPolicies UlSlot :=
  .default id (fun _ => .refl _) (fun cands => (cands, cands.length))
    (fun _ => forall₂_same.mpr fun _ _ => ⟨rfl, rfl⟩) 5

theorem ulRbAlloc_full (coresetId beam : Nat) (h : maxNumUe ≤ 8) :
    ulRbAlloc (ulPoliciesInOrder maxNumUe) (ulFull (max 1 maxNumUe) beam 0)
        ((List.range (max 1 maxNumUe)).map (ulRetx coresetId beam)) =
      .ok ((List.range (max 1 maxNumUe)).map fun n => (ulRetx coresetId beam n).granted (retxGrant n),
        ulFull (max 1 maxNumUe) (beam + 1) 0) := by
  have hnext : ulFull (max 1 maxNumUe) beam (max 1 maxNumUe) = ulFull (max 1 maxNumUe) (beam + 1) 0 := by
    simp only [ulFull, onBeams_next]
  have hhead : ¬ (((List.range (max 1 maxNumUe)).map (ulRetx coresetId beam)).head?.any
      fun c => c.allocBeamIdx < 0) = true := by
    obtain ⟨k, hk⟩ : ∃ k, max 1 maxNumUe = k + 1 := ⟨max 1 maxNumUe - 1, by omega⟩
    rw [hk, range_succ_eq_map]
    simp [ulRetx]
  unfold ulRbAlloc
  rw [if_neg hhead, ← hnext]
  refine proportionalFair_all (fun _ => rfl) (fun _ => rfl) (fun _ => ⟨rfl, rfl⟩) fun n hn => ?_
  exact congrArg _ (attemptUlRetx_full coresetId _ beam (by omega))

theorem nrUlBeamSelectDefault_everyBeam (dciIndex schedIndex : Nat)
    {cands : List UlCandidate} (h : ∀ c ∈ cands, c.beamIndex < numBeams) :
    nrUlBeamSelectDefault dciIndex schedIndex (everyBeam numBeams) cands =
      (everyBeam numBeams, cands.map fun c => { c with
        allocDciBeamIdx := c.beamIndex, allocDciBeamNew := false, allocBeamIdx := c.beamIndex,
        allocSchedBeamNew := false }) := by
  induction cands with
  | nil => rfl
  | cons c cands ih =>
    obtain ⟨hc, hcands⟩ := forall_mem_cons.mp h
    simp only [nrUlBeamSelectDefault, ulBeamSelect, everyBeam_procedure hc, ih hcands, map_cons]

theorem nrUlSchedule_full (coresetId dciIndex schedIndex : Nat) (hm : m ≤ numBeams) (hpos : 0 < m) (h : maxNumUe ≤ 8) :
    (nrUlSchedule (ulPoliciesInOrder maxNumUe) dciIndex schedIndex (everyBeam numBeams)
        (ulFull (max 1 maxNumUe) 0 0) (perBeam (ulRetx coresetId) m (max 1 maxNumUe))).map UlScheduled.cands =
      .ok (perBeam (fun i n => (ulRetx coresetId i n).granted (retxGrant n)) m (max 1 maxNumUe)) := by
  have hne : perBeam (ulRetx coresetId) m (max 1 maxNumUe) ≠ [] := by
    rw [Ne, ← length_eq_zero_iff, length_perBeam]
    exact Nat.ne_of_gt (Nat.mul_pos hpos (by omega))
  have hfresh : ¬ (perBeam (ulRetx coresetId) m (max 1 maxNumUe)).all UlCandidate.skipped := by
    obtain ⟨c, hc⟩ := exists_mem_of_ne_nil _ hne
    intro hall
    have hskip := all_eq_true.mp hall c hc
    obtain ⟨i, _, j, _, rfl⟩ := mem_perBeam.mp hc
    cases hskip
  have hselect : nrUlBeamSelectDefault dciIndex schedIndex (everyBeam numBeams) ((ulPoliciesInOrder maxNumUe).pfOrder
        ((perBeam (ulRetx coresetId) m (max 1 maxNumUe)).map UlCandidate.collected)) =
      (everyBeam numBeams, perBeam (ulRetx coresetId) m (max 1 maxNumUe)) := by
    change nrUlBeamSelectDefault dciIndex schedIndex (everyBeam numBeams)
      ((perBeam (ulRetx coresetId) m (max 1 maxNumUe)).map UlCandidate.collected) = _
    rw [nrUlBeamSelectDefault_everyBeam, map_perBeam, map_perBeam]
    · rfl
    · intro c hc
      rw [map_perBeam] at hc
      obtain ⟨i, hi, j, _, rfl⟩ := mem_perBeam.mp hc
      exact Nat.lt_of_lt_of_le hi hm
  have halloc := sortAndAllocPerBeam_all (fun c : UlCandidate => c.allocBeamIdx)
    (Nat.lt_of_lt_of_le Nat.one_pos (Nat.le_max_left 1 maxNumUe)) (fun _ _ => rfl)
    (fun i => ulRbAlloc_full coresetId i h) m
  unfold nrUlSchedule
  simp only [hselect]
  rw [if_neg (by simpa using hne), if_neg hfresh]
  split
  · next hzero => exact absurd (length_eq_zero_iff.mp hzero) hne
  · exact congrArg (Except.map UlScheduled.cands) (congrArg (· >>= _) halloc)

end Uplink

end OaiNr.Mac
