import Mathlib.Data.Nat.ModEq
import OaiNr.Mac.Lemmas.FullSlot

/-!
# The places of the PDCCH candidates
-/

namespace OaiNr.Mac.Pdcch

variable {p : Pdcch} {map map₀ : VrbMap}

/-- The interleaver writes rows and reads columns: the row and the column of a bundle tell which one it is. -/
theorem rows_injective {rows columns k k' : Nat} (hk : k < rows * columns) (hk' : k' < rows * columns)
    (h : k % rows * columns + k / rows = k' % rows * columns + k' / rows) : k = k' := by
  have hc : k / rows < columns := Nat.div_lt_of_lt_mul hk
  have hc' : k' / rows < columns := Nat.div_lt_of_lt_mul hk'
  have hcolumn : k / rows = k' / rows := by
    simpa [Nat.mul_add_mod', Nat.mod_eq_of_lt, hc, hc'] using congrArg (· % columns) h
  rw [hcolumn] at h
  have hrow := Nat.eq_of_mul_eq_mul_right (Nat.zero_lt_of_lt hc) (Nat.add_right_cancel h)
  rw [← Nat.div_add_mod k rows, hcolumn, hrow, Nat.div_add_mod]

theorem interleaving_injOn (h : p.interleaverSize = 0 ∨ p.regBundleSize * p.interleaverSize ∣ p.numRegs) :
    Set.InjOn p.interleaving (Set.Iio (p.numRegs / p.regBundleSize)) := by
  intro k hk k' hk' heq
  rcases Nat.eq_zero_or_pos p.interleaverSize with h0 | hR
  · simpa [interleaving, h0] using heq
  obtain ⟨columns, hc⟩ := h.resolve_left (by omega)
  have hL := p.bundle_pos.1
  have hcolumns : p.numRegs / (p.regBundleSize * p.interleaverSize) = columns := by
    rw [hc, Nat.mul_div_cancel_left _ (Nat.mul_pos hL hR)]
  have hbundles : p.numRegs / p.regBundleSize = p.interleaverSize * columns := by
    rw [hc, Nat.mul_assoc, Nat.mul_div_cancel_left _ hL]
  rw [Set.mem_Iio, hbundles] at hk hk'
  simp only [interleaving, if_neg hR.ne', hcolumns, hbundles] at heq
  have hlt : ∀ k < p.interleaverSize * columns, k % p.interleaverSize * columns + k / p.interleaverSize <
      p.interleaverSize * columns := fun k hk =>
    calc k % p.interleaverSize * columns + k / p.interleaverSize
        < k % p.interleaverSize * columns + columns := Nat.add_lt_add_left (Nat.div_lt_of_lt_mul hk) _
      _ = (k % p.interleaverSize + 1) * columns := (Nat.succ_mul _ _).symm
      _ ≤ p.interleaverSize * columns := Nat.mul_le_mul_right _ (Nat.mod_lt k hR)
  have hmod : _ ≡ _ [MOD p.interleaverSize * columns] := Nat.ModEq.add_right_cancel' p.shiftIndex heq
  exact rows_injective hk hk' (hmod.eq_of_lt_of_lt (hlt k hk) (hlt k' hk'))

theorem cceBundles_eq {j j' k : Nat} (hk : k ∈ p.cceBundles j) (hk' : k ∈ p.cceBundles j') : j = j' := by
  obtain ⟨size, hsize⟩ := p.bundle_size
  rw [nrNbRegPerCce] at hsize
  have hL := p.bundle_pos.1
  simp only [cceBundles, hsize, Nat.mul_assoc, Nat.mul_div_cancel_left _ hL, List.mem_range'_1] at hk hk'
  have hdiv : ∀ j, size * j ≤ k ∧ k < size * j + size → k / size = j := fun j h =>
    Nat.div_eq_of_lt_le (by rw [Nat.mul_comm]; exact h.1) (by rw [Nat.succ_mul, Nat.mul_comm]; exact h.2)
  exact (hdiv j hk).symm.trans (hdiv j' hk')

def cceRbs (p : Pdcch) (j : Nat) : List Nat := (p.cceBundles j).flatMap p.bundleRbs

theorem cceRbs_disjoint (h : p.interleaverSize = 0 ∨ p.regBundleSize * p.interleaverSize ∣ p.numRegs) {j j' : Nat}
    (hj : j < p.numCces) (hj' : j' < p.numCces) (hne : j ≠ j') : (p.cceRbs j).Disjoint (p.cceRbs j') := by
  intro rb hrb hrb'
  simp only [cceRbs, bundleRbs, List.mem_flatMap, List.mem_map, List.mem_range] at hrb hrb'
  obtain ⟨k, hk, i, hi, rfl⟩ := hrb
  obtain ⟨k', hk', i', hi', heq⟩ := hrb'
  generalize p.regBundleSize / p.durationSymbols = size at hi hi' heq
  have hbundle : p.interleaving k = p.interleaving k' := by
    have hdiv := congrArg (· / size) (show p.interleaving k' * size + i' = p.interleaving k * size + i by omega)
    have hpos : 0 < size := by omega
    simpa [Nat.mul_add_div hpos, Nat.mul_comm _ size, Nat.div_eq_of_lt, hi, hi', eq_comm] using hdiv
  have hkk := interleaving_injOn h (cceBundles_lt hj hk) (cceBundles_lt hj' hk') hbundle
  exact hne (cceBundles_eq hk (hkk ▸ hk'))

def footprint (p : Pdcch) (firstCce aggregation : Nat) : Set (Nat × Nat) :=
  resources p.mask (· ∈ p.dciRbs firstCce aggregation)

inductive Allocated (map₀ : VrbMap) : VrbMap → List (Set (Nat × Nat)) → Prop where
  | start : Allocated map₀ map₀ []
  | next {map : VrbMap} {taken : List (Set (Nat × Nat))} {p : Pdcch} {aggregation nrOfCandidates cce : Nat}
      (h : Allocated map₀ map taken) (hfind : p.findPdcchCandidate map aggregation nrOfCandidates = some cce) :
      Allocated map₀ (p.fillPdcchVrbMap map cce aggregation) (p.footprint cce aggregation :: taken)

theorem findPdcchCandidate_free {aggregation nrOfCandidates cce : Nat}
    (h : p.findPdcchCandidate map aggregation nrOfCandidates = some cce) :
    Disjoint (p.footprint cce aggregation) map.occupied ∧
      (p.fillPdcchVrbMap map cce aggregation).occupied = map.occupied ∪ p.footprint cce aggregation := by
  have hfree := List.find?_some h
  refine ⟨VrbMap.disjoint_occupied fun rb hrb => List.all_eq_true.mp hfree rb hrb, ?_⟩
  simp [fillPdcchVrbMap, VrbMap.occupied_mark, footprint]

theorem Allocated.disjoint {taken : List (Set (Nat × Nat))} (h : Allocated map₀ map taken) :
    taken.Pairwise Disjoint ∧ (∀ s ∈ taken, Disjoint s map₀.occupied) ∧
      ∀ x, x ∈ map.occupied ↔ x ∈ map₀.occupied ∨ ∃ s ∈ taken, x ∈ s := by
  induction h with
  | start => simp
  | next h hfind ih =>
    obtain ⟨hpair, hbefore, hocc⟩ := ih
    obtain ⟨hfree, hfill⟩ := findPdcchCandidate_free hfind
    rw [Set.disjoint_left] at hfree
    refine ⟨List.pairwise_cons.mpr ⟨fun s hs => ?_, hpair⟩, List.forall_mem_cons.mpr ⟨?_, hbefore⟩, fun x => ?_⟩
    · exact Set.disjoint_left.mpr fun x hx hxs => hfree hx ((hocc x).mpr (.inr ⟨s, hs, hxs⟩))
    · exact Set.disjoint_left.mpr fun x hx hx₀ => hfree hx ((hocc x).mpr (.inl hx₀))
    · rw [hfill, Set.mem_union, hocc]
      simp [or_left_comm, or_comm]

/-- The interleaver is injective and CCEs share no resource blocks. Allocations on one beam are disjoint from each other
and from what was taken before, and mark nothing else. -/
theorem pdcch_allocations_disjoint (h : p.interleaverSize = 0 ∨ p.regBundleSize * p.interleaverSize ∣ p.numRegs) :
    Set.InjOn p.interleaving (Set.Iio (p.numRegs / p.regBundleSize)) ∧
    (∀ j < p.numCces, ∀ j' < p.numCces, j ≠ j' → (p.cceRbs j).Disjoint (p.cceRbs j')) ∧
    ∀ map₀ map taken, Allocated map₀ map taken → taken.Pairwise Disjoint ∧
      (∀ s ∈ taken, Disjoint s map₀.occupied) ∧ ∀ x, x ∈ map.occupied ↔ x ∈ map₀.occupied ∨ ∃ s ∈ taken, x ∈ s :=
  ⟨interleaving_injOn h, fun _ hj _ hj' => cceRbs_disjoint h hj hj', fun _ _ _ => Allocated.disjoint⟩

/-- The eight bundles of an interleaved CORESET stay apart. -/
theorem interleaved_coreset : Set.InjOn (interleaving { wideCoreset 0 0 with interleaverSize := 2 }) (Set.Iio 8) :=
  (pdcch_allocations_disjoint (.inr (by decide))).1

end OaiNr.Mac.Pdcch
