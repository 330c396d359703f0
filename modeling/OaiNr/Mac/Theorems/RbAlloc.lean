import OaiNr.Mac.Lemmas.VrbMap

/-!
# The search for a run of free resource blocks
-/

namespace OaiNr.Mac.VrbMap

variable {map : VrbMap} {mask rbSizeMin rbSizeMax bwpStart bwpSize : Nat}

def RunAt (map : VrbMap) (mask bwpStart bwpSize len start : Nat) : Prop :=
  start + len ≤ bwpSize ∧ map.FreeRun mask bwpStart start len

theorem RunAt.mono {len len' start : Nat} (h : map.RunAt mask bwpStart bwpSize len start) (hle : len' ≤ len) :
    map.RunAt mask bwpStart bwpSize len' start :=
  ⟨by have := h.1; omega, h.2.mono hle⟩

/-- The first run of `min` from `low` on, as a block of at most `max`, or nothing if there is none -/
inductive FirstRun (run : Nat → Nat → Prop) (min max low : Nat) : Option Block → Prop where
  | none (hnone : ∀ start, low ≤ start → ¬ run min start) : FirstRun run min max low none
  | some {block : Block} (hmin : min ≤ block.len) (hmax : block.len ≤ max) (hrun : run block.len block.start)
      (hfirst : ∀ start, low ≤ start → run min start → block.start ≤ start) : FirstRun run min max low (some block)

theorem FirstRun.skip {run : Nat → Nat → Prop} {min max low low' : Nat} {r : Option Block}
    (h : FirstRun run min max low' r) (hskip : ∀ start, low ≤ start → run min start → low' ≤ start) :
    FirstRun run min max low r := by
  cases h with
  | none hnone => exact .none fun start hle hrun => hnone start (hskip start hle hrun) hrun
  | some hmin hmax hrun hfirst => exact .some hmin hmax hrun fun start hle h => hfirst start (hskip start hle h) h

theorem blockEnd_stops (fuel rbEnd : Nat) : map.blockEnd mask bwpStart fuel rbEnd = rbEnd + fuel ∨
    ¬ map.isFree mask (bwpStart + map.blockEnd mask bwpStart fuel rbEnd) := by
  induction fuel generalizing rbEnd with
  | zero => exact .inl rfl
  | succ fuel ih =>
    unfold blockEnd
    split
    · rw [Nat.add_comm fuel, ← Nat.add_assoc]
      exact ih (rbEnd + 1)
    · next hnot => exact .inr hnot

theorem getRbAllocFrom_first {fuel rbStart : Nat} (hmin : 1 ≤ rbSizeMin) (hmax : rbSizeMin ≤ rbSizeMax)
    (hfuel : bwpSize < rbStart + fuel) : FirstRun (map.RunAt mask bwpStart bwpSize) rbSizeMin rbSizeMax rbStart
      (map.getRbAllocFrom mask rbSizeMin rbSizeMax bwpStart bwpSize fuel rbStart) := by
  have hroom : ∀ {start}, map.RunAt mask bwpStart bwpSize rbSizeMin start → start + rbSizeMin ≤ bwpSize := And.left
  induction fuel generalizing rbStart with
  | zero => exact .none fun start hle hrun => by have := hroom hrun; omega
  | succ fuel ih =>
    unfold getRbAllocFrom
    split_ifs with hleft hfree
    · obtain ⟨hlo, hhi, hall⟩ := @blockEnd_spec map mask bwpStart
        (min (rbStart + rbSizeMax) bwpSize - (rbStart + 1)) (rbStart + 1)
      have hstop := @blockEnd_stops map mask bwpStart (min (rbStart + rbSizeMax) bwpSize - (rbStart + 1)) (rbStart + 1)
      simp only
      generalize map.blockEnd mask bwpStart _ _ = rbEnd at hlo hhi hall hstop ⊢
      split_ifs with hlong
      · refine .some hlong (by simp only; omega) ⟨by simp only; omega, fun rb hle hlt => ?_⟩ fun start hle _ => hle
        rcases Nat.eq_or_lt_of_le hle with rfl | hgt
        · exact hfree
        · exact hall rb hgt (by simp only at hlt; omega)
      · refine (ih (by omega)).skip fun start hle hrun => ?_
        have := hroom hrun
        by_contra hbefore
        rcases hstop with hlimit | hnot
        · omega
        · exact hnot (hrun.2 rbEnd (by omega) (by omega))
    · refine (ih (by omega)).skip fun start hle hrun => Nat.lt_of_le_of_ne hle fun heq => hfree ?_
      exact heq ▸ hrun.2 start (Nat.le_refl _) (by omega)
    · exact .none fun start hle hrun => by have := hroom hrun; omega

theorem len_longer (best cur : Block) : (best.longer cur).len = max best.len cur.len := by
  unfold Block.longer
  split <;> omega

theorem foldl_blockStep_max (map : VrbMap) (mask bwpStart n : Nat) :
    let s := (List.range n).foldl (map.blockStep mask bwpStart) (⟨0, 0⟩, ⟨0, 0⟩)
    ∀ start len, map.RunAt mask bwpStart n len start →
      len ≤ max s.1.len s.2.len ∧ (start + len = n → len ≤ s.2.len) := by
  induction n with
  | zero =>
    intro s start len hrun
    have := hrun.1
    omega
  | succ n ih =>
    simp only [List.range_succ, List.foldl_append, List.foldl_cons, List.foldl_nil] at ih ⊢
    generalize (List.range n).foldl (map.blockStep mask bwpStart) (⟨0, 0⟩, ⟨0, 0⟩) = s at ih ⊢
    rintro start len ⟨hle, hrun⟩
    rcases Nat.eq_zero_or_pos len with rfl | hpos
    · simp
    -- the run without its last resource block, if that is the new one
    have hshort := ih start (min len (n - start)) ⟨by omega, hrun.mono (Nat.min_le_left _ _)⟩
    unfold blockStep
    split_ifs with hfree hzero
    · simp only
      omega
    · simp only
      omega
    · have hlast : start + len ≠ n + 1 := fun heq =>
        hfree (Nat.add_comm n bwpStart ▸ hrun n (by omega) (by omega))
      simp only [len_longer]
      omega

/-- `get_rb_alloc` succeeds if and only if the largest free block is long enough. It finds the first run that is long
enough, or there is none. -/
theorem getRbAlloc_first_run (hmin : 1 ≤ rbSizeMin) (hmax : rbSizeMin ≤ rbSizeMax) :
    ((map.getRbAlloc mask rbSizeMin rbSizeMax bwpStart bwpSize).isSome ↔
      rbSizeMin ≤ (map.findLargestFreeBlock mask bwpStart bwpSize).len) ∧
    FirstRun (map.RunAt mask bwpStart bwpSize) rbSizeMin rbSizeMax 0
      (map.getRbAlloc mask rbSizeMin rbSizeMax bwpStart bwpSize) := by
  have hfirst := @getRbAllocFrom_first map mask _ _ bwpStart bwpSize (bwpSize + 2) 0 hmin hmax (by omega)
  rw [getRbAlloc]
  generalize map.getRbAllocFrom mask rbSizeMin rbSizeMax bwpStart bwpSize (bwpSize + 2) 0 = r at hfirst
  refine ⟨?_, hfirst⟩
  obtain ⟨hfree, hend⟩ := findLargestFreeBlock_spec map mask bwpStart bwpSize
  cases hfirst with
  | none hnone =>
    simpa using fun hlong => hnone _ (Nat.zero_le _) (RunAt.mono ⟨hend, hfree⟩ hlong)
  | some hmin _ hrun _ =>
    refine iff_of_true rfl ?_
    rw [findLargestFreeBlock, len_longer]
    exact hmin.trans (foldl_blockStep_max map mask bwpStart bwpSize _ _ hrun).1

/-- Every fourth resource block is taken: the first run of two begins behind the first of these. -/
theorem first_run_of_two : FirstRun (RunAt (fun rb => if rb % 4 = 1 then 1 else 0) 1 0 12) 2 8 0 (some ⟨2, 3⟩) := by
  have hblock : getRbAlloc (fun rb => if rb % 4 = 1 then 1 else 0) 1 2 8 0 12 = some ⟨2, 3⟩ := by decide
  exact hblock ▸ (getRbAlloc_first_run (by decide) (by decide)).2

end OaiNr.Mac.VrbMap
