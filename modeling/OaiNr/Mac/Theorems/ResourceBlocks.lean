import Mathlib.Data.Int.DivMod
import OaiNr.Lib.Fallible
import OaiNr.Mac.ResourceBlocks

/-!
# Resource indication values and blocks of a bitmap
-/

namespace OaiNr.Mac

section IndicationValue

variable {s l n riv : Int}

theorem tdiv_tmod_eq {q r : Int} (hq : 0 ≤ q) (hr : 0 ≤ r) (hlt : r < n) :
    (n * q + r).tdiv n = q ∧ (n * q + r).tmod n = r := by
  have hnonneg : 0 ≤ n * q + r := Int.add_nonneg (Int.mul_nonneg (by omega) hq) hr
  rw [Int.tdiv_eq_ediv_of_nonneg hnonneg, Int.tmod_eq_emod_of_nonneg hnonneg]
  exact (Int.ediv_emod_unique (by omega)).mpr ⟨Int.add_comm .., hr, hlt⟩

theorem nrriv2_of_encoded (hs : 0 ≤ s) (h : prbAllocToLocationAndBandwidth0 l s n = .ok riv) :
    nrriv2bw riv n = l ∧ nrriv2prbOffset riv n = s := by
  unfold prbAllocToLocationAndBandwidth0 at h
  split_ifs at h with hok hshort
  · cases h
    obtain ⟨hdiv, hmod⟩ := @tdiv_tmod_eq n (l - 1) s (by omega) hs (by omega)
    have hfirst : l - 1 ≤ n / 2 + 1 ∧ l - 1 + s < n := by omega
    simp only [nrriv2bw, nrriv2prbOffset, hdiv, hmod, if_pos hfirst, and_true]
    omega
  · cases h
    -- the sum of the quotient and the remainder is at least the size of the bandwidth part
    obtain ⟨hdiv, hmod⟩ := @tdiv_tmod_eq n (n + 1 - l) (n - 1 - s) (by omega) (by omega) (by omega)
    have hsecond : ¬(n + 1 - l ≤ n / 2 + 1 ∧ n + 1 - l + (n - 1 - s) < n) := by omega
    simp only [nrriv2bw, nrriv2prbOffset, hdiv, hmod, if_neg hsecond]
    omega

/-- The length and the start can be read back from the indication value, and no other allocation has the same one. -/
theorem locationAndBandwidth_roundTrip (hs : 0 ≤ s) (hl : 1 ≤ l) (hn : s + l ≤ n) :
    ∃ riv, prbAllocToLocationAndBandwidth0 l s n = .ok riv ∧ nrriv2bw riv n = l ∧ nrriv2prbOffset riv n = s ∧
      ∀ s' l', 0 ≤ s' → prbAllocToLocationAndBandwidth0 l' s' n = .ok riv → s' = s ∧ l' = l := by
  have hok : ∃ riv, prbAllocToLocationAndBandwidth0 l s n = .ok riv := by
    unfold prbAllocToLocationAndBandwidth0
    rw [if_pos (by omega)]
    split_ifs <;> exact ⟨_, rfl⟩
  obtain ⟨riv, hriv⟩ := hok
  obtain ⟨hbw, hoffset⟩ := nrriv2_of_encoded hs hriv
  refine ⟨riv, hriv, hbw, hoffset, fun s' l' hs' hriv' => ?_⟩
  obtain ⟨hbw', hoffset'⟩ := nrriv2_of_encoded hs' hriv'
  exact ⟨hoffset'.symm.trans hoffset, hbw'.symm.trans hbw⟩

/-- 230 of 275 resource blocks: the second form of the indication value. -/
theorem locationAndBandwidth_roundTrip_long : nrriv2bw 12924 275 = 230 ∧ nrriv2prbOffset 12924 275 = 0 := by
  obtain ⟨riv, hriv, hbw, hoffset, -⟩ := @locationAndBandwidth_roundTrip 0 230 275 (by decide) (by decide) (by decide)
  cases hriv
  exact ⟨hbw, hoffset⟩

end IndicationValue

section Blocks

open BitVec

variable {arr bitmap : List (BitVec 32)} {size : Nat}

def isSet (arr : List (BitVec 32)) (i : Nat) : Bool := (arr.getD (i / 32) 0).getLsbD (i % 32)

/-- The first bit that is set of those from `lo` on below `hi`. -/
def IsFirst (arr : List (BitVec 32)) (lo hi : Nat) : Option Nat → Prop
  | none => ∀ j, lo ≤ j → j < hi → isSet arr j = false
  | some i => lo ≤ i ∧ i < hi ∧ isSet arr i = true ∧ ∀ j, lo ≤ j → j < i → isSet arr j = false

/-- A maximal run of set bits among the first `size` ones, from `start` to `last`. -/
structure Run (arr : List (BitVec 32)) (size start last : Nat) : Prop where
  le : start ≤ last
  lt : last < size
  set : ∀ i, start ≤ i → i ≤ last → isSet arr i = true
  left : start = 0 ∨ isSet arr (start - 1) = false
  right : last + 1 = size ∨ isSet arr (last + 1) = false

theorem getLsbD_bitMask {f n k : Nat} (hf : f < 32) (hn : 0 < n) :
    (bitMask f n).getLsbD k = decide (f ≤ k ∧ k < 32 ∧ k < f + n) := by
  have hones : 0xFFFFFFFF#32 = BitVec.allOnes 32 := rfl
  unfold bitMask
  rw [hones, getLsbD_and, getLsbD_shiftLeft, Bool.eq_iff_iff]
  split_ifs <;> simp only [getLsbD_ushiftRight, getLsbD_allOnes, Bool.and_eq_true, Bool.not_eq_true',
    decide_eq_true_eq, decide_eq_false_iff_not] <;> omega

theorem isSet_word {word : BitVec 32} {i j k : Nat} (h : arr[i]? = some word) (hj : j = i * 32 + k) (hk : k < 32) :
    isSet arr j = word.getLsbD k := by
  have hdiv : j / 32 = i := by omega
  have hmod : j % 32 = k := by omega
  rw [isSet, hdiv, hmod, List.getD_eq_getElem?_getD, h, Option.getD_some]

theorem firstBitLoop_spec {sz i f n : Nat} (hsz : sz ≤ arr.length) (hf : f < 32) (hle : i * 32 + f + n ≤ sz * 32) :
    ∃ r, firstBitLoop arr sz i f n = .ok r ∧ IsFirst arr (i * 32 + f) (i * 32 + f + n) r := by
  fun_induction firstBitLoop arr sz i f n with
  | case1 i f n hi hnone => simp at hnone; omega
  | case2 i f n hi word hword a hne =>
    have hand : ∀ j, a.getLsbD j = (word.getLsbD j && decide (f ≤ j ∧ j < 32 ∧ j < f + n)) := fun j => by
      rw [getLsbD_and, getLsbD_bitMask hf hi.2]
    have hset := getLsbD_true_ctz_of_ne_zero hne
    rw [hand, Bool.and_eq_true, decide_eq_true_eq] at hset
    obtain ⟨hbit, hge, hlt, hlt'⟩ := hset
    refine ⟨_, rfl, by omega, by omega, by rwa [isSet_word hword rfl hlt], fun j hj hj' => ?_⟩
    have hclear := getLsbD_false_of_lt_ctz (i := j - i * 32) (x := a) (by omega)
    rw [hand, decide_eq_true (by omega), Bool.and_true] at hclear
    rw [isSet_word hword (k := j - i * 32) (by omega) (by omega), hclear]
  | case3 i f n hi word hword a hz ih =>
    have hclear : ∀ j, i * 32 + f ≤ j → j < (i + 1) * 32 → j < i * 32 + f + n → isSet arr j = false := by
      intro j hj hj' hj''
      have hand : a.getLsbD (j - i * 32) = false := by rw [not_not.mp hz]; exact getLsbD_zero
      rwa [getLsbD_and, getLsbD_bitMask hf hi.2, decide_eq_true (by omega), Bool.and_true,
        ← isSet_word hword (j := j) (by omega) (by omega)] at hand
    obtain ⟨r, hr, hfirst⟩ := ih (by omega) (by omega)
    refine ⟨r, hr, ?_⟩
    cases r with
    | none => exact fun j hj hj' => if h : j < (i + 1) * 32 then hclear j hj h hj' else hfirst j (by omega) (by omega)
    | some k =>
      obtain ⟨hge, hlt, hset, hbelow⟩ := hfirst
      exact ⟨by omega, by omega, hset, fun j hj hj' =>
        if h : j < (i + 1) * 32 then hclear j hj h (by omega) else hbelow j (by omega) hj'⟩
  | case4 i f n hi => exact ⟨none, rfl, fun j _ _ => by omega⟩

theorem getFirstBitIndexMask_spec {sz f n : Nat} (hsz : sz ≤ arr.length) (hle : f + n ≤ sz * 32) :
    ∃ r, getFirstBitIndexMask arr sz f n = .ok r ∧ IsFirst arr f (f + n) r := by
  have h := @firstBitLoop_spec arr sz (f / 32) (f % 32) n hsz (by omega) (by omega)
  rwa [show f / 32 * 32 + f % 32 = f by omega] at h

namespace Run

variable {start last start' last' : Nat}

variable (h : Run arr size start last) (h' : Run arr size start' last')
include h

theorem isSet_start : isSet arr start = true := h.set start le_rfl h.le

include h'

theorem start_le (hle : start' ≤ last) : start' ≤ start := by
  by_contra hlt
  have hset := h.set (start' - 1) (by omega) (by omega)
  obtain rfl | hclear := h'.left
  · omega
  · simp [hclear] at hset

theorem le_last (hle : start ≤ last') : last ≤ last' := by
  by_contra hlt
  have hset := h.set (last' + 1) (by omega) (by omega)
  obtain heq | hclear := h'.right
  · have := h.lt
    omega
  · simp [hclear] at hset

/-- Two maximal runs that overlap are the same. -/
theorem eq_of_le (hle : start' ≤ last) (hle' : start ≤ last') : start = start' ∧ last = last' :=
  ⟨(h'.start_le h hle').antisymm (h.start_le h' hle), (h.le_last h' hle').antisymm (h'.le_last h hle)⟩

end Run

theorem getLsbD_lowMask : ∀ m < 32, ∀ k < m, (1#32 <<< m - 1).getLsbD k = true := by decide

theorem invertedWords_spec {wordIdx n : Nat} (hn : wordIdx + n ≤ bitmap.length)
    (hwords : wordIdx + n = (size + 31) / 32) :
    ∃ inv, invertedWords bitmap size wordIdx n = .ok inv ∧ n ≤ inv.length ∧
      ∀ j, wordIdx * 32 + j < size → isSet inv j = !isSet bitmap (wordIdx * 32 + j) := by
  refine ⟨_, if_pos hn, ?_, fun j hj => ?_⟩
  · split_ifs <;> simp <;> omega
  have hword := List.getElem?_eq_getElem (l := bitmap) (i := wordIdx + j / 32) (by omega)
  rw [isSet_word hword (k := j % 32) (by omega) (by omega)]
  generalize bitmap[wordIdx + j / 32] = word at hword
  have hlt : j / 32 < n := by omega
  have hinv : (((bitmap.drop wordIdx).take n).map (~~~ ·))[j / 32]? = some (~~~word) := by simp [hlt, hword]
  have hmod : j % 32 < 32 := Nat.mod_lt _ (by decide)
  rw [isSet, List.getD_eq_getElem?_getD]
  split_ifs with hlast
  · rw [List.getElem?_modify, hinv]
    split_ifs with hend
    · have hlow := getLsbD_lowMask (size % 32) (by omega) (j % 32) (by omega)
      rw [Option.map_eq_map, Option.map_some, Option.getD_some, getLsbD_and, hlow]
      simp [hmod]
    · simp [hmod]
  · rw [hinv]
    simp [hmod]

theorem findNextRbBlock_spec {pos : Nat} (hlen : (size + 31) / 32 ≤ bitmap.length) (hle : pos ≤ size)
    (hpos : pos = 0 ∨ pos = size ∨ isSet bitmap pos = false) :
    (findNextRbBlock bitmap size pos = .ok none ∧ ∀ i, pos ≤ i → i < size → isSet bitmap i = false) ∨
      ∃ start last, findNextRbBlock bitmap size pos = .ok (some (start, last, last + 1)) ∧
        Run bitmap size start last ∧ pos ≤ start ∧ ∀ i, pos ≤ i → i < start → isSet bitmap i = false := by
  obtain ⟨r, hr, hfirst⟩ := getFirstBitIndexMask_spec (f := pos) (n := size - pos) hlen (by omega)
  rw [Nat.add_sub_cancel' hle] at hfirst
  rw [findNextRbBlock, hr, ok_bind]
  cases r with
  | none => exact .inl ⟨rfl, hfirst⟩
  | some start =>
    obtain ⟨hge, hlt, hset, hbelow⟩ := hfirst
    obtain ⟨inv, hinv, hn, hisSet⟩ := @invertedWords_spec bitmap size ((start + 1) / 32)
      ((size + 31) / 32 - (start + 1) / 32) (by omega) (by omega)
    obtain ⟨r, hr, hfirst⟩ := getFirstBitIndexMask_spec (f := start + 1 - (start + 1) / 32 * 32)
      (n := size - (start + 1)) hn (by omega)
    have hrest : ∀ i, start < i → i < size → isSet inv (i - (start + 1) / 32 * 32) = !isSet bitmap i := by
      intro i hi hi'
      rw [hisSet _ (by omega), Nat.add_sub_cancel' (by omega)]
    -- a bit that is clear in the inverted words is set
    have hone : ∀ i, start ≤ i → i < size → (start < i → isSet inv (i - (start + 1) / 32 * 32) = false) →
        isSet bitmap i = true := by
      intro i hi hi' hclear
      obtain rfl | hlt := hi.eq_or_lt
      · exact hset
      · have := hrest i hlt hi'
        simp_all
    have hleft : start = 0 ∨ isSet bitmap (start - 1) = false := by
      obtain rfl | hgt := hge.eq_or_lt
      · obtain rfl | rfl | hclear := hpos
        · exact .inl rfl
        · omega
        · simp [hset] at hclear
      · exact .inr (hbelow _ (by omega) (by omega))
    dsimp only
    rw [hinv, ok_bind, hr, ok_bind]
    right
    cases r with
    | none =>
      refine ⟨start, size - 1, ?_, ⟨by omega, by omega, fun i hi hi' => ?_, hleft, by omega⟩, hge, hbelow⟩
      · simp
        omega
      · exact hone i hi (by omega) fun hi => hfirst _ (by omega) (by omega)
    | some endOff =>
      obtain ⟨hge', hlt', hset', hbelow'⟩ := hfirst
      refine ⟨start, (start + 1) / 32 * 32 + endOff - 1, ?_, ⟨by omega, by omega, fun i hi hi' => ?_, hleft, ?_⟩, hge,
        hbelow⟩
      · simp
        omega
      · exact hone i hi (by omega) fun hi => hbelow' _ (by omega) (by omega)
      · have hnext := hrest ((start + 1) / 32 * 32 + endOff) (by omega) (by omega)
        rw [Nat.add_sub_cancel_left, hset'] at hnext
        rw [Nat.sub_add_cancel (by omega)]
        exact .inr (by simpa using hnext.symm)

theorem rbBlocks_spec (hlen : (size + 31) / 32 ≤ bitmap.length) {fuel pos : Nat} (hle : pos ≤ size)
    (hfuel : size - pos < fuel) (hpos : pos = 0 ∨ pos = size ∨ isSet bitmap pos = false) :
    ∃ l, rbBlocks bitmap size fuel pos = .ok l ∧ (l.Pairwise fun a b => a.2 + 1 < b.1) ∧
      ∀ start last, (start, last) ∈ l ↔ Run bitmap size start last ∧ pos ≤ start := by
  induction fuel generalizing pos with
  | zero => omega
  | succ fuel ih =>
    rw [rbBlocks]
    obtain ⟨h, hclear⟩ | ⟨start, last, h, hrun, hge, hclear⟩ := findNextRbBlock_spec hlen hle hpos
    · rw [h, ok_bind]
      refine ⟨[], rfl, .nil, fun start last => ?_⟩
      refine iff_of_false List.not_mem_nil fun ⟨hrun, hge⟩ => ?_
      have hset := hrun.isSet_start
      simp [hclear start hge (hrun.le.trans_lt hrun.lt)] at hset
    · have hlt := hrun.lt
      have hle := hrun.le
      obtain ⟨l, hl, hsorted, hmem⟩ := @ih (last + 1) hrun.lt (by omega) (.inr hrun.right)
      rw [h, ok_bind]
      dsimp only
      rw [hl, ok_bind]
      refine ⟨_, rfl, List.pairwise_cons.mpr ⟨fun (start', last') hmem' => ?_, hsorted⟩, fun start' last' => ?_⟩
      · obtain ⟨hrun', hge'⟩ := (hmem start' last').mp hmem'
        refine hge'.lt_of_ne fun heq => ?_
        have hset := hrun'.isSet_start
        obtain hend | hclear := hrun.right
        · have := hrun'.le.trans_lt hrun'.lt
          omega
        · simp [heq, hset] at hclear
      · rw [List.mem_cons, hmem, Prod.mk.injEq]
        constructor
        · rintro (⟨rfl, rfl⟩ | ⟨hrun', hge'⟩)
          · exact ⟨hrun, hge⟩
          · exact ⟨hrun', by omega⟩
        · rintro ⟨hrun', hge'⟩
          by_cases hlate : last + 1 ≤ start'
          · exact .inr ⟨hrun', hlate⟩
          · have hset := hrun'.isSet_start
            have hstart : start ≤ start' := by
              by_contra hlt
              simp [hclear start' hge' (by omega)] at hset
            exact .inl (hrun'.eq_of_le hrun (hstart.trans hrun'.le) (by omega))

/-- From position 0 the loop ends, without a read behind the words of the bitmap, and gives the maximal runs of set
bits in increasing order. -/
theorem rbBlocks_maximalRuns (hlen : (size + 31) / 32 ≤ bitmap.length) {fuel : Nat} (hfuel : size < fuel) :
    ∃ l, rbBlocks bitmap size fuel 0 = .ok l ∧ (l.Pairwise fun a b => a.2 + 1 < b.1) ∧
      ∀ start last, (start, last) ∈ l ↔ Run bitmap size start last := by
  obtain ⟨l, hl, hsorted, hmem⟩ := rbBlocks_spec hlen (Nat.zero_le size) hfuel (.inl rfl)
  exact ⟨l, hl, hsorted, fun start last => (hmem start last).trans (and_iff_left (Nat.zero_le start))⟩

/-- A block across the border of two words is one block. -/
theorem rbBlocks_maximalRuns_acrossWords : Run [0xF0000001, 0x8000000F] 64 28 35 := by
  obtain ⟨l, hl, -, hmem⟩ := @rbBlocks_maximalRuns [0xF0000001, 0x8000000F] 64 (by decide) 65 (by decide)
  have hl' : rbBlocks [0xF0000001, 0x8000000F] 64 65 0 = .ok [(0, 0), (28, 35), (63, 63)] := by decide +kernel
  cases hl.symm.trans hl'
  exact (hmem 28 35).mp (by decide)

end Blocks

end OaiNr.Mac
