import Mathlib.Tactic.Ring
import OaiNr.Lib.Fallible
import OaiNr.Ds.SeqArr

/-!
# One call on the sequence container

As long as no product of sizes is too long for its type, a call keeps the elements together at the start of the
memory.
-/

namespace OaiNr.Ds

open Nat Memory List

section Float

theorem toFloat_two_pow (k : Nat) : toFloat (2 ^ k) = 2 ^ k := by
  have hdvd : 2 ^ (k - 23) ∣ 2 ^ k := pow_dvd_pow 2 (sub_le k 23)
  unfold toFloat
  simp only [Nat.log2_two_pow, Nat.mod_eq_zero_of_dvd hdvd, Nat.div_mul_cancel hdvd]
  rw [if_neg (by omega)]

theorem le_toFloat {k n : Nat} (h : 2 ^ k ≤ n) : 2 ^ k ≤ toFloat n := by
  have hn : n ≠ 0 := Nat.ne_of_gt (Nat.lt_of_lt_of_le (Nat.two_pow_pos k) h)
  have hdown : 2 ^ k ≤ n / 2 ^ (n.log2 - 23) * 2 ^ (n.log2 - 23) := by
    rcases le_total n.log2 23 with hsmall | hlarge
    · rw [Nat.sub_eq_zero_of_le hsmall, Nat.pow_zero, Nat.div_one, Nat.mul_one]
      exact h
    · calc 2 ^ k ≤ 2 ^ n.log2 := Nat.pow_le_pow_right (by decide) ((Nat.le_log2 hn).mpr h)
        _ = 2 ^ 23 * 2 ^ (n.log2 - 23) := by rw [← Nat.pow_add, Nat.add_sub_cancel' hlarge]
        _ ≤ n / 2 ^ (n.log2 - 23) * 2 ^ (n.log2 - 23) := by
          refine Nat.mul_le_mul_right _ ((Nat.le_div_iff_mul_le (Nat.two_pow_pos _)).mpr ?_)
          rw [← Nat.pow_add, Nat.add_sub_cancel' hlarge]
          exact log2_self_le hn
  have hup := Nat.mul_le_mul_right (2 ^ (n.log2 - 23)) (le_succ (n / 2 ^ (n.log2 - 23)))
  unfold toFloat
  simp only
  split
  · exact le_trans hdown hup
  · exact hdown

end Float

variable {heap : Bool} {eltSize bound : Nat} {arr : SeqArr} {xs : List (List UInt8)} {x : List UInt8}

def Ends {α : Type} (heap : Bool) (r : Except Fault α) (P : α → Prop) : Prop :=
  (heap = false ∧ r = .error .noMemory) ∨ ∃ a, r = .ok a ∧ P a

theorem Ends.ok {α : Type} {a : α} {P : α → Prop} (h : P a) : Ends heap (.ok a) P :=
  .inr ⟨a, rfl, h⟩

theorem Ends.bind {α β : Type} {r : Except Fault α} {f : α → Except Fault β} {P : α → Prop} {Q : β → Prop}
    (h : Ends heap r P) (hf : ∀ a, P a → Ends heap (f a) Q) : Ends heap (r >>= f) Q := by
  rcases h with ⟨hheap, rfl⟩ | ⟨a, rfl, ha⟩
  · exact .inl ⟨hheap, rfl⟩
  · exact hf a ha

structure Inv (eltSize bound : Nat) (arr : SeqArr) (xs : List (List UInt8)) : Prop where
  eltSize_eq : arr.eltSize = eltSize
  size_eq : arr.size = xs.length
  records : ∀ x ∈ xs, x.length = eltSize
  content : arr.data.take (xs.length * eltSize) = xs.flatten
  cap_eq : ∃ k, arr.cap = 2 ^ (k + 3)
  size_lt : xs.length < arr.cap
  le_bound : xs.length ≤ bound
  cap_le : arr.cap ≤ max minSize (2 * bound)
  room : arr.cap * eltSize ≤ arr.data.length

variable (h : Inv eltSize bound arr xs)
include h

theorem Inv.bytes_le : xs.length * eltSize ≤ arr.data.length :=
  le_trans (Nat.mul_le_mul_right _ (Nat.le_of_lt h.size_lt)) h.room

theorem Inv.elements : arr.elements = xs := by
  unfold SeqArr.elements
  rw [h.eltSize_eq, h.size_eq]
  refine ext_getElem (by simp) fun i hi hi' => ?_
  rw [getElem_map, getElem_range, record_of_take h.records h.content]

theorem Inv.holds : arr.Holds xs where
  elements := h.elements
  size_le := by
    rw [h.size_eq]
    exact Nat.le_of_lt h.size_lt
  room := by
    rw [h.eltSize_eq]
    exact h.room

omit h

section Push

theorem seqArrInit_inv (hsize : minSize * eltSize < 2 ^ 64) : Ends heap (seqArrInit heap eltSize) fun arr =>
      Inv eltSize bound arr [] ∧ arr.cap = minSize ∧ arr.data.length = arr.cap * eltSize := by
  unfold seqArrInit calloc
  rw [if_neg (by omega)]
  cases heap with
  | false => exact .inl ⟨rfl, rfl⟩
  | true =>
    refine .ok ⟨⟨rfl, rfl, by simp, by simp, ⟨0, rfl⟩, succ_pos 7, zero_le _, le_max_left _ _, ?_⟩, rfl, ?_⟩
    · simp
    · simp

include h

theorem maybeExpand_inv (helt : 0 < eltSize) (hless : xs.length < bound)
    (hsize : 2 * (xs.length + 1) * eltSize < 2 ^ 64) :
    Ends heap (maybeExpand heap arr) fun arr' => Inv eltSize bound arr' xs ∧ xs.length + 1 < arr'.cap ∧
      (arr' = arr ∨ arr'.data.length = arr'.cap * eltSize) := by
  have hlen : 2 * (xs.length + 1) < 2 ^ 64 := Nat.lt_of_le_of_lt (Nat.le_mul_of_pos_right _ helt) hsize
  have hlt := h.size_lt
  unfold maybeExpand
  rw [h.size_eq, h.eltSize_eq, mod_eq_of_lt (by omega)]
  by_cases hfull : xs.length + 1 = arr.cap
  · have hpos : 2 * arr.cap * eltSize ≠ 0 := Nat.ne_of_gt (mul_pos (by omega) helt)
    have hbytes : xs.length * eltSize ≤ 2 * arr.cap * eltSize := Nat.mul_le_mul_right _ (by omega)
    rw [if_pos hfull, ← hfull, mod_eq_of_lt hsize, mod_eq_of_lt (by omega), hfull]
    unfold realloc
    rw [if_neg hpos]
    cases heap with
    | false => exact .inl ⟨rfl, rfl⟩
    | true =>
      have hlength : (arr.data.take (2 * arr.cap * eltSize) ++
          List.replicate (2 * arr.cap * eltSize - arr.data.length) 0).length = arr.cap * 2 * eltSize := by
        rw [length_append, length_take, length_replicate, mul_comm arr.cap 2]
        omega
      obtain ⟨k, hk⟩ := h.cap_eq
      refine .ok ⟨⟨rfl, rfl, h.records, ?_, ⟨k + 1, ?_⟩, ?_, h.le_bound, ?_, ?_⟩, ?_, .inr hlength⟩
      · have hle := h.bytes_le
        show (arr.data.take (2 * arr.cap * eltSize) ++ _).take _ = _
        rw [take_append_of_le_length (by rw [length_take]; omega), take_take, Nat.min_eq_left hbytes,
          h.content]
      · show arr.cap * 2 = _
        rw [hk]
        ring
      · show xs.length < arr.cap * 2
        omega
      · show arr.cap * 2 ≤ _
        omega
      · exact le_of_eq hlength.symm
      · show arr.cap < arr.cap * 2
        omega
  · rw [if_neg hfull]
    exact .ok ⟨h, by omega, .inl rfl⟩

theorem seqArrPushBack_inv (helt : 0 < eltSize) (hx : x.length = eltSize)
    (hless : xs.length < bound) (hsize : 2 * (xs.length + 1) * eltSize < 2 ^ 64) :
    Ends heap (seqArrPushBack heap arr x) fun arr' => Inv eltSize bound arr' (xs ++ [x]) ∧
      (arr.data.length = arr.cap * eltSize → arr'.data.length = arr'.cap * eltSize) := by
  have hlen : 2 * (xs.length + 1) < 2 ^ 64 := Nat.lt_of_le_of_lt (Nat.le_mul_of_pos_right _ helt) hsize
  unfold seqArrPushBack
  rw [if_neg (by rw [h.eltSize_eq]; exact not_not.mpr hx)]
  refine (maybeExpand_inv h helt hless hsize).bind fun arr₁ ⟨h₁, hroom, hexact⟩ => ?_
  have hbytes : xs.length * eltSize + eltSize ≤ arr₁.data.length := by
    rw [← succ_mul]
    exact le_trans (Nat.mul_le_mul_right _ (Nat.le_of_lt hroom)) h₁.room
  have hoff : xs.length * eltSize < 2 ^ 64 :=
    Nat.lt_of_le_of_lt (Nat.mul_le_mul_right _ (show xs.length ≤ 2 * (xs.length + 1) by omega)) hsize
  obtain ⟨data, hdata⟩ : ∃ data, writeAt arr₁.data (xs.length * eltSize) x = some data :=
    ⟨_, writeAt_eq_some.mpr ⟨by rwa [hx], rfl⟩⟩
  rw [h₁.size_eq, h₁.eltSize_eq, mod_eq_of_lt hoff, hdata, mod_eq_of_lt (by omega)]
  refine .ok ⟨⟨rfl, ?_, ?_, ?_, h₁.cap_eq, ?_, ?_, h₁.cap_le, ?_⟩, ?_⟩
  · simp
  · intro y hy
    rcases mem_append.mp hy with hy | hy
    · exact h.records y hy
    · rwa [mem_singleton.mp hy]
  · have hend := take_writeAt_end hdata
    rw [hx, h₁.content, ← succ_mul] at hend
    simpa using hend
  · simpa using hroom
  · simpa using succ_le_of_lt hless
  · show arr₁.cap * eltSize ≤ data.length
    rw [length_writeAt hdata]
    exact h₁.room
  · intro hlength
    show data.length = arr₁.cap * eltSize
    rw [length_writeAt hdata]
    rcases hexact with rfl | hexact
    · exact hlength
    · exact hexact

end Push

section Erase

theorem bmod_sub {a b : Nat} (hle : b ≤ a) (hlt : a < 2 ^ 31) : ((a : Int) - b).bmod (2 ^ 32) = (a - b : Nat) := by
  rw [Int.bmod_eq_of_le (by omega) (by omega)]
  omega

theorem bmod_count {n : Nat} (helt : 0 < eltSize) (hlt : n * eltSize < 2 ^ 31) :
    (((n * eltSize : Nat) : Int) % 2 ^ 64 / eltSize).bmod (2 ^ 32) = (n : Int) := by
  have hle := Nat.le_mul_of_pos_right n helt
  rw [Int.emod_eq_of_lt (by omega) (by omega), ← Int.natCast_ediv, Nat.mul_div_cancel _ helt,
    Int.bmod_eq_of_le (by omega) (by omega)]

theorem eraseRange_moved {startIt endIt move : Nat} {bytes data : List UInt8}
    (hmove : ((seqArrEnd arr : Int) - endIt).bmod (2 ^ 32) = (move : Int))
    (hread : readAt arr.data endIt move = some bytes)
    (hwrite : writeAt arr.data startIt bytes = some data) : eraseRange heap arr startIt endIt =
      clearErased heap { arr with data := data } (((endIt : Int) - startIt).bmod (2 ^ 32)) := by
  unfold eraseRange
  simp only [hmove]
  rw [if_neg (Int.not_lt.mpr (Int.natCast_nonneg move)), Int.toNat_natCast, hread, checked_some, ok_bind, hwrite,
    checked_some, ok_bind]

theorem clearErased_eq {count : Nat} {data : List UInt8} (helt : 0 < arr.eltSize)
    (hcount : (count + 1) * arr.eltSize < 2 ^ 31) (hsize : count + 1 ≤ arr.size) (hsize' : arr.size < 2 ^ 31)
    (hclear : writeAt arr.data (seqArrEnd { arr with size := arr.size - (count + 1) })
      (List.replicate ((count + 1) * arr.eltSize) 0) = some data) :
    clearErased heap arr ((count + 1) * arr.eltSize : Nat) =
      maybeShrink heap { arr with data := data, size := arr.size - (count + 1) } := by
  have hrest : ((arr.size - ((count + 1 : Nat) : Int)) % 2 ^ 64).toNat = arr.size - (count + 1) := by omega
  have hbytes : ((((count + 1) * arr.eltSize : Nat) : Int) % 2 ^ 64).toNat = (count + 1) * arr.eltSize := by omega
  unfold clearErased
  rw [if_neg (Nat.ne_of_gt helt), bmod_count helt hcount]
  simp only [hrest, hbytes]
  rw [if_neg (Int.not_le.mpr (Int.natCast_pos.mpr (succ_pos _))), hclear, checked_some, ok_bind]

include h

theorem eraseRange_eq (helt : 0 < eltSize) (hsize : xs.length * eltSize < 2 ^ 31)
    {first last : Nat} (hfirst : first < last) (hlast : last ≤ xs.length) :
    ∃ arr', eraseRange heap arr (first * eltSize) (last * eltSize) = maybeShrink heap arr' ∧
      Inv eltSize bound arr' (xs.take first ++ xs.drop last) ∧ arr'.cap = arr.cap := by
  obtain ⟨moved, hmoved⟩ := Nat.exists_eq_add_of_le hlast
  obtain ⟨erased, rfl⟩ := Nat.exists_eq_add_of_lt hfirst
  have hend : seqArrEnd arr = xs.length * eltSize := by
    rw [seqArrEnd, h.size_eq, h.eltSize_eq, mod_eq_of_lt (by omega)]
  have hlast' : (first + erased + 1) * eltSize = first * eltSize + (erased + 1) * eltSize := by
    rw [add_assoc, add_mul]
  have hall : xs.length * eltSize = (first + erased + 1) * eltSize + moved * eltSize := by rw [hmoved, add_mul]
  have hrest : (first + moved) * eltSize = first * eltSize + moved * eltSize := add_mul _ _ _
  have hbytes := h.bytes_le
  have hlen := Nat.le_mul_of_pos_right xs.length helt
  have hys : (xs.take first ++ xs.drop (first + erased + 1)).length = first + moved := by
    rw [length_append, length_take, length_drop]
    omega
  obtain ⟨bytes, hbytesEq⟩ :
      ∃ bytes, (arr.data.drop ((first + erased + 1) * eltSize)).take (moved * eltSize) = bytes := ⟨_, rfl⟩
  have hread : readAt arr.data ((first + erased + 1) * eltSize) (moved * eltSize) = some bytes :=
    readAt_eq_some.mpr ⟨by omega, hbytesEq⟩
  have hlength : bytes.length = moved * eltSize := by
    rw [← hbytesEq, length_take, length_drop]
    omega
  obtain ⟨data, hdata⟩ : ∃ data, writeAt arr.data (first * eltSize) bytes = some data :=
    ⟨_, writeAt_eq_some.mpr ⟨by omega, rfl⟩⟩
  obtain ⟨data', hdata'⟩ : ∃ data', writeAt data ((first + moved) * eltSize)
      (List.replicate ((erased + 1) * eltSize) 0) = some data' := by
    refine ⟨_, writeAt_eq_some.mpr ⟨?_, rfl⟩⟩
    rw [length_replicate, length_writeAt hdata]
    omega
  have hmem : data'.length = arr.data.length := (length_writeAt hdata').trans (length_writeAt hdata)
  have hsub : xs.length - (erased + 1) = first + moved := by omega
  have herase : (((first + erased + 1) * eltSize : Nat) - (first * eltSize : Nat) : Int).bmod (2 ^ 32) =
      ((erased + 1) * eltSize : Nat) := by
    rw [bmod_sub (by omega) (by omega), hlast', Nat.add_sub_cancel_left]
  have hmove : ((seqArrEnd arr : Int) - ((first + erased + 1) * eltSize : Nat)).bmod (2 ^ 32) =
      (moved * eltSize : Nat) := by
    rw [bmod_sub (by omega) (by omega), hend, hall, Nat.add_sub_cancel_left]
  have hcount : (erased + 1) * eltSize < 2 ^ 31 := by omega
  refine ⟨⟨data', first + moved, eltSize, arr.cap⟩, ?_, ⟨rfl, hys.symm, ?_, ?_, h.cap_eq, ?_, ?_, h.cap_le, ?_⟩, rfl⟩
  · obtain ⟨mem, size, eltSize, cap⟩ := arr
    obtain rfl : eltSize = _ := h.eltSize_eq
    obtain rfl : size = _ := h.size_eq
    rw [eraseRange_moved hmove hread hdata, herase]
    have hclear : writeAt data (seqArrEnd ⟨data, xs.length - (erased + 1), eltSize, cap⟩)
        (List.replicate ((erased + 1) * eltSize) 0) = some data' := by
      rw [seqArrEnd, hsub]
      simp only
      rwa [mod_eq_of_lt (by omega)]
    rw [← hsub]
    exact @clearErased_eq heap ⟨data, xs.length, eltSize, cap⟩ erased data' helt hcount (by simp only; omega)
      (by simp only; omega) hclear
  · intro x hx
    rcases mem_append.mp hx with hx | hx
    · exact h.records x (mem_of_mem_take hx)
    · exact h.records x (mem_of_mem_drop hx)
  · rw [hys, take_writeAt hdata' (le_refl _), hrest, ← hlength, take_writeAt_end hdata,
      flatten_append, take_flatten_records h.records, drop_flatten_records h.records, ← h.content,
      take_take, drop_take, ← hbytesEq, Nat.min_eq_left (by omega), hall, Nat.add_sub_cancel_left]
  · show (xs.take first ++ xs.drop (first + erased + 1)).length < arr.cap
    have hlt := h.size_lt
    omega
  · have hle := h.le_bound
    omega
  · show arr.cap * eltSize ≤ data'.length
    rw [hmem]
    exact h.room

theorem Inv.low (hmin : minSize < arr.size)
    (hlow : 4 * toFloat arr.size < toFloat arr.cap) : ∃ k, arr.cap = 2 * 2 ^ (k + 5) ∧ xs.length < 2 ^ (k + 4) := by
  obtain ⟨k, hk⟩ := h.cap_eq
  rw [hk, toFloat_two_pow, h.size_eq] at hlow
  have hless : xs.length < 2 ^ (k + 1) := by
    refine Nat.lt_of_not_le fun hle => ?_
    have := le_toFloat hle
    have : 2 ^ (k + 3) = 4 * 2 ^ (k + 1) := by ring
    omega
  have hthree : 3 ≤ k := by
    refine Nat.le_of_not_lt fun hlt => ?_
    have : 2 ^ (k + 1) ≤ 2 ^ 3 := Nat.pow_le_pow_right (by decide) (by omega)
    rw [h.size_eq, minSize] at hmin
    omega
  obtain ⟨k, rfl⟩ := Nat.exists_eq_add_of_le' hthree
  exact ⟨k, hk.trans (by ring), hless⟩

theorem maybeShrink_low (hmin : minSize < arr.size)
    (hlow : 4 * toFloat arr.size < toFloat arr.cap) (hsize : xs.length * eltSize < 2 ^ 64)
    (hcap : arr.cap / 2 * (arr.cap / 2) < 2 ^ 64) : maybeShrink heap arr = if heap then
      (checked (writeAt (List.replicate (arr.cap / 2 * (arr.cap / 2)) 0) 0 xs.flatten)).map
        fun data => ⟨data, xs.length, eltSize, arr.cap / 2⟩ else .error .noMemory := by
  obtain ⟨k, hk, hless⟩ := h.low hmin hlow
  have hpow : 2 ^ (k + 5) = 2 * 2 ^ (k + 4) := by ring
  have hlt := h.size_lt
  have hread : readAt arr.data 0 (xs.length * eltSize) = some xs.flatten :=
    readAt_eq_some.mpr ⟨by rw [zero_add]; exact h.bytes_le, by rw [drop_zero, h.content]⟩
  rw [h.size_eq] at hmin
  have hcalloc : calloc heap (arr.cap / 2) (arr.cap / 2) =
      if heap then .ok (List.replicate (arr.cap / 2 * (arr.cap / 2)) 0) else .error .noMemory :=
    if_neg (not_le.mpr hcap)
  unfold maybeShrink
  rw [if_pos ⟨by rwa [h.size_eq], hlow⟩, if_neg (by omega)]
  simp only [hcalloc, h.size_eq, h.eltSize_eq]
  cases heap with
  | false => rfl
  | true =>
    show (if arr.cap / 2 < xs.length then _ else _) = _
    rw [if_neg (by omega), mod_eq_of_lt hsize, hread]
    show (checked (writeAt (List.replicate (arr.cap / 2 * (arr.cap / 2)) 0) 0 xs.flatten) >>= _) = _
    cases checked (writeAt (List.replicate (arr.cap / 2 * (arr.cap / 2)) 0) 0 xs.flatten) <;> rfl

/-- The memory shrinks to half of the capacity squared. With elements of at most 32 bytes, this is enough; and with
less than 32 elements, it does not happen. -/
theorem maybeShrink_inv (helt : 0 < eltSize) (hsize : bound * eltSize < 2 ^ 31)
    (hfits : eltSize ≤ 32 ∨ bound < 32) : Ends heap (maybeShrink heap arr) fun arr' => Inv eltSize bound arr' xs := by
  by_cases hlow : minSize < arr.size ∧ 4 * toFloat arr.size < toFloat arr.cap
  · obtain ⟨k, hk, hless⟩ := h.low hlow.1 hlow.2
    have hpow : 2 ^ (k + 5) = 32 * 2 ^ k := by ring
    have hhalf : arr.cap / 2 = 2 ^ (k + 5) := by omega
    have hpos : 0 < 2 ^ k := Nat.two_pow_pos k
    have hbound := Nat.le_mul_of_pos_right bound helt
    have hcap := h.cap_le
    have helts : eltSize ≤ 2 ^ (k + 5) := by
      rw [minSize] at hcap
      omega
    have hlt : xs.length < 2 ^ (k + 5) := by
      have : 2 ^ (k + 5) = 2 * 2 ^ (k + 4) := by ring
      omega
    have hroom : xs.flatten.length ≤ 2 ^ (k + 5) * 2 ^ (k + 5) := by
      rw [length_flatten_records h.records]
      exact Nat.mul_le_mul (Nat.le_of_lt hlt) helts
    have hsquare : 2 ^ (k + 5) * 2 ^ (k + 5) < 2 ^ 64 := by
      have hle : 2 ^ (k + 5) ≤ 2 ^ 31 := by
        rw [minSize] at hcap
        omega
      exact Nat.lt_of_le_of_lt (Nat.mul_le_mul hle hle) (by omega)
    have hbytes : xs.length * eltSize < 2 ^ 64 :=
      Nat.lt_of_le_of_lt (Nat.mul_le_mul_right _ h.le_bound) (by omega)
    obtain ⟨data, hdata⟩ : ∃ data, writeAt
        (List.replicate (2 ^ (k + 5) * 2 ^ (k + 5)) (0 : UInt8)) 0 xs.flatten = some data :=
      ⟨_, writeAt_eq_some.mpr ⟨by simpa using hroom, rfl⟩⟩
    rw [maybeShrink_low h hlow.1 hlow.2 hbytes (by rwa [hhalf]), hhalf, hdata]
    cases heap with
    | false => exact .inl ⟨rfl, rfl⟩
    | true =>
      refine .ok ⟨rfl, rfl, h.records, ?_, ⟨k + 2, rfl⟩, hlt, h.le_bound, ?_, ?_⟩
      · have hend := take_writeAt_end hdata
        rwa [zero_add, take_zero, nil_append, length_flatten_records h.records] at hend
      · show 2 ^ (k + 5) ≤ _
        omega
      · show 2 ^ (k + 5) * eltSize ≤ data.length
        rw [length_writeAt hdata, length_replicate]
        exact mul_le_mul_left _ helts
  · unfold maybeShrink
    rw [if_neg hlow]
    exact .ok h

end Erase

section Run

include h

theorem readAt_element {i : Nat} (hi : i < xs.length) :
    readAt arr.data (i * eltSize) eltSize = some xs[i] := by
  refine readAt_eq_some.mpr ⟨?_, record_of_take h.records h.content hi⟩
  rw [← succ_mul]
  exact le_trans (Nat.mul_le_mul_right _ hi) h.bytes_le

theorem freeLoop_eq (helt : 0 < eltSize) {first last fuel : Nat} (hle : first ≤ last)
    (hlast : last ≤ xs.length) (hfuel : last - first < fuel) :
    freeLoop arr (last * eltSize) fuel (first * eltSize) = .ok ((xs.take last).drop first) := by
  induction fuel generalizing first with
  | zero => omega
  | succ fuel ih =>
    rw [freeLoop]
    rcases eq_or_lt_of_le hle with rfl | hlt
    · rw [if_pos rfl, drop_eq_nil_of_le (by rw [length_take]; exact min_le_left _ _)]
    · have hne : first * eltSize ≠ last * eltSize :=
        Nat.ne_of_lt (Nat.mul_lt_mul_of_pos_right hlt helt)
      have hnext : seqArrNext arr (first * eltSize) = (first + 1) * eltSize := by
        rw [seqArrNext, h.eltSize_eq, succ_mul]
      rw [if_neg hne, h.eltSize_eq, readAt_element h (Nat.lt_of_lt_of_le hlt hlast), hnext, ih hlt (by omega),
        drop_eq_getElem_cons (i := first) (by rw [length_take]; omega), getElem_take]
      rfl

theorem seqArrEraseIt_inv (helt : 0 < eltSize) (hsize : bound * eltSize < 2 ^ 31)
    (hfits : eltSize ≤ 32 ∨ bound < 32) {first last : Nat} (hle : first ≤ last) (hlast : last ≤ xs.length)
    (freeFunc : Bool) : Ends heap (seqArrEraseIt heap arr (first * eltSize) (last * eltSize) freeFunc) fun r =>
      Inv eltSize bound r.1 (xs.take first ++ xs.drop last) ∧
        r.2 = if freeFunc then (xs.take last).drop first else [] := by
  have hbytes : xs.length * eltSize < 2 ^ 31 := Nat.lt_of_le_of_lt (Nat.mul_le_mul_right eltSize h.le_bound) hsize
  unfold seqArrEraseIt
  rw [if_neg (not_lt.mpr (Nat.mul_le_mul_right _ hle))]
  rcases eq_or_lt_of_le hle with rfl | hlt
  · rw [if_pos rfl, take_append_drop, drop_eq_nil_of_le (by rw [length_take]; exact min_le_left _ _),
      ite_self]
    exact .ok ⟨h, rfl⟩
  · rw [if_neg (Nat.ne_of_lt (Nat.mul_lt_mul_of_pos_right hlt helt))]
    obtain ⟨arr', hrange, hinv, -⟩ := @eraseRange_eq heap _ _ _ _ h helt hbytes _ _ hlt hlast
    have hfreed : freed arr (first * eltSize) (last * eltSize) freeFunc =
        .ok (if freeFunc then (xs.take last).drop first else []) := by
      cases freeFunc with
      | false => rfl
      | true => exact freeLoop_eq h helt hle hlast (by rw [h.size_eq]; omega)
    rw [hfreed, hrange]
    exact (maybeShrink_inv hinv helt hsize hfits).bind fun arr' hinv' => .ok ⟨hinv', rfl⟩

theorem call_inv (helt : 0 < eltSize) (hsize : bound * eltSize < 2 ^ 31)
    (hfits : eltSize ≤ 32 ∨ bound < 32) {c : Call} {r : List (List UInt8) × List (List UInt8)}
    (hc : c.onList eltSize bound xs = some r) :
    arr.call c = .error .noMemory ∨ ∃ arr', arr.call c = .ok (arr', r.2) ∧ Inv eltSize bound arr' r.1 := by
  have hbytes := Nat.mul_le_mul_right eltSize h.le_bound
  cases c with
  | pushBack heap x =>
    obtain ⟨⟨hx, hless⟩, hr⟩ := Option.ite_none_right_eq_some.mp hc
    obtain rfl := Option.some.inj hr
    have hmul : 2 * (xs.length + 1) * eltSize ≤ 2 * (bound * eltSize) := by
      rw [mul_assoc]
      exact mul_le_mul_left _ (Nat.mul_le_mul_right _ hless)
    rcases seqArrPushBack_inv h helt hx hless (by omega) with ⟨-, herr⟩ | ⟨arr', hok, hinv, -⟩
    · left
      rw [SeqArr.call, herr]
      rfl
    · right
      rw [SeqArr.call, hok]
      exact ⟨arr', rfl, hinv⟩
  | erase heap first last freeFunc =>
    obtain ⟨⟨hle, hlast⟩, hr⟩ := Option.ite_none_right_eq_some.mp hc
    obtain rfl := Option.some.inj hr
    rw [SeqArr.call, h.eltSize_eq]
    rcases seqArrEraseIt_inv h helt hsize hfits hle hlast freeFunc with ⟨-, herr⟩ | ⟨r, hok, hinv, hseen⟩
    · exact .inl herr
    · exact .inr ⟨r.1, by rw [hok, ← hseen], hinv⟩
  | «at» pos =>
    obtain ⟨x, hx, rfl⟩ := Option.map_eq_some_iff.mp hc
    obtain ⟨hpos, rfl⟩ := List.getElem?_eq_some_iff.mp hx
    have hoff : pos.toNat * eltSize < 2 ^ 64 :=
      Nat.lt_of_le_of_lt (Nat.mul_le_mul_right eltSize (Nat.le_of_lt hpos)) (by omega)
    right
    rw [SeqArr.call, seqArrAt, if_neg (by rw [h.size_eq]; omega), h.eltSize_eq, mod_eq_of_lt hoff]
    refine ⟨arr, ?_, h⟩
    show (checked (readAt arr.data (pos.toNat * eltSize) eltSize) >>= _) = _
    rw [readAt_element h hpos]
    rfl

theorem calls_inv (helt : 0 < eltSize) (hsize : bound * eltSize < 2 ^ 31)
    (hfits : eltSize ≤ 32 ∨ bound < 32) {cs : List Call} {r : List (List UInt8) × List (List UInt8)}
    (hcs : callsOnList eltSize bound xs cs = some r) :
    arr.calls cs = .error .noMemory ∨ ∃ arr', arr.calls cs = .ok (arr', r.2) ∧ Inv eltSize bound arr' r.1 := by
  induction cs generalizing arr xs r with
  | nil =>
    obtain rfl := Option.some.inj hcs
    exact .inr ⟨arr, rfl, h⟩
  | cons c cs ih =>
    obtain ⟨r₁, hc, hrest⟩ := Option.bind_eq_some_iff.mp hcs
    obtain ⟨r₂, hcs₂, hr⟩ := Option.bind_eq_some_iff.mp hrest
    obtain rfl := Option.some.inj hr
    rw [SeqArr.calls]
    rcases call_inv h helt hsize hfits hc with herr | ⟨arr₁, hok, hinv⟩
    · rw [herr]
      exact .inl rfl
    · rw [hok]
      show (arr₁.calls cs >>= _) = _ ∨ ∃ arr', (arr₁.calls cs >>= _) = _ ∧ _
      rcases ih hinv hcs₂ with herr | ⟨arr₂, hok₂, hinv₂⟩
      · rw [herr]
        exact .inl rfl
      · rw [hok₂]
        exact .inr ⟨arr₂, rfl, hinv₂⟩

end Run

end OaiNr.Ds
