import OaiNr.Ds.Lemmas.SeqArr

/-!
# When the sequence container is a list

`maybe_shrink` allocates the square of the capacity instead of the capacity times the size of an element, and
`seq_arr_erase_it` counts bytes in an `int`.
-/

namespace OaiNr.Ds

open List

variable {eltSize bound : Nat} {arr : SeqArr} {xs : List (List UInt8)} {x : List UInt8}

section Pushes

def pushes (n : Nat) (x : List UInt8) : List Call := List.replicate n (.pushBack true x)

theorem callsOnList_pushes (hx : x.length = eltSize) {n : Nat} (hn : xs.length + n ≤ bound) (cs : List Call) :
    callsOnList eltSize bound xs (pushes n x ++ cs) = callsOnList eltSize bound (xs ++ List.replicate n x) cs := by
  induction n generalizing xs with
  | zero => simp [pushes]
  | succ n ih =>
    have hpush : (Call.pushBack true x).onList eltSize bound xs = some (xs ++ [x], []) := if_pos ⟨hx, by omega⟩
    have hmore := @ih (xs ++ [x]) (by simp; omega)
    rw [append_assoc, singleton_append, ← replicate_succ] at hmore
    rw [← hmore, pushes, replicate_succ, cons_append, callsOnList, hpush]
    show (callsOnList eltSize bound (xs ++ [x]) (pushes n x ++ cs) >>= fun r => some (r.1, [] ++ r.2)) = _
    cases callsOnList eltSize bound (xs ++ [x]) (pushes n x ++ cs) <;> rfl

theorem calls_pushes (h : Inv eltSize bound arr xs) (helt : 0 < eltSize) (hx : x.length = eltSize)
    (hexact : arr.data.length = arr.cap * eltSize) {n : Nat} (hn : xs.length + n ≤ bound)
    (hsize : 2 * bound * eltSize < 2 ^ 64) : ∃ arr', (∀ cs, arr.calls (pushes n x ++ cs) = arr'.calls cs) ∧
      Inv eltSize bound arr' (xs ++ List.replicate n x) ∧ arr'.data.length = arr'.cap * eltSize := by
  induction n generalizing arr xs with
  | zero => exact ⟨arr, fun _ => rfl, by simpa using h, hexact⟩
  | succ n ih =>
    have hmul : 2 * (xs.length + 1) * eltSize ≤ 2 * bound * eltSize := Nat.mul_le_mul_right _ (by omega)
    rcases @seqArrPushBack_inv true _ _ _ _ _ h helt hx (by omega) (by omega) with
      ⟨hheap, -⟩ | ⟨arr₁, hok, hinv, hex⟩
    · cases hheap
    · obtain ⟨arr', hcalls, hinv', hexact'⟩ := ih hinv (hex hexact) (by simp; omega)
      rw [append_assoc, singleton_append, ← replicate_succ] at hinv'
      refine ⟨arr', fun cs => ?_, hinv', hexact'⟩
      rw [← hcalls, pushes, replicate_succ, cons_append, SeqArr.calls, SeqArr.call, hok]
      show (arr₁.calls (pushes n x ++ cs) >>= fun r => .ok (r.1, [] ++ r.2)) = _
      cases arr₁.calls (pushes n x ++ cs) <;> rfl

theorem seqArrRun_pushes (helt : 0 < eltSize) (hx : x.length = eltSize) (hmin : minSize * eltSize < 2 ^ 64) {n : Nat}
    (hsize : 2 * n * eltSize < 2 ^ 64) : ∃ arr, (∀ cs, seqArrRun true eltSize (pushes n x ++ cs) = arr.calls cs) ∧
      Inv eltSize n arr (List.replicate n x) ∧ arr.data.length = arr.cap * eltSize := by
  rcases @seqArrInit_inv true eltSize n hmin with ⟨hheap, -⟩ | ⟨arr, hok, hinv, -, hexact⟩
  · cases hheap
  · obtain ⟨arr', hcalls, hinv', hexact'⟩ := calls_pushes hinv helt hx hexact (Nat.le_of_eq (Nat.zero_add n)) hsize
    refine ⟨arr', fun cs => ?_, hinv', hexact'⟩
    rw [seqArrRun, hok]
    exact hcalls cs

end Pushes

section Failures

theorem not_agrees_error {f : Fault} (hf : f ≠ .noMemory) (ys seen : List (List UInt8)) :
    ¬ Agrees (.error f) ys seen := by
  rintro (herr | ⟨arr, hok, -⟩)
  · exact hf (Except.error.inj herr)
  · cases hok

theorem bmod_cases (n : Nat) : (∃ q r, n = 2 ^ 32 * q + r ∧ r < 2 ^ 31 ∧ (n : Int).bmod (2 ^ 32) = r) ∨
      ∃ q m, n + m = 2 ^ 32 * q ∧ 0 < m ∧ m ≤ 2 ^ 31 ∧ (n : Int).bmod (2 ^ 32) = -m := by
  rw [Int.bmod_def]
  split
  · exact .inl ⟨n / 2 ^ 32, n % 2 ^ 32, by omega, by omega, by omega⟩
  · exact .inr ⟨n / 2 ^ 32 + 1, 2 ^ 32 - n % 2 ^ 32, by omega, by omega, by omega, by omega⟩

theorem bmod_large {total room : Nat} (hint : 2 ^ 31 ≤ total) (hle : eltSize ≤ total)
    (htotal : total < 2 ^ 32 ∨ (total = eltSize ∧ eltSize < 2 ^ 61)) (hroom : room ≤ 8 * eltSize ∨ room ≤ 2 * total) :
    (0 ≤ (total : Int).bmod (2 ^ 32) ∧ (total : Int).bmod (2 ^ 32) < eltSize) ∨
      ((total : Int).bmod (2 ^ 32) < 0 ∧ (room : Int) < 2 ^ 64 + (total : Int).bmod (2 ^ 32)) := by
  rcases bmod_cases total with ⟨q, r, hq, hr, hbmod⟩ | ⟨q, m, hq, hm, hm', hbmod⟩
  · rw [hbmod]
    left
    rcases htotal with h | ⟨rfl, h⟩ <;> omega
  · rw [hbmod]
    right
    rcases htotal with h | ⟨rfl, h⟩ <;> rcases hroom with h' | h' <;> omega

/-- To erase a whole array whose size in bytes is not an `int` fails: the number of bytes is too small for an element,
or it is negative and then larger than the memory. -/
theorem eraseRange_fails {endIt : Nat} (helt : 0 < arr.eltSize) (hend : seqArrEnd arr = endIt)
    (hle : endIt ≤ arr.data.length)
    (hbad : (0 ≤ (endIt : Int).bmod (2 ^ 32) ∧ (endIt : Int).bmod (2 ^ 32) < arr.eltSize) ∨
      ((endIt : Int).bmod (2 ^ 32) < 0 ∧ (arr.data.length : Int) < 2 ^ 64 + (endIt : Int).bmod (2 ^ 32))) :
    ∃ f, f ≠ .noMemory ∧ eraseRange true arr 0 endIt = .error f := by
  have hread : Memory.readAt arr.data endIt 0 = some [] := Memory.readAt_eq_some.mpr ⟨hle, take_zero⟩
  have hwrite : Memory.writeAt arr.data 0 [] = some arr.data :=
    Memory.writeAt_eq_some.mpr ⟨Nat.zero_le _, rfl⟩
  have hzero : ((seqArrEnd arr : Int) - endIt).bmod (2 ^ 32) = (0 : Nat) := by
    rw [hend, Int.sub_self, Int.zero_bmod]
    rfl
  rw [eraseRange_moved hzero hread hwrite, Int.natCast_zero, Int.sub_zero]
  have hint : (endIt : Int).bmod (2 ^ 32) < 2 ^ 31 := Int.bmod_lt (by decide)
  generalize (endIt : Int).bmod (2 ^ 32) = erase at hbad hint ⊢
  unfold clearErased
  rw [if_neg (Nat.ne_of_gt helt)]
  rcases hbad with ⟨hpos, hless⟩ | ⟨hneg, hlarge⟩
  · have hcount : (erase % 2 ^ 64 / arr.eltSize).bmod (2 ^ 32) ≤ 0 := by
      rw [Int.emod_eq_of_lt hpos (by omega), Int.ediv_eq_zero_of_lt hpos hless]
      decide
    exact ⟨.assert, by decide, if_pos hcount⟩
  · by_cases hcount : (erase % 2 ^ 64 / arr.eltSize).bmod (2 ^ 32) ≤ 0
    · exact ⟨.assert, by decide, if_pos hcount⟩
    · have hlong : ∀ off, Memory.writeAt arr.data off (List.replicate (erase % 2 ^ 64).toNat 0) = none := by
        intro off
        refine if_neg ?_
        rw [length_replicate]
        omega
      refine ⟨.outOfBounds, by decide, ?_⟩
      simp only [if_neg hcount, hlong]
      rfl

theorem fill_erase_fails (helt : 0 < eltSize) {n : Nat} (hint : 2 ^ 31 ≤ n * eltSize)
    (hn : n * eltSize < 2 ^ 32 ∨ (n = 1 ∧ eltSize < 2 ^ 61)) (hx : x.length = eltSize) :
    ∃ f, f ≠ .noMemory ∧ seqArrRun true eltSize (pushes n x ++ [.erase true 0 n false]) = .error f := by
  have hpos : 0 < n := Nat.pos_of_ne_zero (by rintro rfl; omega)
  have hmul := Nat.le_mul_of_pos_left eltSize hpos
  have hone : n = 1 → n * eltSize = eltSize := by
    rintro rfl
    exact Nat.one_mul _
  have htwo : 2 * n * eltSize = 2 * (n * eltSize) := Nat.mul_assoc _ _ _
  obtain ⟨arr, hcalls, hinv, hexact⟩ := @seqArrRun_pushes eltSize x helt hx (by rw [minSize]; omega) n (by omega)
  have hlen : (List.replicate n x).length = n := length_replicate
  have hend : seqArrEnd arr = n * eltSize := by
    rw [seqArrEnd, hinv.size_eq, hinv.eltSize_eq, hlen, Nat.mod_eq_of_lt (by omega)]
  have hle := hinv.bytes_le
  rw [hlen] at hle
  have hcap : arr.data.length ≤ 8 * eltSize ∨ arr.data.length ≤ 2 * (n * eltSize) := by
    rw [hexact, ← htwo]
    rcases le_max_iff.mp hinv.cap_le with hcap | hcap
    · exact .inl (Nat.mul_le_mul_right _ hcap)
    · exact .inr (Nat.mul_le_mul_right _ hcap)
  have hbad := bmod_large hint hmul (hn.imp_right fun h => ⟨hone h.1, h.2⟩) hcap
  obtain ⟨f, hf, herr⟩ := eraseRange_fails (by rwa [hinv.eltSize_eq]) hend hle (by rwa [hinv.eltSize_eq])
  refine ⟨f, hf, ?_⟩
  rw [hcalls, SeqArr.calls, SeqArr.call, seqArrEraseIt, hinv.eltSize_eq, Nat.zero_mul, if_neg (Nat.not_lt_zero _),
    if_neg (by omega), freed, if_neg (by decide), ok_bind, herr]
  rfl

theorem fill_shrink_eq (helt : 0 < eltSize) (hsize : 32 * eltSize < 2 ^ 31) (hx : x.length = eltSize) :
    seqArrRun true eltSize (pushes 32 x ++ [.erase true 9 32 false]) =
      (checked (Memory.writeAt (List.replicate 1024 0) 0 (List.replicate 9 x).flatten)).map
        fun data => (⟨data, 9, eltSize, 32⟩, []) := by
  obtain ⟨arr, hcalls, hinv, -⟩ := @seqArrRun_pushes eltSize x helt hx (by rw [minSize]; omega) 32 (by omega)
  have hlen : (List.replicate 32 x).length = 32 := length_replicate
  have hlt : (List.replicate 32 x).length * eltSize < 2 ^ 31 := by rwa [hlen]
  obtain ⟨arr', hrange, hinv', hcap⟩ :=
    @eraseRange_eq true _ _ _ _ hinv helt hlt 9 32 (by decide) (Nat.le_of_eq hlen.symm)
  have hxs : (List.replicate 32 x).take 9 ++ (List.replicate 32 x).drop 32 = List.replicate 9 x := by
    simp
  rw [hxs] at hinv'
  -- a power of two, more than 32 and at most 64
  have hcap' : arr'.cap = 64 := by
    obtain ⟨k, hk⟩ := hinv.cap_eq
    have hmore := hinv.size_lt
    have hless : arr.cap ≤ 64 := hinv.cap_le
    rw [hlen, hk] at hmore
    rw [hk] at hless
    have hk' : k + 3 = 6 := by
      have h1 : 5 < k + 3 := (Nat.pow_lt_pow_iff_right (a := 2) (by decide)).mp hmore
      have h2 : k + 3 ≤ 6 := (Nat.pow_le_pow_iff_right (a := 2) (by decide)).mp hless
      omega
    rw [hcap, hk, hk']
    decide
  have hsize' : arr'.size = 9 := hinv'.size_eq.trans length_replicate
  have hmin : minSize < arr'.size := by
    rw [hsize']
    decide
  have hlow : 4 * toFloat arr'.size < toFloat arr'.cap := by
    rw [hsize', hcap']
    decide
  have hshrink := @maybeShrink_low true _ _ _ _ hinv' hmin hlow (by rw [length_replicate]; omega)
    (by rw [hcap']; decide)
  rw [hcap', length_replicate] at hshrink
  rw [hcalls, SeqArr.calls, SeqArr.call, seqArrEraseIt, hinv.eltSize_eq, if_neg (by omega), if_neg (by omega), freed,
    if_neg (by decide), ok_bind, hrange, hshrink]
  show ((checked (Memory.writeAt (List.replicate 1024 0) 0 (List.replicate 9 x).flatten)).map _ >>= _) >>= _ = _
  cases checked (Memory.writeAt (List.replicate 1024 0) 0 (List.replicate 9 x).flatten) <;> rfl

end Failures

section Necessity

theorem callsOnList_fill_erase (hx : x.length = eltSize) {n first : Nat} (hfirst : first ≤ n) (hn : n ≤ bound) :
    callsOnList eltSize bound [] (pushes n x ++ [.erase true first n false]) = some (List.replicate first x, []) := by
  rw [callsOnList_pushes hx (by simpa using hn), nil_append, callsOnList, Call.onList,
    if_pos ⟨hfirst, Nat.le_of_eq length_replicate.symm⟩]
  simp [callsOnList, Nat.min_eq_left hfirst]

variable (hagrees : ∀ heap cs xs seen, callsOnList eltSize bound [] cs = some (xs, seen) →
  Agrees (seqArrRun heap eltSize cs) xs seen)

include hagrees

theorem eltSize_pos (hbound : 0 < bound) : 0 < eltSize := by
  refine Nat.pos_of_ne_zero ?_
  rintro rfl
  have hlist := @callsOnList_fill_erase 0 bound [] rfl 1 0 (by decide) hbound
  rcases hagrees true _ _ _ hlist with herr | ⟨arr, hok, hholds⟩
  · cases herr
  · obtain rfl : (⟨[], 1, 0, 8⟩ : SeqArr) = arr := congrArg Prod.fst (Except.ok.inj hok)
    cases hholds.elements

theorem eltSize_lt : eltSize < 2 ^ 61 := by
  refine Nat.lt_of_not_le fun hle => not_agrees_error (f := .assert) (by decide) [] [] ?_
  have hrun : seqArrRun true eltSize [] = .error .assert := by
    rw [seqArrRun, seqArrInit, calloc, if_pos (by rw [minSize]; omega)]
    rfl
  rw [← hrun]
  exact hagrees true [] [] [] rfl

theorem bytes_lt (helt : 0 < eltSize) : bound * eltSize < 2 ^ 31 := by
  refine Nat.lt_of_not_le fun hle => ?_
  have hlarge := eltSize_lt hagrees
  -- the first number of elements whose size is not an `int`
  obtain ⟨m, hm⟩ : ∃ m, (2 ^ 31 - 1) / eltSize + 1 = m := ⟨_, rfl⟩
  have hbound : m ≤ bound := by
    rw [← hm]
    exact (Nat.div_lt_iff_lt_mul helt).mpr (by omega)
  have hdiv := Nat.div_add_mod (2 ^ 31 - 1) eltSize
  have hmod := Nat.mod_lt (2 ^ 31 - 1) helt
  have hmul : m * eltSize = eltSize * ((2 ^ 31 - 1) / eltSize) + eltSize := by
    rw [← hm, Nat.succ_mul, Nat.mul_comm]
  have hsize : m * eltSize < 2 ^ 32 ∨ (m = 1 ∧ eltSize < 2 ^ 61) := by
    rcases Nat.lt_or_ge (2 ^ 31 - 1) eltSize with hless | hmore
    · rw [Nat.div_eq_of_lt hless] at hm
      exact .inr ⟨hm.symm, hlarge⟩
    · exact .inl (by omega)
  obtain ⟨f, hf, herr⟩ := @fill_erase_fails eltSize (List.replicate eltSize 0) helt m (by omega) hsize (by simp)
  have := hagrees true _ _ _ (@callsOnList_fill_erase eltSize bound (List.replicate eltSize 0) (by simp) m 0
    (Nat.zero_le _) hbound)
  rw [herr] at this
  exact not_agrees_error hf _ _ this

theorem eltSize_le (helt : 0 < eltSize) : eltSize ≤ 32 ∨ bound < 32 := by
  rcases Nat.lt_or_ge bound 32 with hbound | hbound
  · exact .inr hbound
  · refine .inl (Nat.le_of_not_lt fun hless => ?_)
    have hsize := Nat.lt_of_le_of_lt (Nat.mul_le_mul_right eltSize hbound) (bytes_lt hagrees helt)
    have hagree := hagrees true _ _ _ (@callsOnList_fill_erase eltSize bound (List.replicate eltSize 0) (by simp) 32 9
      (by decide) hbound)
    rw [fill_shrink_eq helt hsize (by simp)] at hagree
    cases hwrite : Memory.writeAt (List.replicate 1024 0) 0
      (List.replicate 9 (List.replicate eltSize (0 : UInt8))).flatten with
    | none =>
      rw [hwrite] at hagree
      exact not_agrees_error (f := .outOfBounds) (by decide) _ _ hagree
    | some data =>
      rw [hwrite] at hagree
      rcases hagree with herr | ⟨arr, hok, hholds⟩
      · cases herr
      · obtain rfl : (⟨data, 9, eltSize, 32⟩ : SeqArr) = arr := congrArg Prod.fst (Except.ok.inj hok)
        have hroom : 32 * eltSize ≤ data.length := hholds.room
        rw [Memory.length_writeAt hwrite, length_replicate] at hroom
        omega

end Necessity

/-- For calls that keep at most `n + 1` elements, the array is a list if and only if its elements have bytes, its size
in bytes is an `int`, and it has no more than 32 bytes for an element or less than 32 elements. -/
theorem seqArr_refines_iff (eltSize n : Nat) : (∀ heap cs xs seen, callsOnList eltSize (n + 1) [] cs = some (xs, seen) →
      Agrees (seqArrRun heap eltSize cs) xs seen) ↔
    0 < eltSize ∧ (n + 1) * eltSize < 2 ^ 31 ∧ (eltSize ≤ 32 ∨ n + 1 < 32) := by
  constructor
  · intro hagrees
    have helt := eltSize_pos hagrees (Nat.succ_pos n)
    exact ⟨helt, bytes_lt hagrees helt, eltSize_le hagrees helt⟩
  · rintro ⟨helt, hsize, hfits⟩ heap cs xs seen hcs
    have hmul : eltSize ≤ (n + 1) * eltSize := Nat.le_mul_of_pos_left eltSize (Nat.succ_pos n)
    rw [seqArrRun]
    rcases @seqArrInit_inv heap eltSize (n + 1) (by rw [minSize]; omega) with ⟨-, herr⟩ | ⟨arr, hok, hinv, -⟩
    · rw [herr]
      exact .inl rfl
    · rw [hok, ok_bind]
      rcases calls_inv hinv helt hsize hfits hcs with herr | ⟨arr', hok', hinv'⟩
      · exact .inl herr
      · exact .inr ⟨arr', hok', hinv'.holds⟩

/-- Elements of 128 bytes: after 32 of them are stored and all but 9 are erased, the copy of these 9 does not fit. -/
theorem seqArr_shrink_overflows : ∃ cs, callsOnList 128 32 [] cs = some (List.replicate 9 (List.replicate 128 0), []) ∧
      seqArrRun true 128 cs = .error .outOfBounds := by
  refine ⟨_, @callsOnList_fill_erase 128 32 (List.replicate 128 0) (by simp) 32 9 (by decide) (by decide), ?_⟩
  have hlength : (List.replicate 9 (List.replicate 128 (0 : UInt8))).flatten.length = 9 * 128 :=
    Memory.length_flatten_records fun r hr => by rw [eq_of_mem_replicate hr, length_replicate]
  rw [fill_shrink_eq (by decide) (by decide) length_replicate, Memory.writeAt,
    if_neg (by rw [hlength, length_replicate]; decide)]
  rfl

end OaiNr.Ds
