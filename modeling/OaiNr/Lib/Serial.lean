import Mathlib.Tactic.Ring
import Mathlib.Tactic.Linarith

/-!
# Serial numbers

Numbers that count modulo `m` and are compared by their distance behind a base: `offset m b a` is the distance from
`b` up to `a`.
-/

namespace OaiNr.Serial

variable {m a b c k : Int}

def offset (m b a : Int) : Int := (a - b) % m

theorem offset_nonneg (hm : 0 < m) : 0 ≤ offset m b a := Int.emod_nonneg _ (by omega)

theorem offset_lt (hm : 0 < m) : offset m b a < m := Int.emod_lt_of_pos _ hm

theorem offset_eq_of (h0 : 0 ≤ k) (hk : k < m) (q : Int) (h : a - b = k + m * q) : offset m b a = k := by
  rw [offset, h, Int.add_mul_emod_self_left, Int.emod_eq_of_lt h0 hk]

theorem exists_offset (m b a : Int) : ∃ q, a - b = offset m b a + m * q :=
  ⟨(a - b) / m, by rw [offset]; have := Int.emod_add_mul_ediv (a - b) m; omega⟩

@[simp] theorem offset_self : offset m b b = 0 := by simp [offset]

theorem offset_add_emod (h0 : 0 ≤ k) (hk : k < m) : offset m b ((b + k) % m) = k := by
  refine offset_eq_of h0 hk (-((b + k) / m)) ?_
  have := Int.emod_add_mul_ediv (b + k) m
  rw [Int.mul_neg]
  omega

theorem add_offset_emod (h0 : 0 ≤ a) (ha : a < m) : (b + offset m b a) % m = a := by
  obtain ⟨q, hq⟩ := exists_offset m b a
  have h : b + offset m b a = a + m * -q := by rw [Int.mul_neg]; omega
  rw [h, Int.add_mul_emod_self_left, Int.emod_eq_of_lt h0 ha]

theorem offset_inj (ha0 : 0 ≤ a) (ha : a < m) (hc0 : 0 ≤ c) (hc : c < m) (h : offset m b a = offset m b c) : a = c := by
  rw [← add_offset_emod (b := b) ha0 ha, ← add_offset_emod (b := b) hc0 hc, h]

theorem offset_eq_zero (ha0 : 0 ≤ a) (ha : a < m) (hb0 : 0 ≤ b) (hb : b < m) (h : offset m b a = 0) : a = b :=
  offset_inj (b := b) ha0 ha hb0 hb (by rw [h, offset_self])

theorem offset_emod : offset m b (a % m) = offset m b a := by
  rw [offset, offset, Int.emod_sub_emod]

theorem offset_succ (hm : 0 < m) (h : offset m b a + 1 < m) : offset m b ((a + 1) % m) = offset m b a + 1 := by
  rw [offset_emod]
  obtain ⟨q, hq⟩ := exists_offset m b a
  have h0 : 0 ≤ offset m b a := offset_nonneg hm
  exact offset_eq_of (by omega) h q (by omega)

theorem offset_rebase (hm : 0 < m) (h : offset m b c ≤ offset m b a) : offset m c a = offset m b a - offset m b c := by
  obtain ⟨q, hq⟩ := exists_offset m b a
  obtain ⟨r, hr⟩ := exists_offset m b c
  have h0 : 0 ≤ offset m b c := offset_nonneg hm
  have h1 : offset m b a < m := offset_lt hm
  refine offset_eq_of (by omega) (by omega) (q - r) ?_
  rw [Int.mul_sub]
  omega

theorem offset_rebase_past (hm : 0 < m) (h : offset m b a < offset m b c) :
    offset m c a = offset m b a - offset m b c + m := by
  obtain ⟨q, hq⟩ := exists_offset m b a
  obtain ⟨r, hr⟩ := exists_offset m b c
  have h0 : 0 ≤ offset m b a := offset_nonneg hm
  have h1 : offset m b c < m := offset_lt hm
  refine offset_eq_of (by omega) (by omega) (q - r - 1) ?_
  rw [Int.mul_sub, Int.mul_sub]
  omega

theorem ite_offset (ha0 : 0 ≤ a) (ha : a < m) (hb0 : 0 ≤ b) (hb : b < m) :
    (if a - b < 0 then a - b + m else a - b) = offset m b a := by
  split
  · exact (offset_eq_of (by omega) (by omega) (-1) (by omega)).symm
  · exact (offset_eq_of (by omega) (by omega) 0 (by omega)).symm

theorem emod_nonneg_lt (hm : 0 < m) (a : Int) : 0 ≤ a % m ∧ a % m < m :=
  ⟨Int.emod_nonneg _ (by omega), Int.emod_lt_of_pos _ hm⟩

end OaiNr.Serial
