import Mathlib.Algebra.Ring.Periodic
import Mathlib.Data.List.GetD
import Mathlib.Data.Nat.Count

/-!
# Counting along a periodic predicate
-/

namespace OaiNr

variable {p : Nat → Prop} [DecidablePred p] {period : Nat}

theorem filter_range_getD {n k : Nat} (hk : k < ((List.range n).filter p).length) :
    p (((List.range n).filter p).getD k 0) ∧ Nat.count p (((List.range n).filter p).getD k 0) = k := by
  induction n with
  | zero => simp at hk
  | succ n ih =>
    rw [List.range_succ, List.filter_append] at hk ⊢
    by_cases hlt : k < ((List.range n).filter p).length
    · rw [List.getD_append _ _ _ _ hlt]
      exact ih hlt
    · by_cases hp : p n
      · have hkn : k = ((List.range n).filter p).length := by
          simp [hp] at hk
          omega
        rw [List.getD_append_right _ _ _ _ (by omega), hkn, ← List.countP_eq_length_filter]
        simp [hp, Nat.count]
      · simp [hp] at hk
        omega

variable (h : Function.Periodic p period)

include h

theorem count_add_mul (j m : Nat) : Nat.count p (j + m * period) = Nat.count p j + m * Nat.count p period := by
  induction m with
  | zero => simp
  | succ m ih =>
    rw [Nat.succ_mul, ← Nat.add_assoc, Nat.count_add']
    simp only [h _]
    rw [ih, Nat.succ_mul, Nat.add_assoc]

/-- Numbers of the predicate in a window of `m` periods have different counts modulo what the window holds. -/
theorem count_mod_ne {a b m size : Nat} (ha : p a) (hb : p b) (hab : a < b) (hm : b < a + m * period)
    (hsize : m * Nat.count p period ≤ size) : Nat.count p a % size ≠ Nat.count p b % size := by
  have hlt : Nat.count p a < Nat.count p b := Nat.count_strict_mono ha hab
  have hle := Nat.count_monotone p (Nat.succ_le_of_lt hm)
  rw [Nat.count_succ, if_pos hb, count_add_mul h] at hle
  intro heq
  have hdvd := Nat.dvd_of_mod_eq_zero (Nat.sub_mod_eq_zero_of_mod_eq heq.symm)
  have := Nat.le_of_dvd (by omega) hdvd
  omega

/-- The number `idx` of the predicate, from those of the first period -/
theorem nth_periodic {l : List Nat} (hl : (List.range period).filter p = l) (hpos : 0 < l.length) (idx : Nat) :
    p (l.getD (idx % l.length) 0 + idx / l.length * period) ∧
      Nat.count p (l.getD (idx % l.length) 0 + idx / l.length * period) = idx := by
  obtain ⟨hp, hcount⟩ := filter_range_getD (hl.symm ▸ Nat.mod_lt idx hpos)
  rw [hl] at hp hcount
  constructor
  · have := h.nsmul (idx / l.length) (l.getD (idx % l.length) 0)
    rwa [smul_eq_mul, eq_iff_iff, iff_true_right hp] at this
  · rw [count_add_mul h, hcount, Nat.count, List.countP_eq_length_filter, hl, Nat.mod_add_div']

end OaiNr
