import Mathlib.Data.Nat.Bitwise

/-!
# Arrays of words as bit strings

An array of words of `w` bits is a string of bits, the lowest bit of a word first. A word that is written at
any bit goes to two words of the array.
-/

namespace OaiNr.WordArray

def IsSet (w : Nat) (a : Nat → Nat) (p : Nat) : Prop := (a (p / w)).testBit (p % w) = true

def orWord (w : Nat) (a : Nat → Nat) (q b word : Nat) : Nat → Nat :=
  let low := Function.update a q (a q ||| word * 2 ^ b % 2 ^ w)
  Function.update low (q + 1) (low (q + 1) ||| word / 2 ^ (w - b))

variable {w q b word p : Nat} {a : Nat → Nat}

theorem isSet_zero (w p : Nat) : ¬ IsSet w (fun _ => 0) p := by
  simp [IsSet]

theorem isSet_orWord (hb : b < w) (hword : word < 2 ^ w) :
    IsSet w (orWord w a q b word) p ↔ IsSet w a p ∨ q * w + b ≤ p ∧ word.testBit (p - (q * w + b)) = true := by
  have hw : 0 < w := Nat.zero_lt_of_lt hb
  have hp : p / w * w + p % w = p := Nat.div_add_mod' p w
  have hmod : p % w < w := Nat.mod_lt p hw
  have hbig : ∀ i, w ≤ i → word.testBit i = false := fun i hi =>
    Nat.testBit_lt_two_pow (Nat.lt_of_lt_of_le hword (Nat.pow_le_pow_right (by decide) hi))
  unfold IsSet orWord
  rcases Nat.lt_trichotomy (p / w) q with hlt | heq | hgt
  · -- before the word
    have hbefore : p < q * w := by
      have hle : (p / w + 1) * w ≤ q * w := Nat.mul_le_mul_right w hlt
      rw [Nat.succ_mul] at hle
      omega
    rw [Function.update_of_ne (by omega), Function.update_of_ne (by omega)]
    exact ⟨.inl, fun h => h.resolve_right fun h => by omega⟩
  · -- in the first of the two words
    subst heq
    have hdiff : p - (p / w * w + b) = p % w - b := by omega
    have hle : p / w * w + b ≤ p ↔ b ≤ p % w := by omega
    rw [Function.update_of_ne (by omega), Function.update_self, Nat.testBit_or, Bool.or_eq_true,
      Nat.testBit_mod_two_pow, Nat.testBit_mul_two_pow, hdiff, hle]
    simp [hmod]
  · rcases Nat.lt_or_ge (q + 1) (p / w) with hafter | hsecond
    · -- behind both words
      have hle : (q + 2) * w ≤ p / w * w := Nat.mul_le_mul_right w hafter
      rw [Nat.add_mul] at hle
      rw [Function.update_of_ne (by omega), Function.update_of_ne (by omega)]
      refine ⟨.inl, fun h => h.resolve_right fun h => ?_⟩
      rw [hbig _ (by omega)] at h
      exact Bool.false_ne_true h.2
    · -- in the second one
      have heq : p / w = q + 1 := by omega
      rw [heq, Nat.succ_mul] at hp
      have hdiff : p - (q * w + b) = p % w + (w - b) := by omega
      have hle : q * w + b ≤ p := by omega
      rw [heq, Function.update_self, Function.update_of_ne (by omega), Nat.testBit_or, Bool.or_eq_true,
        Nat.testBit_div_two_pow, hdiff]
      simp [hle]

end OaiNr.WordArray
