import Mathlib.Data.Nat.Bitwise
import Mathlib.Tactic.Linarith
import Mathlib.Tactic.Ring

/-!
# Bit strings

Numbers and byte strings as lists of bits, the highest bit first.
-/

namespace OaiNr.Bits

/-- The low `n` bits of `v`. -/
def toBits : Nat → Nat → List Bool
  | 0, _ => []
  | n + 1, v => v.testBit n :: toBits n v

/-- The number that a bit string stands for, behind the number `acc`. -/
def ofBitsFrom (acc : Nat) : List Bool → Nat
  | [] => acc
  | b :: l => ofBitsFrom (2 * acc + b.toNat) l

def ofBits (l : List Bool) : Nat := ofBitsFrom 0 l

def bits (l : List UInt8) : List Bool := l.flatMap fun b => toBits 8 b.toNat

variable {n v : Nat} {b : Bool} {l : List Bool}

@[simp] theorem length_toBits (n v : Nat) : (toBits n v).length = n := by
  induction n with
  | zero => rfl
  | succ n ih => simp [toBits, ih]

theorem ofBitsFrom_eq (acc : Nat) (l : List Bool) : ofBitsFrom acc l = acc * 2 ^ l.length + ofBits l := by
  induction l generalizing acc with
  | nil => simp [ofBitsFrom, ofBits]
  | cons b l ih =>
    have hb : ofBits (b :: l) = b.toNat * 2 ^ l.length + ofBits l := by
      show ofBitsFrom (2 * 0 + b.toNat) l = _
      rw [ih, Nat.mul_zero, Nat.zero_add]
    rw [ofBitsFrom, ih, hb, List.length_cons, pow_succ]
    ring

theorem ofBits_cons : ofBits (b :: l) = b.toNat * 2 ^ l.length + ofBits l := by
  rw [ofBits, ofBitsFrom, ofBitsFrom_eq]
  simp

theorem ofBits_toBits (n v : Nat) : ofBits (toBits n v) = v % 2 ^ n := by
  induction n with
  | zero => simp [toBits, ofBits, ofBitsFrom, Nat.mod_one]
  | succ n ih =>
    rw [toBits, ofBits_cons, ih, length_toBits, Nat.toNat_testBit, Nat.mod_pow_succ]
    ring

theorem ofBits_toBits_of_lt (h : v < 2 ^ n) : ofBits (toBits n v) = v := by
  rw [ofBits_toBits, Nat.mod_eq_of_lt h]

theorem toBits_mod {m : Nat} (h : n ≤ m) : toBits n (v % 2 ^ m) = toBits n v := by
  induction n with
  | zero => rfl
  | succ n ih =>
    rw [toBits, toBits, ih (by omega), Nat.testBit_mod_two_pow]
    simp [show n < m by omega]

theorem toBits_shift (n v : Nat) (b : Bool) : toBits (n + 1) (2 * v + b.toNat) = toBits n v ++ [b] := by
  induction n with
  | zero =>
    cases b <;> simp [toBits, Nat.testBit_zero]
  | succ n ih =>
    rw [toBits, ih, toBits]
    have hdiv : (2 * v + b.toNat) / 2 = v := by
      cases b
      · simp
      · simp; omega
    rw [Nat.testBit_succ, hdiv]
    rfl

@[simp] theorem length_bits (l : List UInt8) : (bits l).length = 8 * l.length := by
  induction l with
  | nil => rfl
  | cons b l ih =>
    rw [bits, List.flatMap_cons, List.length_append, length_toBits]
    change 8 + (bits l).length = _
    rw [ih, List.length_cons]
    ring

theorem bits_append (l m : List UInt8) : bits (l ++ m) = bits l ++ bits m := List.flatMap_append

theorem bits_cons (b : UInt8) (l : List UInt8) : bits (b :: l) = toBits 8 b.toNat ++ bits l := rfl

theorem drop_bits (l : List UInt8) (k : Nat) : (bits l).drop (8 * k) = bits (l.drop k) := by
  induction k generalizing l with
  | zero => rfl
  | succ k ih =>
    cases l with
    | nil => simp [bits]
    | cons b l =>
      rw [bits_cons, Nat.mul_succ, Nat.add_comm, ← List.drop_drop, List.drop_left' (by simp), List.drop_succ_cons, ih]

theorem toBits_injective {w : Nat} (hv : v < 2 ^ n) (hw : w < 2 ^ n) (h : toBits n v = toBits n w) : v = w := by
  rw [← ofBits_toBits_of_lt hv, ← ofBits_toBits_of_lt hw, h]

theorem bits_injective : Function.Injective bits := by
  intro l m h
  induction l generalizing m with
  | nil =>
    cases m with
    | nil => rfl
    | cons c m => simp [bits_cons, toBits] at h; exact absurd h (by simp [bits])
  | cons b l ih =>
    cases m with
    | nil => simp [bits_cons, toBits] at h; exact absurd h (by simp [bits])
    | cons c m =>
      rw [bits_cons, bits_cons] at h
      obtain ⟨h1, h2⟩ := List.append_inj h (by simp)
      have hbc : b.toNat = c.toNat := toBits_injective b.toNat_lt c.toNat_lt h1
      rw [UInt8.toNat_inj.mp hbc, ih h2]

theorem drop_toBits {i : Nat} (h : i < n) (v : Nat) :
    (toBits n v).drop i = v.testBit (n - 1 - i) :: (toBits n v).drop (i + 1) := by
  induction n generalizing i with
  | zero => omega
  | succ n ih =>
    cases i with
    | zero => simp [toBits]
    | succ i =>
      rw [toBits, List.drop_succ_cons, List.drop_succ_cons, ih (by omega)]
      congr 2
      omega

end OaiNr.Bits
