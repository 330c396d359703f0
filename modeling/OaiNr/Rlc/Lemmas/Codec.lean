import OaiNr.Lib.Bits
import OaiNr.Rlc.Pdu

/-!
# The bit codec reads and writes bit strings

`Decoder.rest` is what a decoder has not read yet, `Encoder.written` what an encoder has written.
Reading takes bits off the front of `rest`, writing puts them behind `written`.
-/

namespace OaiNr.Rlc

open List OaiNr.Bits

namespace Decoder

def rest (d : Decoder) : List Bool := (bits d.buffer).drop (8 * d.byte + d.bit)

structure Ok (d : Decoder) : Prop where
  bit_lt : d.bit < 8
  error : d.error = false
  le : 8 * d.byte + d.bit ≤ 8 * d.buffer.length

variable {d : Decoder} {b : Bool} {r l : List Bool} {n : Nat}

theorem init_ok (buffer : List UInt8) : (init buffer).Ok := ⟨by simp [init], rfl, by simp [init]⟩

theorem rest_init (buffer : List UInt8) : (init buffer).rest = bits buffer := rfl

theorem length_rest (d : Decoder) : d.rest.length = 8 * d.buffer.length - (8 * d.byte + d.bit) := by
  rw [rest, length_drop, length_bits]

theorem rest_eq_cons (h : d.Ok) (hlt : d.byte < d.buffer.length) :
    d.rest = (d.buffer.getD d.byte 0).toNat.testBit (7 - d.bit) :: (bits d.buffer).drop (8 * d.byte + d.bit + 1) := by
  have hdrop : d.buffer.drop d.byte = d.buffer.getD d.byte 0 :: d.buffer.drop (d.byte + 1) := by
    rw [drop_eq_getElem_cons hlt, getD_eq_getElem _ _ hlt]
  have hb := h.bit_lt
  rw [rest, Nat.add_assoc, ← drop_drop, ← drop_drop, drop_bits, hdrop, bits_cons,
    drop_append_of_le_length (by simp; omega), drop_append_of_le_length (by simp; omega), drop_toBits hb]
  rfl

theorem getBit_cons (h : d.Ok) (hr : d.rest = b :: r) :
    d.getBit.1 = b.toNat ∧ d.getBit.2.Ok ∧ d.getBit.2.rest = r ∧ d.getBit.2.buffer = d.buffer := by
  have hlen := d.length_rest
  rw [hr, length_cons] at hlen
  have hb := h.bit_lt
  have hle := h.le
  have hlt : d.byte < d.buffer.length := by omega
  have hcons := rest_eq_cons h hlt
  rw [hr] at hcons
  obtain ⟨rfl, rfl⟩ := List.cons.inj hcons
  rw [getBit, if_neg (by omega)]
  refine ⟨?_, ?_, ?_, ?_⟩
  · rw [Nat.toNat_testBit]
  · split
    · exact ⟨by simp, h.error, by simp only; omega⟩
    · exact ⟨by simp only; omega, h.error, by simp only; omega⟩
  · split
    · rw [rest]
      congr 1
      simp only
      omega
    · rfl
  · split <;> rfl

theorem getBitsFrom_append (h : d.Ok) (hr : d.rest = l ++ r) (acc : Nat) :
    (getBitsFrom l.length acc d).1 = ofBitsFrom acc l ∧ (getBitsFrom l.length acc d).2.Ok ∧
      (getBitsFrom l.length acc d).2.rest = r ∧ (getBitsFrom l.length acc d).2.buffer = d.buffer := by
  induction l generalizing d acc with
  | nil => exact ⟨rfl, h, hr, rfl⟩
  | cons b l ih =>
    obtain ⟨h1, h2, h3, h4⟩ := getBit_cons h hr
    have ih := ih h2 h3 (2 * acc + b.toNat)
    simp only [length_cons, getBitsFrom, h2.error, Bool.false_eq_true, ↓reduceIte, h1, ofBitsFrom]
    push_cast at ih
    rw [h4] at ih
    exact ih

theorem getBits_append (h : d.Ok) (hr : d.rest = l ++ r) (hl : l.length = n) :
    (d.getBits n).1 = ofBits l ∧ (d.getBits n).2.Ok ∧ (d.getBits n).2.rest = r ∧ (d.getBits n).2.buffer = d.buffer := by
  subst hl
  exact getBitsFrom_append h hr 0

theorem byte_eq (h : d.Ok) {k : Nat} (hr : d.rest.length = 8 * k) : d.byte = d.buffer.length - k ∧ d.bit = 0 := by
  have hlen := d.length_rest
  have hb := h.bit_lt
  have hle := h.le
  omega

/-! ## Ranges and errors -/

theorem getBitsFrom_range {count : Nat} {ret : Int} {d : Decoder} (h : (getBitsFrom count ret d).2.error = false) :
    ret * 2 ^ count ≤ (getBitsFrom count ret d).1 ∧ (getBitsFrom count ret d).1 < (ret + 1) * 2 ^ count := by
  induction count generalizing ret d with
  | zero => simp [getBitsFrom]
  | succ count ih =>
    simp only [getBitsFrom] at h ⊢
    split
    · rename_i herr
      simp [herr] at h
    · rename_i herr
      simp only [herr] at h
      have hb : d.getBit.1 < 2 := by
        rw [getBit]
        split
        · simp
        · exact Nat.mod_lt _ (by omega)
      obtain ⟨h1, h2⟩ := ih h
      rw [pow_succ]
      constructor
      · nlinarith
      · nlinarith

theorem getBits_range {d : Decoder} {count : Nat} (h : (d.getBits count).2.error = false) :
    0 ≤ (d.getBits count).1 ∧ (d.getBits count).1 < 2 ^ count := by
  simpa [getBits] using getBitsFrom_range h

theorem getBit_error {d : Decoder} (h : d.error) : d.getBit.2.error := by
  rw [getBit]
  split
  · rfl
  · split <;> exact h

theorem getBits_error {d : Decoder} (count : Nat) (h : d.error) : (d.getBits count).2.error := by
  suffices ∀ ret, (getBitsFrom count ret d).2.error from this 0
  cases count with
  | zero => exact fun _ => h
  | succ count =>
    intro ret
    simp only [getBitsFrom, getBit_error h, ↓reduceIte]

theorem error_of_getBits {d : Decoder} {count : Nat} (h : (d.getBits count).2.error = false) : d.error = false := by
  by_contra hc
  exact absurd (getBits_error count (by simpa using hc)) (by simp [h])

end Decoder

namespace Encoder

def written (n : Encoder) : List Bool :=
  bits (n.buffer.take n.byte) ++ toBits n.bit (n.buffer.getD n.byte 0).toNat

def putList (n : Encoder) : List Bool → Encoder
  | [] => n
  | b :: l => (n.putBit b).putList l

variable {n : Encoder} {b : Bool} {l m : List Bool}

theorem putBits_eq (n : Encoder) (value : Int) (count : Nat) :
    n.putBits value count = n.putList (toBits count value.toNat) := by
  induction count generalizing n with
  | zero => rfl
  | succ count ih => rw [putBits, ih, toBits, putList]

theorem putList_append (n : Encoder) (l m : List Bool) : n.putList (l ++ m) = (n.putList l).putList m := by
  induction l generalizing n with
  | nil => rfl
  | cons b l ih => exact ih _

structure Wrote (n : Encoder) (l : List Bool) (n' : Encoder) : Prop where
  written : n'.written = n.written ++ l
  length : n'.buffer.length = n.buffer.length
  full : n'.full = n.full
  bit_lt : n'.bit < 8
  pos : 8 * n'.byte + n'.bit = 8 * n.byte + n.bit + l.length
  drop : ∀ k, n'.byte < k ∨ (n'.byte = k ∧ n'.bit = 0) → n'.buffer.drop k = n.buffer.drop k

theorem shiftIn_toNat (x : UInt8) (b : Bool) :
    (x <<< 1 ||| (if b then 1 else 0)).toNat = (2 * x.toNat + b.toNat) % 2 ^ 8 := by
  have h : ∀ b : Bool, ∀ x : BitVec 8,
      (x <<< 1 ||| (if b then 1#8 else 0#8)).toNat = (2 * x.toNat + b.toNat) % 2 ^ 8 := by
    decide
  have := h b x.toBitVec
  cases b <;> simpa using this

theorem putBit_wrote (hb : n.bit < 8) (hlt : n.byte < n.buffer.length) : n.Wrote [b] (n.putBit b) := by
  have hx := shiftIn_toNat (n.buffer.getD n.byte 0) b
  have hbits : toBits (n.bit + 1) (n.buffer.getD n.byte 0 <<< 1 ||| (if b then 1 else 0)).toNat =
        toBits n.bit (n.buffer.getD n.byte 0).toNat ++ [b] := by
    rw [hx, toBits_mod (by omega), toBits_shift]
  simp only [putBit]
  rw [if_neg (by omega)]
  split
  · rename_i h8
    refine ⟨?_, by simp, rfl, by simp, by simp; omega, fun k hk => ?_⟩
    · have htake : (n.buffer.set n.byte (n.buffer.getD n.byte 0 <<< 1 ||| (if b then 1 else 0))).take (n.byte + 1) =
            n.buffer.take n.byte ++ [n.buffer.getD n.byte 0 <<< 1 ||| (if b then 1 else 0)] := by
        rw [take_set, take_succ_eq_append_getElem hlt, set_append]
        simp [Nat.min_eq_left (Nat.le_of_lt hlt)]
      rw [written, written]
      simp only [toBits, append_nil]
      rw [htake, bits_append, append_assoc, ← hbits, h8]
      simp [bits]
    · simp only at hk
      exact drop_set_of_lt (by omega)
  · refine ⟨?_, by simp, rfl, by simp only; omega, by simp; omega, fun k hk => ?_⟩
    · rw [written, written]
      simp only
      rw [take_set_of_le (Nat.le_refl _), getD_eq_getElem?_getD, List.getElem?_set_self hlt,
        Option.getD_some, hbits, append_assoc]
    · simp only at hk
      exact drop_set_of_lt (by omega)

theorem putList_wrote (hb : n.bit < 8) (hle : 8 * n.byte + n.bit + l.length ≤ 8 * n.buffer.length) :
    n.Wrote l (n.putList l) := by
  induction l generalizing n with
  | nil => exact ⟨by simp [putList], rfl, rfl, hb, rfl, fun _ _ => rfl⟩
  | cons b l ih =>
    rw [length_cons] at hle
    have h1 := putBit_wrote (b := b) hb (by omega)
    have hpos := h1.pos
    have hlen := h1.length
    simp only [length_singleton] at hpos
    have h2 := ih h1.bit_lt (by omega)
    have hpos2 := h2.pos
    refine ⟨?_, h2.length.trans h1.length, h2.full.trans h1.full, h2.bit_lt, ?_, fun k hk => ?_⟩
    · exact h2.written.trans (by rw [h1.written, append_assoc]; rfl)
    · show 8 * ((n.putBit b).putList l).byte + ((n.putBit b).putList l).bit = _
      rw [length_cons]
      omega
    · have hbl := h2.bit_lt
      have hb1 := h1.bit_lt
      rw [← h1.drop k ?_]
      · exact h2.drop k hk
      · change ((n.putBit b).putList l).byte < k ∨
          (((n.putBit b).putList l).byte = k ∧ ((n.putBit b).putList l).bit = 0) at hk
        omega

theorem putBit_full (h : n.full = true) (b : Bool) : (n.putBit b).full = true := by
  simp only [putBit]
  split
  · rfl
  · split <;> exact h

theorem putList_full (h : n.full = true) (l : List Bool) : (n.putList l).full = true := by
  induction l generalizing n with
  | nil => exact h
  | cons b l ih => exact ih (putBit_full h b)

theorem putList_pos (hb : n.bit < 8) (hf : (n.putList l).full = false) :
    8 * (n.putList l).byte + (n.putList l).bit = 8 * n.byte + n.bit + l.length ∧ (n.putList l).bit < 8 := by
  induction l generalizing n with
  | nil => exact ⟨rfl, hb⟩
  | cons b l ih =>
    have hput : (n.putBit b).full = false := by
      by_contra hc
      have := putList_full (by simpa using hc) l
      exact absurd (hf.symm.trans this) (by simp)
    have hpos : 8 * (n.putBit b).byte + (n.putBit b).bit = 8 * n.byte + n.bit + 1 ∧ (n.putBit b).bit < 8 := by
      simp only [putBit] at hput ⊢
      split at hput
      · simp at hput
      · rename_i hne
        rw [if_neg hne]
        split <;> simp only <;> omega
    obtain ⟨h1, h2⟩ := ih hpos.2 hf
    refine ⟨?_, h2⟩
    show 8 * ((n.putBit b).putList l).byte + ((n.putBit b).putList l).bit = _
    rw [h1, hpos.1, length_cons]
    omega

theorem putList_init (buffer : List UInt8) {k : Nat} (hl : l.length = 8 * k) (hle : k ≤ buffer.length) :
    ((init buffer).putList l).byte = k ∧ ((init buffer).putList l).bit = 0 ∧ ((init buffer).putList l).full = false ∧
      ((init buffer).putList l).buffer.length = buffer.length ∧ bits (((init buffer).putList l).buffer.take k) = l ∧
      ((init buffer).putList l).buffer.drop k = buffer.drop k := by
  have h := putList_wrote (n := init buffer) (l := l) (by simp [init]) (by simp [init]; omega)
  have hpos : 8 * ((init buffer).putList l).byte + ((init buffer).putList l).bit = 8 * 0 + 0 + l.length := h.pos
  have hbit := h.bit_lt
  have hbyte : ((init buffer).putList l).byte = k := by omega
  have hbit0 : ((init buffer).putList l).bit = 0 := by omega
  have hw := h.written
  rw [written, hbyte, hbit0] at hw
  refine ⟨hbyte, hbit0, h.full, h.length, by simpa [toBits, written, init, bits] using hw, ?_⟩
  exact h.drop k (.inr ⟨hbyte, hbit0⟩)

end Encoder

end OaiNr.Rlc
