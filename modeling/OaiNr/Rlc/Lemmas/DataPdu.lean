import OaiNr.Rlc.AmTx
import OaiNr.Rlc.Lemmas.Codec

/-!
# Data PDUs on the wire
-/

namespace OaiNr.Rlc

open OaiNr.Bits

def dataHeader (snFieldLength : Nat) (p isFirst isLast : Bool) (sn so : Nat) : List Bool :=
  [true] ++ ([p] ++ ([!isFirst, !isLast] ++ ((if snFieldLength = 18 then [false, false] else []) ++
    (toBits snFieldLength sn ++ if isFirst then [] else toBits 16 so))))

def siOf (isFirst isLast : Bool) : Int := 2 * (!isFirst).toNat + (!isLast).toNat

namespace Am

variable {e : Am} {buffer data : List UInt8} {p isFirst isLast : Bool} {sn so : Nat}

theorem putHeader_eq (e : Am) (x : Segment) (n : Encoder) : e.putHeader x n = n.putList
      (dataHeader e.snFieldLength false x.isFirst x.isLast (e.snOf x).toNat x.so.toNat) := by
  have hbit : ∀ b : Bool, toBits 1 (if b then 0 else 1 : Int).toNat = [!b] := by decide
  have hres : ∀ n : Encoder, (if e.snFieldLength = 18 then n.putBits 0 2 else n) =
      n.putList (if e.snFieldLength = 18 then [false, false] else []) := by
    intro n
    split
    · rw [Encoder.putBits_eq]
      rfl
    · rfl
  have hso : ∀ n : Encoder, (if x.isFirst then n else n.putBits x.so 16) =
      n.putList (if x.isFirst then [] else toBits 16 x.so.toNat) := by
    intro n
    split
    · rfl
    · exact Encoder.putBits_eq ..
  have hdc : n.putBits 1 1 = n.putList [true] := Encoder.putBits_eq ..
  have hp : ∀ n : Encoder, n.putBits 0 1 = n.putList [false] := fun n => Encoder.putBits_eq ..
  have hsi : [!x.isFirst, !x.isLast] = [!x.isFirst] ++ [!x.isLast] := rfl
  rw [putHeader, hdc, hp, Encoder.putBits_eq _ (if x.isFirst then 0 else 1), hbit,
    Encoder.putBits_eq _ (if x.isLast then 0 else 1), hbit, hres, Encoder.putBits_eq _ (e.snOf x), hso, dataHeader, hsi]
  simp only [Encoder.putList_append]

theorem length_dataHeader_le (p isFirst isLast : Bool) (sn so : Nat) {k : Nat} (hk : 4 ≤ k) :
    8 ≤ (dataHeader k p isFirst isLast sn so).length := by
  simp only [dataHeader, List.length_append, length_toBits, List.length_cons, List.length_nil]
  omega

theorem serializeSdu_size_pos {x : Segment} {r : Am × List UInt8 × Nat} (hlen : 4 ≤ e.snFieldLength)
    (h : e.serializeSdu x buffer p = .ok r) : r.2.2 ≠ 0 := by
  have hpos : (e.putHeader x (.init buffer)).full = false → (e.putHeader x (.init buffer)).byte ≠ 0 := by
    intro hf
    rw [putHeader_eq] at hf ⊢
    have hle := length_dataHeader_le false x.isFirst x.isLast (e.snOf x).toNat x.so.toNat hlen
    obtain ⟨h1, h2⟩ := Encoder.putList_pos (n := .init buffer) (by simp [Encoder.init]) hf
    intro hz
    rw [hz] at h1
    omega
  simp only [serializeSdu] at h
  split at h
  · cases h
  · rename_i hfull
    have hb := hpos (by simpa using hfull)
    split at h
    · cases h
      simp only
      omega
    · cases h
      simp only
      omega

theorem drop_byte_of_rest {d : Decoder} (h : d.Ok) (hr : d.rest = bits data) : d.buffer.drop d.byte = data := by
  obtain ⟨hb, hz⟩ := Decoder.byte_eq h (k := data.length) (by rw [hr, length_bits])
  apply bits_injective
  rw [← hr, Decoder.rest, hz, Nat.add_zero, drop_bits]

end Am

end OaiNr.Rlc
