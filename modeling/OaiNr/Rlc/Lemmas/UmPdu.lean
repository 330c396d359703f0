import OaiNr.Rlc.Lemmas.DataPdu
import OaiNr.Rlc.UmTx

/-!
# UM PDUs on the wire
-/

namespace OaiNr.Rlc

open List OaiNr.Bits

def umHeader (snFieldLength : Nat) (isFirst isLast : Bool) (sn so : Nat) : List Bool :=
  [!isFirst, !isLast] ++ ((if isFirst && isLast then toBits 6 0
    else (if snFieldLength = 12 then [false, false] else []) ++ toBits snFieldLength sn) ++
      if isFirst then [] else toBits 16 so)

namespace Um

variable {e : Um} {x : UmSegment} {buffer data : List UInt8} {isFirst isLast : Bool} {sn so : Nat}

def SnValid (e : Um) : Prop := e.snFieldLength = 6 ∨ e.snFieldLength = 12

theorem putHeader_eq (e : Um) (x : UmSegment) (sn : Int) (n : Encoder) : e.putHeader x sn n =
      n.putList (umHeader e.snFieldLength x.isFirst x.isLast sn.toNat x.so) := by
  have hbit : ∀ b : Bool, toBits 1 (if b then 0 else 1 : Int).toNat = [!b] := by decide
  have hres : ∀ n : Encoder, (if e.snFieldLength = 12 then n.putBits 0 2 else n) =
      n.putList (if e.snFieldLength = 12 then [false, false] else []) := by
    intro n
    split
    · rw [Encoder.putBits_eq]
      rfl
    · rfl
  have hsn : ∀ n : Encoder, (if x.isFirst ∧ x.isLast then n.putBits 0 6
      else (if e.snFieldLength = 12 then n.putBits 0 2 else n).putBits sn e.snFieldLength) =
        n.putList (if x.isFirst && x.isLast then toBits 6 0
          else (if e.snFieldLength = 12 then [false, false] else []) ++
            toBits e.snFieldLength sn.toNat) := by
    intro n
    rw [hres, Encoder.putBits_eq, Encoder.putBits_eq, ← Encoder.putList_append]
    cases x.isFirst <;> cases x.isLast <;> rfl
  have hso : ∀ n : Encoder, (if x.isFirst then n else n.putBits x.so 16) =
      n.putList (if x.isFirst then [] else toBits 16 x.so) := by
    intro n
    split
    · rfl
    · exact Encoder.putBits_eq ..
  have hsi : [!x.isFirst, !x.isLast] = [!x.isFirst] ++ [!x.isLast] := rfl
  simp only [putHeader]
  rw [Encoder.putBits_eq _ (if x.isFirst then 0 else 1), hbit,
    Encoder.putBits_eq _ (if x.isLast then 0 else 1), hbit, hsn, hso, umHeader, hsi]
  simp only [Encoder.putList_append]

theorem length_umHeader (h : e.SnValid) (x : UmSegment) (sn : Nat) :
    (umHeader e.snFieldLength x.isFirst x.isLast sn x.so).length = 8 * e.computePduHeaderSize x := by
  rw [umHeader, computePduHeaderSize]
  rcases h with h | h <;> rw [h] <;> cases x.isFirst <;> cases x.isLast <;> simp

theorem length_payload (h : x.so + x.size ≤ x.data.length) : (payload x).length = x.size := by
  rw [payload, length_take, length_drop]
  omega

theorem serializeSdu_ok (h : e.SnValid) (hx : x.so + x.size ≤ x.data.length)
    (hfit : e.computePduHeaderSize x + x.size ≤ buffer.length) (sn : Int) :
    ∃ out, e.serializeSdu x sn buffer = .ok (out, e.computePduHeaderSize x + x.size) ∧ out.length = buffer.length ∧
      bits (out.take (e.computePduHeaderSize x + x.size)) =
        umHeader e.snFieldLength x.isFirst x.isLast sn.toNat x.so ++ bits (payload x) := by
  obtain ⟨hbyte, -, hfull, hlen, hbits, -⟩ := Encoder.putList_init buffer (length_umHeader h x sn.toNat)
    (Nat.le_trans (Nat.le_add_right _ _) hfit)
  have hpay := length_payload hx
  rw [serializeSdu]
  simp only [putHeader_eq, hfull, hbyte, Bool.false_eq_true, if_false]
  refine ⟨_, rfl, ?_, ?_⟩
  · simp only [length_append, length_take, length_drop, hlen, hpay]
    omega
  · have htake : ((((Encoder.init buffer).putList (umHeader e.snFieldLength x.isFirst x.isLast
        sn.toNat x.so)).buffer.take (e.computePduHeaderSize x)) ++ payload x).length =
          e.computePduHeaderSize x + x.size := by
      rw [length_append, length_take, hlen, hpay]
      omega
    rw [take_append_of_le_length (by rw [htake]), take_of_length_le (by rw [htake]), bits_append, hbits]

/-! ## Reading -/

theorem getBits_si (k : Nat) (hb : bits buffer = umHeader k isFirst isLast sn so ++ bits data) :
    ((Decoder.init buffer).getBits 2).1 = siOf isFirst isLast ∧ ((Decoder.init buffer).getBits 2).2.Ok ∧
      ((Decoder.init buffer).getBits 2).2.rest = (if isFirst && isLast then toBits 6 0
        else (if k = 12 then [false, false] else []) ++ toBits k sn) ++
          ((if isFirst then [] else toBits 16 so) ++ bits data) ∧
      ((Decoder.init buffer).getBits 2).2.buffer = buffer := by
  have hr : (Decoder.init buffer).rest = [!isFirst, !isLast] ++ ((if isFirst && isLast then toBits 6 0
      else (if k = 12 then [false, false] else []) ++ toBits k sn) ++
        ((if isFirst then [] else toBits 16 so) ++ bits data)) := by
    rw [Decoder.rest_init, hb, umHeader]
    simp only [append_assoc]
  obtain ⟨h1, h2, h3, h4⟩ := Decoder.getBits_append (n := 2) (Decoder.init_ok buffer) hr rfl
  refine ⟨?_, h2, h3, h4⟩
  rw [h1]
  cases isFirst <;> cases isLast <;> rfl

theorem decide_siOf (isFirst isLast : Bool) :
    decide (siOf isFirst isLast / 2 % 2 = 0) = isFirst ∧ decide (siOf isFirst isLast % 2 = 0) = isLast := by
  cases isFirst <;> cases isLast <;> exact ⟨rfl, rfl⟩

theorem readSegmentHeader_eq (hseg : (isFirst && isLast) = false) (hsn : sn < 2 ^ e.snFieldLength) (hso : so < 2 ^ 16)
    (hb : bits buffer = umHeader e.snFieldLength isFirst isLast sn so ++ bits data) :
    (e.readSegmentHeader isFirst ((Decoder.init buffer).getBits 2).2).1 =
        ((sn : Int), if isFirst then 0 else (so : Int)) ∧
      (e.readSegmentHeader isFirst ((Decoder.init buffer).getBits 2).2).2.error = false ∧
      buffer.drop (e.readSegmentHeader isFirst ((Decoder.init buffer).getBits 2).2).2.byte = data := by
  obtain ⟨-, ok1, rest1, buf1⟩ := getBits_si e.snFieldLength hb
  rw [hseg] at rest1
  simp only [Bool.false_eq_true, if_false, append_assoc] at rest1
  simp only [readSegmentHeader]
  -- the reserved bits are there for a 12-bit SN only
  have hres : ∀ d : Int × Decoder, d = (if e.snFieldLength = 12 then ((Decoder.init buffer).getBits 2).2.getBits 2
        else (0, ((Decoder.init buffer).getBits 2).2)) →
      d.2.Ok ∧ d.2.rest = toBits e.snFieldLength sn ++
        ((if isFirst then [] else toBits 16 so) ++ bits data) ∧ d.2.buffer = buffer := by
    rintro d rfl
    split
    · rename_i h12
      rw [if_pos h12] at rest1
      obtain ⟨-, ok2, rest2, buf2⟩ := Decoder.getBits_append (n := 2) ok1 rest1 rfl
      exact ⟨ok2, rest2, by rw [buf2, buf1]⟩
    · rename_i h12
      rw [if_neg h12] at rest1
      exact ⟨ok1, rest1, buf1⟩
  obtain ⟨ok2, rest2, buf2⟩ := hres _ rfl
  obtain ⟨v3, ok3, rest3, buf3⟩ := Decoder.getBits_append (n := e.snFieldLength) ok2 rest2 (by simp)
  rw [v3, ofBits_toBits_of_lt hsn]
  cases isFirst with
  | true =>
    refine ⟨rfl, ok3.error, ?_⟩
    have := Am.drop_byte_of_rest ok3 (by simpa using rest3)
    rwa [buf3, buf2] at this
  | false =>
    simp only [Bool.false_eq_true, if_false] at rest3 ⊢
    obtain ⟨v4, ok4, rest4, buf4⟩ := Decoder.getBits_append (n := 16) ok3 rest3 (by simp)
    refine ⟨?_, ok4.error, ?_⟩
    · rw [v4, ofBits_toBits_of_lt hso]
    · have := Am.drop_byte_of_rest ok4 rest4
      rwa [buf4, buf3, buf2] at this

theorem recvPdu_whole (fuel : Nat) (hdata : data ≠ [])
    (hb : bits buffer = umHeader e.snFieldLength true true sn so ++ bits data) : buffer.drop 1 = data ∧
      e.recvPdu fuel buffer = .ok ((e.countRxPdu buffer.length).deliverSdu data) := by
  obtain ⟨hsi, ok, -, -⟩ := getBits_si e.snFieldLength hb
  have hdrop : buffer.drop 1 = data := by
    apply bits_injective
    rw [← drop_bits, hb]
    exact drop_left' (by simp [umHeader])
  have hlen : ¬buffer.length < 2 := by
    have := congrArg List.length hdrop
    have hpos := length_pos_iff.mpr hdata
    rw [length_drop] at this
    omega
  refine ⟨hdrop, ?_⟩
  simp only [recvPdu]
  rw [if_neg (by simp [ok.error]), hsi, (decide_siOf true true).1, (decide_siOf true true).2]
  simp only [Bool.and_self, if_true]
  rw [if_neg hlen, hdrop]

theorem recvPdu_segment (fuel : Nat) (hseg : (isFirst && isLast) = false) (hsn : sn < 2 ^ e.snFieldLength)
    (hso : so < 2 ^ 16) (hb : bits buffer = umHeader e.snFieldLength isFirst isLast sn so ++ bits data) :
    e.recvPdu fuel buffer = (e.countRxPdu buffer.length).recvSegment fuel sn
      (if isFirst then 0 else so) isFirst isLast data buffer.length := by
  obtain ⟨hsi, ok, -, -⟩ := getBits_si e.snFieldLength hb
  obtain ⟨hf, herr, hdata⟩ := readSegmentHeader_eq (e := e.countRxPdu buffer.length) hseg hsn hso hb
  simp only [recvPdu]
  rw [if_neg (by simp [ok.error]), hsi, (decide_siOf isFirst isLast).1, (decide_siOf isFirst isLast).2,
    if_neg (by simp [hseg]), if_neg (by simp [herr]), hf, hdata]

theorem recvPdu_whole_nil (fuel : Nat) (hb : bits buffer = umHeader e.snFieldLength true true sn so) :
    e.recvPdu fuel buffer = .ok ((e.countRxPdu buffer.length).discardPdu buffer.length) := by
  have hb' : bits buffer = umHeader e.snFieldLength true true sn so ++ bits [] := by
    rw [hb]
    exact (append_nil _).symm
  obtain ⟨hsi, ok, -, -⟩ := getBits_si e.snFieldLength hb'
  have hlen : buffer.length < 2 := by
    have := congrArg List.length hb
    simp [umHeader] at this
    omega
  simp only [recvPdu]
  rw [if_neg (by simp [ok.error]), hsi, (decide_siOf true true).1, (decide_siOf true true).2]
  simp only [Bool.and_self, if_true]
  rw [if_pos hlen]

theorem pduPayload_eq (hsn : sn < 2 ^ e.snFieldLength) (hso : so < 2 ^ 16)
    (hb : bits buffer = umHeader e.snFieldLength isFirst isLast sn so ++ bits data) : e.pduPayload buffer = data := by
  obtain ⟨hsi, -, -, -⟩ := getBits_si e.snFieldLength hb
  simp only [pduPayload]
  rw [hsi, (decide_siOf _ _).1, (decide_siOf _ _).2]
  split
  · rename_i hwhole
    obtain ⟨hf, hl⟩ := Bool.and_eq_true_iff.mp hwhole
    apply bits_injective
    rw [← drop_bits, hb]
    exact drop_left' (by simp [umHeader, hf, hl])
  · rename_i hseg
    exact (readSegmentHeader_eq (Bool.eq_false_of_not_eq_true hseg) hsn hso hb).2.2

end Um

end OaiNr.Rlc
