import OaiNr.Rlc.Lemmas.Codec
import OaiNr.Rlc.Lemmas.SegOrder

/-!
# What the first pass over a control PDU accepts
-/

namespace OaiNr.Rlc.Am

variable {e : Am} {ackSn : Int} {d : Decoder} {fuel : Nat} {buffer : List UInt8} {n : Nack}

def CompleteNacks (e : Am) : Nat → Decoder → Prop
  | 0, _ => False
  | fuel + 1, d =>
    (e.readNack d).2.error = false ∧
      ((e.readNack d).1.e1 ≠ 0 → CompleteNacks e fuel (e.readNack d).2)

def Complete (e : Am) (buffer : List UInt8) : Prop :=
  (e.readHeader (.init buffer)).2.error = false ∧
    ((e.readHeader (.init buffer)).1.2.2 ≠ 0 →
      e.CompleteNacks (buffer.length + 1) (e.readHeader (.init buffer)).2)

def nacksOf (e : Am) (buffer : List UInt8) : List Nack := (e.nackBlocks buffer).flatMap e.expand

def cptOf (e : Am) (buffer : List UInt8) : Int := (e.readHeader (.init buffer)).1.1

theorem badNack_iff : e.BadNack (-1) 0 ackSn n ↔ e.modulusTx ackSn < e.modulusTx n.sn := by
  simp only [BadNack, snCompareTx]
  omega

theorem validateNacks_iff : e.validateNacks ackSn fuel d = true ↔ e.CompleteNacks fuel d ∧
      ∀ n ∈ (e.readNacks fuel d).flatMap e.expand, e.modulusTx n.sn ≤ e.modulusTx ackSn := by
  induction fuel generalizing d with
  | zero => simp [validateNacks, CompleteNacks]
  | succ fuel ih =>
    simp only [validateNacks, CompleteNacks, readNacks, badNack_iff]
    cases herr : (e.readNack d).2.error with
    | true => simp
    | false =>
      by_cases hbad : ∃ m ∈ e.expand (e.readNack d).1, e.modulusTx ackSn < e.modulusTx m.sn
      · obtain ⟨m, hm, hlt⟩ := hbad
        have hmem : m ∈ (if (e.readNack d).1.e1 ≠ 0
            then (e.readNack d).1 :: e.readNacks fuel (e.readNack d).2
            else [(e.readNack d).1]).flatMap e.expand := by
          split <;> simp [hm]
        rw [if_neg (by simp), if_pos ⟨m, hm, hlt⟩]
        simp only [Bool.false_eq_true, false_iff, not_and]
        intro _ hall
        have := hall m hmem
        omega
      · have hgood : ∀ m ∈ e.expand (e.readNack d).1, e.modulusTx m.sn ≤ e.modulusTx ackSn := by
          simpa using hbad
        rw [if_neg (by simp), if_neg hbad]
        by_cases he1 : (e.readNack d).1.e1 = 0
        · simpa [he1] using hgood
        · rw [if_pos he1, if_pos he1, ih]
          simp only [List.flatMap_cons, List.mem_append]
          constructor
          · rintro ⟨hc, hall⟩
            refine ⟨⟨trivial, fun _ => hc⟩, fun m hm => ?_⟩
            rcases hm with hm | hm
            · exact hgood m hm
            · exact hall m hm
          · rintro ⟨⟨_, hc⟩, hall⟩
            exact ⟨hc he1, fun m hm => hall m (.inr hm)⟩

theorem validateControlPdu_iff : e.validateControlPdu buffer = true ↔ e.Complete buffer ∧ e.cptOf buffer = 0 ∧
      e.modulusTx (e.ackSnOf buffer) ≤ e.modulusTx e.txNext ∧
      ∀ n ∈ e.nacksOf buffer, e.modulusTx n.sn ≤ e.modulusTx (e.ackSnOf buffer) := by
  simp only [validateControlPdu, Complete, cptOf, ackSnOf, nacksOf, nackBlocks, snCompareTx]
  cases herr : (e.readHeader (.init buffer)).2.error with
  | true => simp
  | false =>
    by_cases hcpt : (e.readHeader (.init buffer)).1.1 = 0
    · by_cases hack : e.modulusTx (e.readHeader (.init buffer)).1.2.1 ≤ e.modulusTx e.txNext
      · by_cases he1 : (e.readHeader (.init buffer)).1.2.2 = 0
        · simp [hcpt, hack, he1]
        · simp [hcpt, hack, he1, validateNacks_iff]
      · simp [hcpt, hack]
    · simp [hcpt]

/-! ## The decoded values -/

theorem ackSnOf_range (h : e.Complete buffer) : 0 ≤ e.ackSnOf buffer ∧ e.ackSnOf buffer < 2 ^ e.snFieldLength := by
  have herr := h.1
  simp only [readHeader] at herr
  exact Decoder.getBits_range (Decoder.error_of_getBits (Decoder.error_of_getBits herr))

theorem readRange_range {e3 : Int} (h : (readRange d e3).2.error = false) :
    d.error = false ∧ 0 ≤ (readRange d e3).1 ∧ (readRange d e3).1 < 2 ^ 8 := by
  rw [readRange] at h ⊢
  split at h
  · rw [if_pos ‹_›]
    exact ⟨Decoder.error_of_getBits h, Decoder.getBits_range h⟩
  · rw [if_neg ‹_›]
    exact ⟨h, by simp, by simp⟩

theorem error_of_readSo {e2 : Int} (h : (readSo d e2).2.error = false) : d.error = false := by
  rw [readSo] at h
  split at h
  · exact Decoder.error_of_getBits (Decoder.error_of_getBits h)
  · exact h

theorem readNack_range (h : (e.readNack d).2.error = false) :
    (0 ≤ (e.readNack d).1.nackSn ∧ (e.readNack d).1.nackSn < 2 ^ e.snFieldLength) ∧
      0 ≤ (e.readNack d).1.range ∧ (e.readNack d).1.range < 2 ^ 8 := by
  -- an error of an earlier read would have stayed
  obtain ⟨hso, hrange⟩ := readRange_range h
  have hr := error_of_readSo hso
  exact ⟨Decoder.getBits_range (Decoder.error_of_getBits (Decoder.error_of_getBits
    (Decoder.error_of_getBits (Decoder.error_of_getBits hr)))), hrange⟩

theorem readNacks_range (h : e.CompleteNacks fuel d) {b : NackBlock} (hb : b ∈ e.readNacks fuel d) :
    (0 ≤ b.nackSn ∧ b.nackSn < 2 ^ e.snFieldLength) ∧ 0 ≤ b.range ∧ b.range < 2 ^ 8 := by
  induction fuel generalizing d with
  | zero => simp [readNacks] at hb
  | succ fuel ih =>
    simp only [readNacks] at hb
    split at hb
    · rename_i he1
      rcases List.mem_cons.mp hb with rfl | hb
      · exact readNack_range h.1
      · exact ih (h.2 he1) hb
    · rw [List.mem_singleton.mp hb]
      exact readNack_range h.1

theorem nackBlocks_range (h : e.Complete buffer) {b : NackBlock} (hb : b ∈ e.nackBlocks buffer) :
    (0 ≤ b.nackSn ∧ b.nackSn < 2 ^ e.snFieldLength) ∧ 0 ≤ b.range ∧ b.range < 2 ^ 8 := by
  simp only [nackBlocks] at hb
  split at hb
  · exact readNacks_range (h.2 ‹_›) hb
  · simp at hb

theorem expand_snOk (hpos : 0 < e.snModulus) {b : NackBlock} (h : n ∈ e.expand b) : e.SnOk n.sn := by
  simp only [expand, List.mem_map] at h
  obtain ⟨i, -, rfl⟩ := h
  exact ⟨Int.emod_nonneg _ (by omega), Int.emod_lt_of_pos _ hpos⟩

theorem expand_head {b : NackBlock} (hb : e.SnOk b.nackSn) (hr : 0 < b.range) : ∃ n ∈ e.expand b, n.sn = b.nackSn := by
  refine ⟨_, List.mem_map.mpr ⟨0, List.mem_range.mpr (by omega), rfl⟩, ?_⟩
  simp only [Nat.cast_zero, Int.add_zero]
  exact Int.emod_eq_of_lt hb.1 hb.2

theorem nacksOf_snOk (hpos : 0 < e.snModulus) (h : n ∈ e.nacksOf buffer) : e.SnOk n.sn := by
  obtain ⟨b, -, hn⟩ := List.mem_flatMap.mp h
  exact expand_snOk hpos hn

/-! ## What decoding depends on -/

section Congr

variable {e' : Am} (hlen : e'.snFieldLength = e.snFieldLength)
include hlen

theorem readNack_congr : e'.readNack d = e.readNack d := by
  simp only [readNack, hlen]

theorem readNacks_congr : e'.readNacks fuel d = e.readNacks fuel d := by
  induction fuel generalizing d with
  | zero => rfl
  | succ fuel ih => simp only [readNacks, readNack_congr hlen, ih]

theorem completeNacks_congr : e'.CompleteNacks fuel d ↔ e.CompleteNacks fuel d := by
  induction fuel generalizing d with
  | zero => rfl
  | succ fuel ih => simp only [CompleteNacks, readNack_congr hlen, ih]

theorem readHeader_congr : e'.readHeader d = e.readHeader d := by
  simp only [readHeader, hlen]

theorem complete_congr : e'.Complete buffer ↔ e.Complete buffer := by
  simp only [Complete, readHeader_congr hlen, completeNacks_congr hlen]

theorem nackBlocks_congr : e'.nackBlocks buffer = e.nackBlocks buffer := by
  simp only [nackBlocks, readHeader_congr hlen, readNacks_congr hlen]

theorem ackSnOf_congr : e'.ackSnOf buffer = e.ackSnOf buffer := by
  rw [ackSnOf, ackSnOf, readHeader_congr hlen]

theorem cptOf_congr : e'.cptOf buffer = e.cptOf buffer := by
  rw [cptOf, cptOf, readHeader_congr hlen]

theorem nacksOf_congr (hmod : e'.snModulus = e.snModulus) : e'.nacksOf buffer = e.nacksOf buffer := by
  have hexp : e'.expand = e.expand := funext fun b => by rw [expand, expand, hmod]
  rw [nacksOf, nacksOf, nackBlocks_congr hlen, hexp]

theorem validateControlPdu_congr (hmod : e'.snModulus = e.snModulus) (hack : e'.txNextAck = e.txNextAck)
    (hnext : e'.txNext = e.txNext) : e'.validateControlPdu buffer = e.validateControlPdu buffer := by
  have hm : ∀ a, e'.modulusTx a = e.modulusTx a := fun a => by rw [modulusTx, modulusTx, hmod, hack]
  rw [Bool.eq_iff_iff, validateControlPdu_iff, validateControlPdu_iff, complete_congr hlen,
    cptOf_congr hlen, ackSnOf_congr hlen, nacksOf_congr hlen hmod, hnext]
  simp only [hm]

end Congr

end OaiNr.Rlc.Am
