import OaiNr.Rlc.Lemmas.UmPdu

/-!
# The transmit queue of a UM entity
-/

namespace OaiNr.Rlc

open OaiNr.Bits

structure UmSegment.Wf (x : UmSegment) : Prop where
  isLast : x.isLast = true
  covers : x.so + x.size = x.data.length
  first : x.isFirst = true → x.so = 0
  rest : x.isFirst = false → 1 ≤ x.so ∧ 1 ≤ x.size
  bound : x.data.length ≤ 16000

structure Cut (x x' next : UmSegment) : Prop where
  head : x' = { x with size := x'.size, isLast := false }
  next : next = { x with size := x.size - x'.size, so := x.so + x'.size, isFirst := false }
  pos : 1 ≤ x'.size
  lt : x'.size < x.size

namespace Um

variable {e e' : Um} {x x' next : UmSegment} {rest : List UmSegment} {buffer out : List UInt8}

structure TxWf (e : Um) : Prop where
  valid : e.SnValid
  modulus : e.snModulus = 2 ^ e.snFieldLength
  txNext_nonneg : 0 ≤ e.txNext
  txNext_lt : e.txNext < e.snModulus
  segment : ∀ y ∈ e.txList, y.Wf
  tail : ∀ y ∈ e.txList.tail, y.isFirst = true

theorem TxWf.txNext_toNat_lt (h : e.TxWf) : e.txNext.toNat < 2 ^ e.snFieldLength := by
  have hlt := h.txNext_lt
  rw [h.modulus] at hlt
  have : (e.txNext.toNat : Int) < ((2 ^ e.snFieldLength : Nat) : Int) := by
    rw [Int.toNat_of_nonneg h.txNext_nonneg]
    simpa using hlt
  exact Int.ofNat_lt.mp this

/-- A whole SDU is at the head of the queue, and the grant has room for the header of a whole SDU but
not for that of a segment. -/
def Starved (e : Um) (grant : Nat) : Prop :=
  ∃ x ∈ e.txList.head?, e.snFieldLength = 12 ∧ x.isFirst = true ∧ 2 ≤ x.size ∧ grant = 2

def Blocked (e : Um) (grant : Nat) : Prop :=
  ∀ x ∈ e.txList.head?, grant < e.computePduHeaderSize x + 1

structure Written (e : Um) (x : UmSegment) (buffer out : List UInt8) : Prop where
  fits : e.computePduHeaderSize x + x.size ≤ buffer.length
  length : out.length = buffer.length
  pdu : bits (out.take (e.computePduHeaderSize x + x.size)) =
    umHeader e.snFieldLength x.isFirst x.isLast e.txNext.toNat x.so ++ bits (payload x)

theorem Written.mk' (h : e.SnValid) (hx : x.so + x.size ≤ x.data.length)
    (hfit : e.computePduHeaderSize x + x.size ≤ buffer.length) : ∃ out, Written e x buffer out ∧
      e.serializeSdu x e.txNext buffer = .ok (out, e.computePduHeaderSize x + x.size) := by
  obtain ⟨out, hout, hlen, hbits⟩ := serializeSdu_ok h hx hfit e.txNext
  exact ⟨out, ⟨hfit, hlen, hbits⟩, hout⟩

theorem payload_cut (h : Cut x x' next) : payload x' ++ payload next = payload x := by
  have hlt := h.lt
  have hsize : x.size = x'.size + (x.size - x'.size) := by omega
  have hx' : payload x' = (x.data.drop x.so).take x'.size := by
    rw [h.head]
    rfl
  have hnext : payload next = ((x.data.drop x.so).drop x'.size).take (x.size - x'.size) := by
    rw [h.next, payload, List.drop_drop]
  have hx : payload x = (x.data.drop x.so).take (x'.size + (x.size - x'.size)) := by
    rw [← hsize]
    rfl
  rw [hx', hnext, hx, List.take_add]

theorem payload_ne_nil (h : x.so + x.size ≤ x.data.length) (hpos : 1 ≤ x.size) : payload x ≠ [] := by
  intro hnil
  have := length_payload h
  rw [hnil, List.length_nil] at this
  omega

theorem headerSize_le (e : Um) (x : UmSegment) :
    e.computePduHeaderSize x ≤ e.computePduHeaderSize { x with isLast := false } := by
  simp only [computePduHeaderSize]
  cases x.isFirst <;> cases x.isLast <;> simp

theorem resegment_some {g : Nat} (hg : g < e.computePduHeaderSize x + x.size) (h : e.resegment x g = some (x', next)) :
    Cut x x' next ∧ e.computePduHeaderSize x' + x'.size = g := by
  have hle := headerSize_le e x
  rw [resegment] at h
  split at h
  · cases h
  · rename_i hroom
    cases h
    refine ⟨⟨rfl, ?_, by simp only; omega, by simp only; omega⟩, ?_⟩
    · simp only [UmSegment.mk.injEq, true_and, and_true]
      omega
    · show e.computePduHeaderSize { x with isLast := false } + (x.size - _) = g
      omega

theorem resegment_none {g : Nat} (h : x.Wf) (hg : e.computePduHeaderSize x + 1 ≤ g)
    (hr : e.resegment x g = none) : e.snFieldLength = 12 ∧ x.isFirst = true ∧ g = 2 := by
  rw [resegment] at hr
  split at hr
  · rename_i hroom
    simp only [computePduHeaderSize, h.isLast] at hg hroom
    cases hf : x.isFirst
    · simp only [hf] at hg hroom
      split at hg <;> simp_all <;> omega
    · simp only [hf] at hg hroom
      by_cases h12 : e.snFieldLength = 12
      · simp only [h12] at hg hroom
        simp at hg hroom
        exact ⟨h12, rfl, by omega⟩
      · simp [h12] at hg hroom
        omega
  · cases hr

theorem generatePdu_spec (h : e.TxWf) (buffer : List UInt8) :
    (¬e.Starved buffer.length ∧ e.Blocked buffer.length ∧ e.generatePdu buffer = .ok (e, buffer, 0)) ∨
    (∃ x rest, e.txList = x :: rest ∧ e.Starved buffer.length ∧
      e.generatePdu buffer = .ok (e.takeHead x rest, buffer, 0)) ∨
    (∃ x rest out, e.txList = x :: rest ∧ ¬e.Starved buffer.length ∧ Written e x buffer out ∧
      e.generatePdu buffer = .ok ((e.takeHead x rest).segmentSent x buffer.length, out,
        e.computePduHeaderSize x + x.size)) ∨ ∃ x rest x' next out, e.txList = x :: rest ∧ ¬e.Starved buffer.length ∧
      buffer.length < e.computePduHeaderSize x + x.size ∧ Cut x x' next ∧ Written e x' buffer out ∧
      e.generatePdu buffer = .ok (((e.takeHead x rest).putBack next).segmentSent x' buffer.length, out,
        e.computePduHeaderSize x' + x'.size) := by
  cases hl : e.txList with
  | nil =>
    refine .inl ⟨fun ⟨x, hx, _⟩ => by simp [hl] at hx, by simp [Blocked, hl], ?_⟩
    rw [generatePdu, hl]
  | cons x rest =>
    have hwf : x.Wf := h.segment x (by rw [hl]; exact List.mem_cons_self)
    have hcov := hwf.covers
    have hstarved : e.Starved buffer.length ↔
        e.snFieldLength = 12 ∧ x.isFirst = true ∧ 2 ≤ x.size ∧ buffer.length = 2 := by
      simp [Starved, hl]
    have hwhole : e.snFieldLength = 12 → x.isFirst = true → e.computePduHeaderSize x = 1 := by
      intro _ hf
      simp [computePduHeaderSize, hf, hwf.isLast]
    rw [generatePdu, hl]
    simp only
    by_cases hsmall : buffer.length < e.computePduHeaderSize x + 1
    · rw [if_pos hsmall]
      refine .inl ⟨fun hs => ?_, by simpa [Blocked, hl] using hsmall, rfl⟩
      obtain ⟨h12, hf, -, hg⟩ := hstarved.mp hs
      have := hwhole h12 hf
      omega
    · rw [if_neg hsmall]
      by_cases hcut : buffer.length < e.computePduHeaderSize x + x.size
      · rw [if_pos hcut]
        cases hseg : e.resegment x buffer.length with
        | none =>
          obtain ⟨h12, hf, hg⟩ := resegment_none hwf (by omega) hseg
          have := hwhole h12 hf
          exact .inr (.inl ⟨x, rest, rfl, hstarved.mpr ⟨h12, hf, by omega, hg⟩, rfl⟩)
        | some p =>
          obtain ⟨x', next⟩ := p
          obtain ⟨hc, hfill⟩ := resegment_some hcut hseg
          have hx' : x'.so + x'.size ≤ x'.data.length := by
            have hlt := hc.lt
            have hso : x'.so = x.so ∧ x'.data = x.data := by
              rw [hc.head]
              exact ⟨rfl, rfl⟩
            rw [hso.1, hso.2]
            omega
          obtain ⟨out, hout, hser⟩ := Written.mk' h.valid hx' (Nat.le_of_eq hfill)
          refine .inr (.inr (.inr ⟨x, rest, x', next, out, rfl, fun hs => ?_, hcut, hc, hout, ?_⟩))
          · -- with a grant of two bytes there would be no room for the first part
            obtain ⟨h12, hf, -, hg⟩ := hstarved.mp hs
            have hlt := hc.pos
            have hfl : x'.isFirst = true ∧ x'.isLast = false := by
              rw [hc.head]
              exact ⟨hf, rfl⟩
            have : e.computePduHeaderSize x' = 2 := by
              simp [computePduHeaderSize, hfl.1, hfl.2, h12]
            omega
          · have hser' : ((e.takeHead x rest).putBack next).serializeSdu x'
                ((e.takeHead x rest).putBack next).txNext buffer =
                .ok (out, e.computePduHeaderSize x' + x'.size) := hser
            simp only [sendSegment, hser']
            rfl
      · rw [if_neg hcut]
        obtain ⟨out, hout, hser⟩ := Written.mk' h.valid (Nat.le_of_eq hcov) (Nat.le_of_not_lt hcut)
        refine .inr (.inr (.inl ⟨x, rest, out, rfl, fun hs => ?_, hout, ?_⟩))
        · obtain ⟨h12, hf, hsz, hg⟩ := hstarved.mp hs
          have := hwhole h12 hf
          omega
        · have hser' : (e.takeHead x rest).serializeSdu x (e.takeHead x rest).txNext buffer =
              .ok (out, e.computePduHeaderSize x + x.size) := hser
          simp only [sendSegment, hser']
          rfl

end Um

end OaiNr.Rlc
