import OaiNr.Rlc.Lemmas.UmReassembly
import OaiNr.Rlc.UmLink

/-!
# What the UM sender puts into the channel
-/

namespace OaiNr.Rlc

open List OaiNr.Bits Um

inductive Genuine (snFieldLength : Nat) (sdus segmented : List (List UInt8)) : Packet → Prop where
  | whole {pdu sdu : List UInt8} {sn so : Nat} :
      sdu ∈ sdus → bits pdu = umHeader snFieldLength true true sn so ++ bits sdu →
      Genuine snFieldLength sdus segmented { pdu, index := none }
  | segment {pdu sdu data : List UInt8} {i so : Nat} {isFirst isLast : Bool} :
      segmented[i]? = some sdu → (isFirst && isLast) = false → data ≠ [] → so < 2 ^ 16 →
      (isFirst = true ↔ so = 0) →
      (∀ sn : Int, PartOf sdu (nrRlcNewPdu sn so isFirst isLast data)) →
      bits pdu = umHeader snFieldLength isFirst isLast (i % 2 ^ snFieldLength) so ++ bits data →
      Genuine snFieldLength sdus segmented { pdu, index := some i }

theorem Genuine.mono {k : Nat} {sdus segmented more more' : List (List UInt8)} {p : Packet}
    (h : Genuine k sdus segmented p) : Genuine k (sdus ++ more) (segmented ++ more') p := by
  cases h with
  | whole hsdu hb => exact .whole (mem_append_left _ hsdu) hb
  | segment hsdu hseg hdata hso hfirst hpart hb =>
    refine .segment ?_ hseg hdata hso hfirst hpart hb
    rw [List.getElem?_append_left (List.getElem?_eq_some_iff.mp hsdu).1]
    exact hsdu

def halfSent : List UmSegment → Nat
  | [] => 0
  | x :: _ => if x.isFirst then 0 else 1

variable {e : Um} {x x' next : UmSegment} {rest : List UmSegment} {buffer out : List UInt8}
  {sdus segmented : List (List UInt8)} {i : Nat}

theorem halfSent_of_first (h : ∀ y ∈ rest, y.isFirst = true) : halfSent rest = 0 := by
  cases rest with
  | nil => rfl
  | cons y rest => exact if_pos (h y mem_cons_self)

theorem partOf_payload (hcov : x.so + x.size ≤ x.data.length)
    (hlast : x.isLast = true → x.so + x.size = x.data.length) (sn : Int) :
    PartOf x.data (nrRlcNewPdu sn x.so x.isFirst x.isLast (payload x)) := by
  have hlen := length_payload hcov
  refine ⟨Int.natCast_nonneg _, fun b hb => ?_, fun b hb => ?_, fun b hb => ?_, fun b hb hl => ?_⟩ <;> cases hb
  · rfl
  · show payload x = _
    rw [hlen]
    rfl
  · rw [hlen]
    exact Int.ofNat_le.mpr hcov
  · rw [hlen]
    exact congrArg Int.ofNat (hlast hl)

theorem genuine_written (hw : Written e x buffer out) (hmod : e.snModulus = 2 ^ e.snFieldLength)
    (hnext : e.txNext = i % e.snModulus) (hsdu : segmented[i]? = some x.data)
    (hseg : (x.isFirst && x.isLast) = false) (hpos : 1 ≤ x.size) (hcov : x.so + x.size ≤ x.data.length)
    (hlast : x.isLast = true → x.so + x.size = x.data.length) (hfirst : x.isFirst = true ↔ x.so = 0)
    (hbound : x.data.length ≤ 16000) : Genuine e.snFieldLength sdus segmented
      { pdu := out.take (e.computePduHeaderSize x + x.size), index := some i } := by
  have hsn : e.txNext.toNat = i % 2 ^ e.snFieldLength := by
    rw [hnext, hmod]
    exact congrArg Int.toNat (Int.natCast_emod i (2 ^ e.snFieldLength)).symm
  refine .segment hsdu hseg (payload_ne_nil hcov hpos) (by omega) hfirst (partOf_payload hcov hlast) ?_
  rw [← hsn]
  exact hw.pdu

namespace UmLink

variable {k k' : UmLink} {sdu : List UInt8} {sduId : Int} {op : Op} {fuel : Nat}

structure SndOk (k : UmLink) : Prop where
  wf : k.snd.TxWf
  queued : ∀ x ∈ k.snd.txList, x.data ∈ k.sdus
  segmented : ∀ sdu ∈ k.segmented, sdu ∈ k.sdus ∧ sdu.length ≤ 16000
  current : ∀ x ∈ k.snd.txList.head?, x.isFirst = false → k.segmented.getLast? = some x.data
  next : k.snd.txNext = ((k.segmented.length - halfSent k.snd.txList : Nat) : Int) % k.snd.snModulus
  sent : ∀ p ∈ k.sent, Genuine k.snd.snFieldLength k.sdus k.segmented p

namespace SndOk

theorem of_outsideRx (h : k.SndOk) {snd : Um} (he : snd.outsideRx = k.snd.outsideRx) :
    ({ k with snd } : UmLink).SndOk := by
  have hl : snd.outsideRx.txList = k.snd.outsideRx.txList := by rw [he]
  have hn : snd.outsideRx.txNext = k.snd.outsideRx.txNext := by rw [he]
  have hm : snd.outsideRx.snModulus = k.snd.outsideRx.snModulus := by rw [he]
  have hk : snd.outsideRx.snFieldLength = k.snd.outsideRx.snFieldLength := by rw [he]
  change snd.txList = k.snd.txList at hl
  change snd.txNext = k.snd.txNext at hn
  change snd.snModulus = k.snd.snModulus at hm
  change snd.snFieldLength = k.snd.snFieldLength at hk
  refine ⟨h.wf.of_outsideRx he, ?_, h.segmented, ?_, ?_, ?_⟩
  · simp only [hl]
    exact h.queued
  · simp only [hl]
    exact h.current
  · simp only [hl, hn, hm]
    exact h.next
  · simp only [hk]
    exact h.sent

theorem of_eq (h : k.SndOk) (hsnd : k'.snd = k.snd) (hsdus : k'.sdus = k.sdus)
    (hseg : k'.segmented = k.segmented) (hsent : k'.sent = k.sent) : k'.SndOk := by
  refine ⟨?_, ?_, ?_, ?_, ?_, ?_⟩ <;> simp only [hsnd, hsdus, hseg, hsent]
  · exact h.wf
  · exact h.queued
  · exact h.segmented
  · exact h.current
  · exact h.next
  · exact h.sent

theorem submit (h : k.SndOk) (hr : k.submit sdu sduId = .ok k') : k'.SndOk := by
  obtain ⟨snd, hs, rfl⟩ := map_eq_ok.mp hr
  have hwf := h.wf.recvSdu hs
  obtain ⟨-, l, s, st, ⟨hfull, rfl⟩ | ⟨hfull, rfl⟩⟩ := recvSdu_cases hs
  · rw [if_pos hfull]
    exact ⟨hwf, h.queued, h.segmented, h.current, h.next, h.sent⟩
  · rw [if_neg hfull]
    have hhead : (k.snd.txList ++ [newSdu sdu sduId]).head? = k.snd.txList.head? ∨ k.snd.txList = [] := by
      cases k.snd.txList with
      | nil => exact .inr rfl
      | cons y l => exact .inl rfl
    have hhalf : halfSent (k.snd.txList ++ [newSdu sdu sduId]) = halfSent k.snd.txList := by
      cases k.snd.txList <;> rfl
    refine ⟨hwf, fun y hy => ?_, fun y hy => ?_, fun y hy hf => ?_, ?_, fun p hp => ?_⟩
    · rcases mem_append.mp hy with hy | hy
      · exact mem_append_left _ (h.queued y hy)
      · rw [mem_singleton.mp hy]
        exact mem_append_right _ (mem_singleton.mpr rfl)
    · exact ⟨mem_append_left _ (h.segmented y hy).1, (h.segmented y hy).2⟩
    · change y ∈ (k.snd.txList ++ [newSdu sdu sduId]).head? at hy
      rcases hhead with hhead | hnil
      · exact h.current y (hhead ▸ hy) hf
      · rw [hnil] at hy
        cases hy
        cases hf
    · show k.snd.txNext = ((k.segmented.length - halfSent (k.snd.txList ++ [newSdu sdu sduId]) : Nat) : Int) % _
      rw [hhalf]
      exact h.next
    · rw [← append_nil k.segmented]
      exact (h.sent p hp).mono

theorem discardSdu (h : k.SndOk) (sduId : Int) : ({ k with snd := k.snd.discardSdu sduId } : UmLink).SndOk := by
  have hwf := h.wf.discardSdu sduId
  rcases discardSdu_cases k.snd sduId with ⟨hd, -⟩ | ⟨before, cur, rest, hl, -, hcf, -, -, hd⟩
  · rw [hd]
    exact h
  · rw [hd] at hwf ⊢
    have hqueued : ∀ y ∈ before ++ rest, y.data ∈ k.sdus := by
      intro y hy
      refine h.queued y ?_
      rw [hl]
      rcases mem_append.mp hy with hy | hy
      · exact mem_append_left _ hy
      · exact mem_append_right _ (mem_cons_of_mem _ hy)
    have hcur := h.current
    have hnext := h.next
    rw [hl] at hcur hnext
    cases before with
    | nil =>
      -- behind the head all the segments are whole SDUs
      have hrest : ∀ y ∈ rest, y.isFirst = true := fun y hy => h.wf.tail y (by rw [hl]; exact hy)
      refine ⟨hwf, hqueued, h.segmented, fun y hy hf => ?_, ?_, h.sent⟩
      · have hy : y ∈ rest := mem_of_mem_head? hy
        rw [hrest y hy] at hf
        cases hf
      · rw [nil_append, halfSent, if_pos hcf] at hnext
        show k.snd.txNext = ((k.segmented.length - halfSent rest : Nat) : Int) % k.snd.snModulus
        rw [hnext, halfSent_of_first hrest]
    | cons z before => exact ⟨hwf, hqueued, h.segmented, hcur, hnext, h.sent⟩

theorem getElem?_segmented (hl : segmented.getLast? = some sdu) :
    segmented[segmented.length - 1]? = some sdu ∧ 1 ≤ segmented.length := by
  rw [List.getLast?_eq_getElem?] at hl
  have := (List.getElem?_eq_some_iff.mp hl).1
  exact ⟨hl, by omega⟩

theorem sendHead (h : k.SndOk) (hl : k.snd.txList = x :: rest) (hw : Written k.snd x buffer out) :
    ({ k.emit x false (out.take (k.snd.computePduHeaderSize x + x.size)) with
      snd := (k.snd.takeHead x rest).segmentSent x buffer.length } : UmLink).SndOk := by
  have hmem : x ∈ k.snd.txList := by rw [hl]; exact mem_cons_self
  have hx := h.wf.segment x hmem
  have hrest : ∀ y ∈ rest, y.isFirst = true := fun y hy => h.wf.tail y (by rw [hl]; exact hy)
  have hwf := (h.wf.takeHead hl).segmentSent x buffer.length
  have hqueued : ∀ y ∈ rest, y.data ∈ k.sdus :=
    fun y hy => h.queued y (by rw [hl]; exact mem_cons_of_mem _ hy)
  have hcurrent : ∀ y ∈ rest.head?, y.isFirst = false → k.segmented.getLast? = some y.data := by
    intro y hy hf
    rw [hrest y (mem_of_mem_head? hy)] at hf
    cases hf
  have hnext := h.next
  rw [hl, halfSent] at hnext
  cases hf : x.isFirst with
  | true =>
    simp only [emit, hf, Bool.not_false, Bool.and_self, if_true]
    refine ⟨hwf, hqueued, h.segmented, hcurrent, ?_, fun p hp => ?_⟩
    · show (if ¬x.isFirst = true ∧ x.isLast = true then (k.snd.txNext + 1) % k.snd.snModulus else k.snd.txNext) =
        ((k.segmented.length - halfSent rest : Nat) : Int) % k.snd.snModulus
      rw [if_neg (by simp [hf]), hnext, halfSent_of_first hrest, hf]
      rfl
    · rcases mem_append.mp hp with hp | hp
      · exact h.sent p hp
      · have hso := hx.first hf
        have hcov := hx.covers
        have hpay : payload x = x.data := by
          rw [payload, hso, drop_zero, take_of_length_le (by omega)]
        have hpdu := hw.pdu
        rw [hf, hx.isLast, hpay] at hpdu
        rw [mem_singleton.mp hp]
        exact .whole (h.queued x hmem) hpdu
  | false =>
    obtain ⟨hlast, hlen⟩ := getElem?_segmented (h.current x (by rw [hl]; rfl) hf)
    obtain ⟨hso, hsize⟩ := hx.rest hf
    rw [if_neg (by simp [hf])] at hnext
    simp only [emit, hf, Bool.false_and, Bool.false_eq_true, if_false]
    refine ⟨hwf, hqueued, h.segmented, hcurrent, ?_, fun p hp => ?_⟩
    · show (if ¬x.isFirst = true ∧ x.isLast = true then (k.snd.txNext + 1) % k.snd.snModulus else k.snd.txNext) =
        ((k.segmented.length - halfSent rest : Nat) : Int) % k.snd.snModulus
      rw [if_pos (by simp [hf, hx.isLast]), hnext, halfSent_of_first hrest, Int.emod_add_emod]
      exact congrArg (· % k.snd.snModulus) (by omega)
    · rcases mem_append.mp hp with hp | hp
      · exact h.sent p hp
      · rw [mem_singleton.mp hp]
        show Genuine k.snd.snFieldLength k.sdus k.segmented _
        refine genuine_written hw h.wf.modulus hnext hlast (by simp [hf]) hsize (Nat.le_of_eq hx.covers)
          (fun _ => hx.covers) ⟨fun ht => ?_, fun h0 => by omega⟩ hx.bound
        rw [hf] at ht
        cases ht

theorem cutHead (h : k.SndOk) (hl : k.snd.txList = x :: rest) (hc : Cut x x' next) (hw : Written k.snd x' buffer out) :
    ({ k.emit x true (out.take (k.snd.computePduHeaderSize x' + x'.size)) with
      snd := ((k.snd.takeHead x rest).putBack next).segmentSent x' buffer.length } : UmLink).SndOk := by
  have hmem : x ∈ k.snd.txList := by rw [hl]; exact mem_cons_self
  have hx := h.wf.segment x hmem
  have hcov := hx.covers
  have hlt := hc.lt
  have hwf := (h.wf.putBack hl hc).segmentSent x' buffer.length
  have hx' : x'.data = x.data ∧ x'.so = x.so ∧ x'.isFirst = x.isFirst ∧ x'.isLast = false := by
    rw [hc.head]
    exact ⟨rfl, rfl, rfl, rfl⟩
  obtain ⟨hdata, hso, hfirst, hlast⟩ := hx'
  have hnx : next.data = x.data ∧ next.isFirst = false := by
    rw [hc.next]
    exact ⟨rfl, rfl⟩
  have hnext := h.next
  rw [hl, halfSent] at hnext
  -- the number of the SDU, whether it is new or not
  obtain ⟨segmented, hsegmented⟩ : ∃ l, l = if x.isFirst then k.segmented ++ [x.data] else k.segmented :=
    ⟨_, rfl⟩
  obtain ⟨more, hmore⟩ : ∃ more, segmented = k.segmented ++ more := by
    rw [hsegmented]
    split
    · exact ⟨_, rfl⟩
    · exact ⟨[], (append_nil _).symm⟩
  have hgetLast : segmented.getLast? = some x.data := by
    rw [hsegmented]
    split
    · exact List.getLast?_concat ..
    · exact h.current x (by rw [hl]; rfl) (Bool.eq_false_of_not_eq_true ‹_›)
  obtain ⟨hget, hpos⟩ := getElem?_segmented hgetLast
  have htxNext : k.snd.txNext = ((segmented.length - 1 : Nat) : Int) % k.snd.snModulus := by
    rw [hnext, hsegmented]
    split
    · rw [length_append, length_singleton]
      rfl
    · rfl
  simp only [emit, Bool.not_true, Bool.and_false, Bool.false_eq_true, if_false]
  rw [← hsegmented]
  refine ⟨hwf, fun y hy => ?_, fun y hy => ?_, fun y hy _ => ?_, ?_, fun p hp => ?_⟩
  · rcases mem_cons.mp hy with rfl | hy
    · rw [hnx.1]
      exact h.queued x hmem
    · exact h.queued y (by rw [hl]; exact mem_cons_of_mem _ hy)
  · change y ∈ segmented at hy
    rw [hsegmented] at hy
    split at hy
    · rcases mem_append.mp hy with hy | hy
      · exact h.segmented y hy
      · rw [mem_singleton.mp hy]
        exact ⟨h.queued x hmem, hx.bound⟩
    · exact h.segmented y hy
  · cases hy
    rw [hnx.1]
    exact hgetLast
  · show (if ¬x'.isFirst = true ∧ x'.isLast = true then (k.snd.txNext + 1) % k.snd.snModulus else k.snd.txNext) =
      ((segmented.length - halfSent (next :: rest) : Nat) : Int) % k.snd.snModulus
    rw [if_neg (by simp [hlast]), htxNext, halfSent, hnx.2]
    rfl
  · rcases mem_append.mp hp with hp | hp
    · show Genuine k.snd.snFieldLength k.sdus segmented p
      rw [hmore, ← append_nil k.sdus]
      exact (h.sent p hp).mono
    · rw [mem_singleton.mp hp]
      show Genuine k.snd.snFieldLength k.sdus segmented _
      refine genuine_written hw h.wf.modulus htxNext (by rw [hdata]; exact hget) (by simp [hlast]) hc.pos
        (by rw [hdata, hso]; omega) (fun hl => ?_) ⟨fun hf => ?_, fun h0 => ?_⟩ (by rw [hdata]; exact hx.bound)
      · rw [hlast] at hl
        cases hl
      · rw [hfirst] at hf
        rw [hso]
        exact hx.first hf
      · rw [hfirst]
        by_contra hf
        have := (hx.rest (Bool.eq_false_of_not_eq_true hf)).1
        omega

theorem loseHead (h : k.SndOk) (hl : k.snd.txList = x :: rest) (hf : x.isFirst = true) :
    ({ k with snd := k.snd.takeHead x rest } : UmLink).SndOk := by
  have hrest : ∀ y ∈ rest, y.isFirst = true := fun y hy => h.wf.tail y (by rw [hl]; exact hy)
  have hnext := h.next
  rw [hl, halfSent, if_pos hf] at hnext
  refine ⟨h.wf.takeHead hl, fun y hy => h.queued y (by rw [hl]; exact mem_cons_of_mem _ hy),
    h.segmented, fun y hy hfy => ?_, ?_, h.sent⟩
  · have hy : y ∈ rest := mem_of_mem_head? hy
    rw [hrest y hy] at hfy
    cases hfy
  · show k.snd.txNext = ((k.segmented.length - halfSent rest : Nat) : Int) % k.snd.snModulus
    rw [hnext, halfSent_of_first hrest]

theorem grant (h : k.SndOk) (hr : k.grant buffer = .ok k') : k'.SndOk := by
  obtain ⟨r, hg, rfl⟩ := map_eq_ok.mp hr
  have hpos : ∀ y, k.snd.computePduHeaderSize y + y.size ≠ 0 := by
    intro y
    rw [computePduHeaderSize]
    omega
  rcases generatePdu_spec h.wf buffer with ⟨-, -, hs⟩ | ⟨x, rest, hl, hst, hs⟩ | ⟨x, rest, out, hl, -, hw, hs⟩ |
      ⟨x, rest, x', next, out, hl, -, hcut, hc, hw, hs⟩ <;> rw [hs] at hg <;> cases hg
  · split
    · exact h
    · exact h
  · rw [hl]
    obtain ⟨y, hy, -, hf, -⟩ := hst
    rw [hl] at hy
    cases hy
    exact h.loseHead hl hf
  · have hfits := hw.fits
    simp only [hl, hpos, if_false, decide_eq_false (Nat.not_lt.mpr hfits)]
    exact h.sendHead hl hw
  · simp only [hl, hpos, if_false, decide_eq_true hcut]
    exact h.cutHead hl hc hw

theorem new (c c' : UmConfig) : ({ snd := newNrRlcEntityUm c, rcv := newNrRlcEntityUm c' } : UmLink).SndOk :=
  ⟨txWf_new c, by simp [newNrRlcEntityUm], by simp, by simp [newNrRlcEntityUm], rfl, by simp⟩

theorem sndOp (h : k.SndOk) (ho : SndOp op = true) {snd : Um} (hr : k.snd.exec fuel op = .ok snd) :
    ({ k with snd } : UmLink).SndOk := by
  cases op with
  | recvPdu buffer => exact h.of_outsideRx (recvPdu_outside hr)
  | setTime now => exact h.of_outsideRx (setTime_outside hr)
  | discardSdu sduId =>
    cases hr
    exact h.discardSdu sduId
  | recvSdu => cases ho
  | generatePdu => cases ho
  | reestablishment => cases ho

end SndOk

end UmLink

end OaiNr.Rlc
