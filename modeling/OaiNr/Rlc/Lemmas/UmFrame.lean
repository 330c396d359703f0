import OaiNr.Rlc.Lemmas.Frame
import OaiNr.Rlc.Lemmas.UmTx

/-!
# What an operation of a UM entity leaves alone
-/

namespace OaiNr.Rlc.Um

open List

variable {e e' : Um} {fuel : Nat} {x : Int} {buffer : List UInt8} {sduId : Int} {c : UmConfig} {op : Op}
  {isFirst isLast : Bool} {sn so : Int} {data : List UInt8} {size : Nat}

def outsideRx (e : Um) : Um :=
  { e with
    rxNextHighest := 0, rxNextReassembly := 0, rxTimerTrigger := 0, tCurrent := 0, tReassemblyStart := 0
    rxList := [], rxSize := 0, stats := {}, calls := [] }

def outsideTx (e : Um) : Um :=
  { e with
    txNext := 0, tLogBufferFull := 0, sduRejected := 0, txList := [], txSize := 0, bstatusTxSize := 0
    stats := {} }

theorem snFieldLength_of_outsideRx (h : e'.outsideRx = e.outsideRx) : e'.snFieldLength = e.snFieldLength := by
  have hlen : e'.outsideRx.snFieldLength = e.outsideRx.snFieldLength := by rw [h]
  exact hlen

theorem snFieldLength_of_outsideTx (h : e'.outsideTx = e.outsideTx) : e'.snFieldLength = e.snFieldLength := by
  have hlen : e'.outsideTx.snFieldLength = e.outsideTx.snFieldLength := by rw [h]
  exact hlen

/-! ## Reception -/

theorem reassembleAndDeliver_outside (h : e.reassembleAndDeliver x = .ok e') : e'.outsideRx = e.outsideRx := by
  simp only [reassembleAndDeliver] at h
  split at h
  · cases h
  · cases h
    rfl
  · cases h
    rfl

theorem deliverFull_outside (h : e.deliverFull fuel x = .ok e') : e'.outsideRx = e.outsideRx := by
  obtain ⟨e₁, h₁, h⟩ := bind_eq_ok.mp h
  have h₁ := reassembleAndDeliver_outside h₁
  split at h
  · obtain ⟨sn, -, h⟩ := bind_eq_ok.mp h
    cases h
    exact h₁
  · cases h
    exact h₁

theorem moveWindow_outside (h : e.moveWindow fuel x = .ok e') : e'.outsideRx = e.outsideRx := by
  simp only [moveWindow] at h
  split at h
  · obtain ⟨sn, -, h⟩ := bind_eq_ok.mp h
    cases h
    rfl
  · cases h
    rfl

theorem stopTReassembly_outside (e : Um) : e.stopTReassembly.outsideRx = e.outsideRx := by
  rw [stopTReassembly]
  split <;> rfl

theorem startTReassembly_outside (e : Um) : e.startTReassembly.outsideRx = e.outsideRx := by
  rw [startTReassembly]
  split <;> rfl

theorem receptionActions_ok (h : e.receptionActions fuel x = .ok e') : ∃ e₁, e' = e₁.stopTReassembly.startTReassembly ∧
      ((e.sduFull x = true ∧ e.deliverFull fuel x = .ok e₁) ∨
        (e.sduFull x = false ∧ e.OutsideWindow x ∧ e.moveWindow fuel x = .ok e₁) ∨
        (e.sduFull x = false ∧ ¬e.OutsideWindow x ∧ e₁ = e)) := by
  rw [receptionActions] at h
  split at h
  · obtain ⟨e₁, h₁, h⟩ := bind_eq_ok.mp h
    cases h
    exact ⟨e₁, rfl, .inl ⟨‹_›, h₁⟩⟩
  · rename_i hfull
    have hfull := Bool.eq_false_of_not_eq_true hfull
    obtain ⟨e₁, h₁, h⟩ := bind_eq_ok.mp h
    cases h
    rw [receiveSegment] at h₁
    split at h₁
    · exact ⟨e₁, rfl, .inr (.inl ⟨hfull, ‹_›, h₁⟩)⟩
    · cases h₁
      exact ⟨e, rfl, .inr (.inr ⟨hfull, ‹_›, rfl⟩)⟩

theorem receptionActions_outside (h : e.receptionActions fuel x = .ok e') : e'.outsideRx = e.outsideRx := by
  obtain ⟨e₁, he', hcase⟩ := receptionActions_ok h
  rw [he', startTReassembly_outside, stopTReassembly_outside]
  rcases hcase with ⟨-, h⟩ | ⟨-, -, h⟩ | ⟨-, -, h⟩
  · exact deliverFull_outside h
  · exact moveWindow_outside h
  · rw [h]

structure AcceptsSegment (e : Um) (sn so : Int) (isFirst : Bool) (data : List UInt8) : Prop where
  first : ¬(¬isFirst ∧ so = 0)
  nonempty : data.length ≠ 0
  room : ¬e.rxSize + data.length > e.rxMaxsize
  notPassed : ¬e.snCompareRx sn e.rxNextReassembly < 0

theorem recvSegment_of_accepts
    (h : e.AcceptsSegment sn so isFirst data) : e.recvSegment fuel sn so isFirst isLast data size =
      (e.storePdu (nrRlcNewPdu sn so isFirst isLast data)).receptionActions fuel sn := by
  rw [recvSegment, if_neg h.first, if_neg h.nonempty, if_neg h.room, if_neg h.notPassed]

theorem recvSegment_of_not_accepts (h : ¬e.AcceptsSegment sn so isFirst data) :
    e.recvSegment fuel sn so isFirst isLast data size = .ok (e.discardPdu size) := by
  rw [recvSegment]
  split
  · rfl
  split
  · rfl
  split
  · rfl
  split
  · rfl
  · exact absurd ⟨‹_›, ‹_›, ‹_›, ‹_›⟩ h

theorem recvSegment_outside
    (h : e.recvSegment fuel sn so isFirst isLast data size = .ok e') : e'.outsideRx = e.outsideRx := by
  by_cases ha : e.AcceptsSegment sn so isFirst data
  · rw [recvSegment_of_accepts ha] at h
    exact (receptionActions_outside h).trans rfl
  · rw [recvSegment_of_not_accepts ha] at h
    cases h
    rfl

theorem readSegmentHeader_range {d : Decoder} (h : (e.readSegmentHeader isFirst d).2.error = false) :
    (0 ≤ (e.readSegmentHeader isFirst d).1.1 ∧ (e.readSegmentHeader isFirst d).1.1 < 2 ^ e.snFieldLength) ∧
    0 ≤ (e.readSegmentHeader isFirst d).1.2 ∧ (isFirst → (e.readSegmentHeader isFirst d).1.2 = 0) := by
  simp only [readSegmentHeader] at h ⊢
  cases isFirst with
  | true => exact ⟨Decoder.getBits_range h, Int.le_refl _, fun _ => rfl⟩
  | false =>
    exact ⟨Decoder.getBits_range (Decoder.error_of_getBits h), (Decoder.getBits_range h).1, Bool.false_ne_true.elim⟩

theorem recvPdu_cases (h : e.recvPdu fuel buffer = .ok e') :
    e' = (e.countRxPdu buffer.length).discardPdu buffer.length ∨
    e' = (e.countRxPdu buffer.length).deliverSdu (buffer.drop 1) ∨
    ∃ sn so isFirst isLast data, (isFirst && isLast) = false ∧
      (0 ≤ sn ∧ sn < 2 ^ e.snFieldLength) ∧ 0 ≤ so ∧ (isFirst → so = 0) ∧
      (e.countRxPdu buffer.length).recvSegment fuel sn so isFirst isLast data buffer.length = .ok e' := by
  simp only [recvPdu] at h
  split at h
  · cases h
    exact .inl rfl
  split at h
  · split at h
    · cases h
      exact .inl rfl
    · cases h
      exact .inr (.inl rfl)
  rename_i hseg
  split at h
  · cases h
    exact .inl rfl
  · rename_i herr
    obtain ⟨hsn, hso, hfirst⟩ := readSegmentHeader_range (Bool.eq_false_of_not_eq_true herr)
    exact .inr (.inr ⟨_, _, _, _, _, Bool.eq_false_of_not_eq_true hseg, hsn, hso, hfirst, h⟩)

theorem recvPdu_outside (h : e.recvPdu fuel buffer = .ok e') : e'.outsideRx = e.outsideRx := by
  rcases recvPdu_cases h with rfl | rfl | ⟨sn, so, isFirst, isLast, data, -, -, -, -, h⟩
  · rfl
  · rfl
  · exact (recvSegment_outside h).trans rfl

theorem checkTReassembly_ok (h : e.checkTReassembly fuel = .ok e') : (¬e.TReassemblyExpired ∧ e' = e) ∨
      (e.TReassemblyExpired ∧ ∃ sn e₁, e.skipDelivered fuel e.rxTimerTrigger = .ok sn ∧
        e₁ = { e with tReassemblyStart := 0, rxNextReassembly := sn } ∧
        e' = (e₁.dropExpired (e₁.rxList.takeWhile (e₁.Passed ·.sn))
          (e₁.rxList.dropWhile (e₁.Passed ·.sn))).restartTReassembly) := by
  rw [checkTReassembly] at h
  split at h
  · cases h
    exact .inl ⟨‹_›, rfl⟩
  · rename_i hexp
    obtain ⟨sn, hsn, h⟩ := bind_eq_ok.mp h
    cases h
    exact .inr ⟨not_not.mp hexp, sn, _, hsn, rfl, rfl⟩

theorem restartTReassembly_outside (e : Um) : e.restartTReassembly.outsideRx = e.outsideRx := by
  rw [restartTReassembly]
  split <;> rfl

theorem setTime_outside {now : Nat} (h : e.setTime fuel now = .ok e') : e'.outsideRx = e.outsideRx := by
  rcases checkTReassembly_ok h with ⟨-, rfl⟩ | ⟨-, sn, e₁, -, rfl, rfl⟩
  · rfl
  · rw [restartTReassembly_outside]
    rfl

/-! ## Transmission -/

theorem generatePdu_outside {r : Um × List UInt8 × Nat} (h : e.generatePdu buffer = .ok r) :
    r.1.outsideTx = e.outsideTx := by
  rw [generatePdu] at h
  split at h
  · cases h
    rfl
  split at h
  · cases h
    rfl
  split at h
  · split at h
    · cases h
      rfl
    · obtain ⟨r', -, rfl⟩ := map_eq_ok.mp h
      rfl
  · obtain ⟨r', -, rfl⟩ := map_eq_ok.mp h
    rfl

theorem recvSdu_cases (h : e.recvSdu buffer sduId = .ok e') : buffer.length ≤ 16000 ∧ ∃ l s st,
      (e.txSize + buffer.length > e.txMaxsize ∧ e' = { e with tLogBufferFull := l, sduRejected := s, stats := st }) ∨
      (¬e.txSize + buffer.length > e.txMaxsize ∧
        e' = ({ e with tLogBufferFull := l, sduRejected := s, stats := st } : Um).acceptSdu buffer sduId) := by
  simp only [recvSdu] at h
  split at h
  · cases h
  · rename_i hmax
    have hlen : buffer.length ≤ 16000 := by
      rw [nrSduMax] at hmax
      omega
    have hlog : ∃ l s, (e.countSdu buffer.length).logRejected =
        { e with tLogBufferFull := l, sduRejected := s, stats := (e.countSdu buffer.length).stats } := by
      rw [logRejected]
      split <;> exact ⟨_, _, rfl⟩
    obtain ⟨l, s, hlog⟩ := hlog
    rw [hlog] at h
    split at h
    · cases h
      exact ⟨hlen, l, _, _, .inl ⟨‹_›, rfl⟩⟩
    · cases h
      exact ⟨hlen, l, s, _, .inr ⟨‹_›, rfl⟩⟩

theorem recvSdu_outside (h : e.recvSdu buffer sduId = .ok e') : e'.outsideTx = e.outsideTx := by
  obtain ⟨-, l, s, st, ⟨-, rfl⟩ | ⟨-, rfl⟩⟩ := recvSdu_cases h
  · rfl
  · rfl

theorem discardSdu_cases (e : Um) (sduId : Int) : (e.discardSdu sduId = e ∧
      ∀ x ∈ e.txList.find? (·.upperLayerId = sduId), ¬(x.isFirst = true ∧ x.isLast = true)) ∨
    ∃ before cur rest, e.txList = before ++ cur :: rest ∧
      cur.upperLayerId = sduId ∧ cur.isFirst = true ∧ cur.isLast = true ∧
      (∀ y ∈ before, y.upperLayerId ≠ sduId) ∧ e.discardSdu sduId = e.removeSdu before cur rest := by
  rw [discardSdu, span_eq_takeWhile_dropWhile]
  have hsplit := takeWhile_append_dropWhile (p := (·.upperLayerId ≠ sduId)) (l := e.txList)
  have hfind := List.head?_dropWhile_not (fun y : UmSegment => y.upperLayerId ≠ sduId) e.txList
  have hhead : e.txList.find? (·.upperLayerId = sduId) = (e.txList.dropWhile (·.upperLayerId ≠ sduId)).head? := by
    rw [← List.find?_not_eq_head?_dropWhile]
    simp
  cases hd : e.txList.dropWhile (·.upperLayerId ≠ sduId) with
  | nil => exact .inl ⟨rfl, by rw [hhead, hd]; simp⟩
  | cons cur rest =>
    simp only
    split
    · rename_i hpart
      refine .inl ⟨rfl, ?_⟩
      rw [hhead, hd, List.head?_cons]
      rintro x hx ⟨hf, hl⟩
      cases hx
      exact hpart.elim (fun h => h hf) fun h => h hl
    · rename_i hwhole
      rw [not_or, not_not, not_not] at hwhole
      have hcur : cur.upperLayerId = sduId := by
        rw [hd] at hfind
        simpa using hfind
      refine .inr ⟨_, cur, rest, ?_, hcur, hwhole.1, hwhole.2, fun y hy => ?_, rfl⟩
      · rw [← hd]
        exact hsplit.symm
      · simpa using mem_takeWhile_imp hy

theorem discardSdu_outside (e : Um) (sduId : Int) : (e.discardSdu sduId).outsideTx = e.outsideTx := by
  rcases discardSdu_cases e sduId with ⟨h, -⟩ | ⟨before, cur, rest, -, -, -, -, -, h⟩
  · rw [h]
  · rw [h]
    rfl

theorem exec_snFieldLength (h : e.exec fuel op = .ok e') : e'.snFieldLength = e.snFieldLength := by
  cases op with
  | recvSdu buffer sduId => exact snFieldLength_of_outsideTx (recvSdu_outside h)
  | recvPdu buffer => exact snFieldLength_of_outsideRx (recvPdu_outside h)
  | generatePdu buffer =>
    obtain ⟨r, hg, rfl⟩ := map_eq_ok.mp h
    exact snFieldLength_of_outsideTx (generatePdu_outside hg)
  | setTime now => exact snFieldLength_of_outsideRx (setTime_outside h)
  | discardSdu sduId =>
    cases h
    exact snFieldLength_of_outsideTx (discardSdu_outside e sduId)
  | reestablishment =>
    cases h
    rfl

/-! ## The transmit side is in order -/

theorem TxWf.of_outsideRx (h : e.TxWf) (he : e'.outsideRx = e.outsideRx) : e'.TxWf := by
  have h' : e.outsideRx.TxWf := { h with }
  rw [← he] at h'
  exact { h' with }

theorem txWf_new (c : UmConfig) : (newNrRlcEntityUm c).TxWf :=
  { valid := c.snValid
    modulus := rfl
    txNext_nonneg := Int.le_refl _
    txNext_lt := Int.pow_pos (by decide)
    segment := by simp [newNrRlcEntityUm]
    tail := by simp [newNrRlcEntityUm] }

theorem TxWf.recvSdu (h : e.TxWf) (hr : e.recvSdu buffer sduId = .ok e') : e'.TxWf := by
  obtain ⟨hlen, l, s, st, ⟨-, rfl⟩ | ⟨-, rfl⟩⟩ := recvSdu_cases hr
  · exact { h with }
  · refine { h with segment := fun y hy => ?_, tail := fun y hy => ?_ }
    · rcases mem_append.mp hy with hy | hy
      · exact h.segment y hy
      · rw [mem_singleton.mp hy]
        exact ⟨rfl, Nat.zero_add _, fun _ => rfl, nofun, hlen⟩
    · change y ∈ (e.txList ++ [newSdu buffer sduId]).tail at hy
      cases hl : e.txList with
      | nil => simp [hl] at hy
      | cons z l =>
        rw [hl, cons_append, tail_cons] at hy
        rcases mem_append.mp hy with hy | hy
        · exact h.tail y (by rw [hl]; exact hy)
        · rw [mem_singleton.mp hy]
          rfl

theorem TxWf.takeHead {y : UmSegment} {rest : List UmSegment} (h : e.TxWf) (hl : e.txList = y :: rest) :
    (e.takeHead y rest).TxWf := by
  have htail : ∀ z ∈ rest, z.isFirst = true := fun z hz => h.tail z (by rw [hl]; exact hz)
  exact ⟨h.valid, h.modulus, h.txNext_nonneg, h.txNext_lt,
    fun z hz => h.segment z (by rw [hl]; exact mem_cons_of_mem _ hz),
    fun z hz => htail z (mem_of_mem_tail hz)⟩

theorem TxWf.segmentSent (h : e.TxWf) (y : UmSegment) (grant : Nat) : (e.segmentSent y grant).TxWf := by
  have hpos : 0 < e.snModulus := Int.lt_of_le_of_lt h.txNext_nonneg h.txNext_lt
  refine ⟨h.valid, h.modulus, ?_, ?_, h.segment, h.tail⟩
  · simp only [Um.segmentSent]
    split
    · exact Int.emod_nonneg _ (Int.ne_of_gt hpos)
    · exact h.txNext_nonneg
  · simp only [Um.segmentSent]
    split
    · exact Int.emod_lt_of_pos _ hpos
    · exact h.txNext_lt

theorem cut_wf {y y' next : UmSegment} (h : Cut y y' next) (hy : y.Wf) : next.Wf := by
  have hcov := hy.covers
  have hlt := h.lt
  have hpos := h.pos
  rw [h.next]
  refine ⟨hy.isLast, ?_, nofun, fun _ => ⟨?_, ?_⟩, hy.bound⟩ <;> (simp only; omega)

theorem TxWf.putBack {y y' next : UmSegment} {rest : List UmSegment} (h : e.TxWf)
    (hl : e.txList = y :: rest) (hc : Cut y y' next) : ((e.takeHead y rest).putBack next).TxWf := by
  have htail : ∀ z ∈ rest, z.isFirst = true := fun z hz => h.tail z (by rw [hl]; exact hz)
  refine { h with segment := fun z hz => ?_, tail := htail }
  rcases mem_cons.mp hz with rfl | hz
  · exact cut_wf hc (h.segment y (by rw [hl]; exact mem_cons_self))
  · exact h.segment z (by rw [hl]; exact mem_cons_of_mem _ hz)

theorem TxWf.generatePdu {r : Um × List UInt8 × Nat} (h : e.TxWf) (hr : e.generatePdu buffer = .ok r) : r.1.TxWf := by
  rcases generatePdu_spec h buffer with ⟨-, -, hs⟩ | ⟨y, rest, hl, -, hs⟩ | ⟨y, rest, out, hl, -, -, hs⟩ |
      ⟨y, rest, y', next, out, hl, -, -, hc, -, hs⟩ <;> rw [hs] at hr <;> cases hr
  · exact h
  · exact h.takeHead hl
  · exact (h.takeHead hl).segmentSent y _
  · exact (h.putBack hl hc).segmentSent y' _

theorem TxWf.discardSdu (h : e.TxWf) (sduId : Int) : (e.discardSdu sduId).TxWf := by
  rcases discardSdu_cases e sduId with ⟨hd, -⟩ | ⟨before, cur, rest, hl, -, -, -, -, hd⟩
  · rw [hd]
    exact h
  · rw [hd]
    refine { h with segment := fun y hy => h.segment y ?_, tail := fun y hy => ?_ }
    · rw [hl]
      rcases mem_append.mp hy with hy | hy
      · exact mem_append_left _ hy
      · exact mem_append_right _ (mem_cons_of_mem _ hy)
    · refine h.tail y ?_
      rw [hl]
      change y ∈ (before ++ rest).tail at hy
      cases before with
      | nil => exact mem_of_mem_tail hy
      | cons z before =>
        rw [cons_append, tail_cons] at hy ⊢
        rcases mem_append.mp hy with hy | hy
        · exact mem_append_left _ hy
        · exact mem_append_right _ (mem_cons_of_mem _ hy)

theorem TxWf.exec (h : e.TxWf) (hr : e.exec fuel op = .ok e') : e'.TxWf := by
  cases op with
  | recvSdu buffer sduId => exact h.recvSdu hr
  | recvPdu buffer => exact h.of_outsideRx (recvPdu_outside hr)
  | generatePdu buffer =>
    obtain ⟨r, hg, rfl⟩ := map_eq_ok.mp hr
    exact h.generatePdu hg
  | setTime now => exact h.of_outsideRx (setTime_outside hr)
  | discardSdu sduId =>
    cases hr
    exact h.discardSdu sduId
  | reestablishment =>
    cases hr
    have hpos : 0 < e.snModulus := Int.lt_of_le_of_lt h.txNext_nonneg h.txNext_lt
    exact ⟨h.valid, h.modulus, Int.le_refl _, hpos, by simp [Um.reestablishment], by simp [Um.reestablishment]⟩

theorem Reaches.txWf {ok : Um → Op → Prop} (h : Reaches ok c e) : e.TxWf := by
  induction h with
  | new => exact txWf_new c
  | step _ _ hr ih =>
    obtain ⟨fuel, hr⟩ := hr
    exact ih.exec hr

end OaiNr.Rlc.Um
