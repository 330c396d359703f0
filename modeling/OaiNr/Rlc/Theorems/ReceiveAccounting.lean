import Mathlib.Algebra.BigOperators.Group.Finset.Piecewise
import OaiNr.Rlc.Lemmas.RxRun

/-!
# Accounting of the receive buffer
-/

namespace OaiNr.Rlc

open OaiNr.Serial

/-- The bytes of a slot that wait for the rest of their SDU. Those that come after it was delivered wait for nothing. -/
def waiting (l : List Pdu) : Int := if Am.processed l then 0 else (l.map Pdu.size).sum

variable {m : RxManager} {sn : Int} {l : List Pdu} {pdu : Pdu}

namespace RxManager

def undelivered (m : RxManager) : Int := ∑ i ∈ Finset.range m.size.toNat, waiting (m.rxList i)

theorem undelivered_setSlot (hm : 0 < m.size) (sn : Int) (l : List Pdu) :
    (m.setSlot sn l).undelivered = m.undelivered - waiting (m.getPduFromSn sn) + waiting l := by
  obtain ⟨h0, h1⟩ : 0 ≤ m.getPos sn ∧ m.getPos sn < m.size := by
    rw [getPos_eq]
    exact emod_nonneg_lt hm _
  obtain ⟨k, hk⟩ := Int.eq_ofNat_of_zero_le h0
  have hpos : k ∈ Finset.range m.size.toNat := Finset.mem_range.mpr (by omega)
  have hfun : ∀ i : Nat, waiting (Function.update m.rxList (m.getPos sn) l i) =
      Function.update (fun i : Nat => waiting (m.rxList i)) k (waiting l) i := by
    intro i
    rw [hk]
    by_cases hi : i = k
    · rw [hi, Function.update_self, Function.update_self]
    · rw [Function.update_of_ne hi, Function.update_of_ne (by omega)]
  show ∑ i ∈ Finset.range m.size.toNat, waiting (Function.update m.rxList (m.getPos sn) l i) = _
  simp only [hfun]
  rw [Finset.sum_update_of_mem hpos, Finset.sdiff_singleton_eq_erase, undelivered, getPduFromSn, hk,
    ← Finset.add_sum_erase _ (fun i : Nat => waiting (m.rxList i)) hpos]
  ring

theorem insertBySo_perm (pdu : Pdu) (l : List Pdu) : (insertBySo pdu l).Perm (pdu :: l) := by
  induction l with
  | nil => exact List.Perm.refl _
  | cons c l ih =>
    rw [insertBySo]
    split
    · exact List.Perm.refl _
    · exact (ih.cons c).trans (List.Perm.swap pdu c l)

end RxManager

theorem waiting_insertBySo (hl : SlotOk sn l) (hp : PduOk sn pdu) (hd : pdu.data ≠ none) :
    waiting (RxManager.insertBySo pdu l) = waiting l + if Am.processed l then 0 else pdu.size := by
  cases hpr : Am.processed l with
  | false =>
    have hsum := ((RxManager.insertBySo_perm pdu l).map Pdu.size).sum_eq
    simp only [waiting, Am.processed_insertBySo hd hpr, hpr, Bool.false_eq_true, if_false, hsum,
      List.map_cons, List.sum_cons]
    ring
  | true =>
    cases l with
    | nil => simp [Am.processed] at hpr
    | cons c l =>
      have hso := hp.so_nonneg
      have hc : c.so = 0 := hl.head hpr c rfl
      rw [RxManager.head_insertBySo (by omega)]
      have hpr' : Am.processed (c :: RxManager.insertBySo pdu l) := hpr
      simp [waiting, hpr, hpr']

namespace Am

variable {e e' : Am} {fuel : Nat} {x so p : Int} {isFirst isLast : Bool} {data buffer : List UInt8}
  {size : Nat} {c : AmConfig} {op : Op}

def surplus (e : Am) : Int := e.rxSize - e.rx.undelivered

/-! ## Reception -/

theorem rx_size_pos (h : e.rxState.Geometry) : 0 < e.rx.size := by
  have hs : e.rx.size = e.windowSize := h.size
  rw [hs]
  exact h.window_pos

theorem surplus_storePdu (isLast : Bool) (h : e.rxState.Inv) (ha : e.AcceptsData sn so isFirst data)
    (h0 : 0 ≤ sn) (h1 : sn < e.snModulus) (hso : 0 ≤ so) (hfirst : isFirst → so = 0) :
    (e.storePdu (nrRlcNewPdu sn so isFirst isLast data)).surplus =
      e.surplus + if e.sduDelivered sn then (data.length : Int) else 0 := by
  have hg := h.toGeometry
  have hslot : SlotOk sn (e.rx.getPduFromSn sn) := h.toCore.slotOk h0 h1 (ha.lt_window hg h0 h1)
  have hins : waiting (RxManager.insertBySo (nrRlcNewPdu sn so isFirst isLast data)
      (e.rx.getPduFromSn sn)) = waiting (e.rx.getPduFromSn sn) +
        if processed (e.rx.getPduFromSn sn) then 0 else (data.length : Int) :=
    waiting_insertBySo hslot (pduOk_of_accepts isLast ha hso hfirst) (by simp [nrRlcNewPdu])
  show e.rxSize + (data.length : Int) -
    (e.rx.setSlot sn (RxManager.insertBySo _ (e.rx.getPduFromSn sn))).undelivered = _
  rw [RxManager.undelivered_setSlot (rx_size_pos hg), hins, surplus, sduDelivered]
  split <;> ring

theorem surplus_reassembleAndDeliver (h : e.rxState.Geometry) (hf : e.sduFull x)
    (hr : e.reassembleAndDeliver x = .ok e') : e'.surplus = e.surplus := by
  obtain ⟨hpr, hfull⟩ := sduFull_eq_true hf
  obtain ⟨c, t, hl, -⟩ := sduFullLoop_head hfull
  have hwait : waiting (e.rx.getPduFromSn x) = ((e.rx.getPduFromSn x).map Pdu.size).sum := by
    rw [waiting, hpr]
    rfl
  have hmark : waiting (marked (e.rx.getPduFromSn x)) = 0 := by
    rw [waiting, if_pos (processed_marked (by rw [hl]; exact List.cons_ne_nil _ _))]
  have hrx : e'.rx = e.rx.setSlot x (marked (e.rx.getPduFromSn x)) :=
    congrArg RxState.rx (reassembleAndDeliver_rxState hr)
  have hsize : e'.rxSize = e.rxSize - ((e.rx.getPduFromSn x).map Pdu.size).sum := by
    simp only [reassembleAndDeliver] at hr
    split at hr <;> cases hr <;> rfl
  rw [surplus, surplus, hrx, hsize, RxManager.undelivered_setSlot (rx_size_pos h), hwait, hmark]
  ring

theorem undelivered_freeDelivered (h : e.rxState.Geometry) {s : RxManager × Int × Int}
    (hr : e.freeDelivered fuel = .ok s) : s.1.undelivered = e.rx.undelivered := by
  rw [freeDelivered, withFuel_eq_ok] at hr
  have hinv := Loop.run_inv (fun s : RxManager × Int × Int => s.1.undelivered = e.rx.undelivered ∧ s.1.size = e.rx.size)
    (fun s hc hs => ?_) ⟨rfl, rfl⟩ hr
  · exact hinv.1.1
  · obtain ⟨h1, h2⟩ := hs
    refine ⟨?_, h2⟩
    show (s.1.setSlot s.2.1 []).undelivered = _
    have hslot : waiting (s.1.getPduFromSn s.2.1) = 0 := by rw [waiting, if_pos hc]
    rw [RxManager.undelivered_setSlot (by rw [h2]; exact rx_size_pos h), h1, hslot]
    simp [waiting]

theorem surplus_updateHighestStatus (hr : e.updateHighestStatus fuel x = .ok e') :
    e'.surplus = e.surplus ∧ (e.rxState.Geometry → e'.rxState.Geometry) := by
  simp only [updateHighestStatus] at hr
  split at hr
  · split at hr
    · cases hr
    · cases hr
      exact ⟨rfl, fun h => { h with }⟩
  · cases hr
    exact ⟨rfl, id⟩

theorem surplus_updateRxNext (h : e.rxState.Geometry) (hr : e.updateRxNext fuel x = .ok e') :
    e'.surplus = e.surplus := by
  simp only [updateRxNext] at hr
  split at hr
  · split at hr
    · cases hr
    · rename_i rx rxNext count hf
      cases hr
      have hund := undelivered_freeDelivered h hf
      show e.rxSize - rx.undelivered = _
      rw [hund, surplus]
  · cases hr
    rfl

theorem surplus_deliverFull (h : e.rxState.Geometry) (hr : e.deliverFull fuel x = .ok e') : e'.surplus = e.surplus := by
  simp only [deliverFull] at hr
  split at hr
  · rename_i hfull
    simp only [bind_eq_ok] at hr
    obtain ⟨e₁, hr₁, e₂, hr₂, hr₃⟩ := hr
    have hg₁ : e₁.rxState.Geometry := by
      rw [reassembleAndDeliver_rxState hr₁]
      exact { h with }
    obtain ⟨hs₂, hg₂⟩ := surplus_updateHighestStatus hr₂
    rw [surplus_updateRxNext (hg₂ hg₁) hr₃, hs₂, surplus_reassembleAndDeliver h hfull hr₁]
  · cases hr
    rfl

theorem surplus_updateTReassembly (e : Am) : e.stopTReassembly.startTReassembly.surplus = e.surplus := by
  have hstop : e.stopTReassembly.surplus = e.surplus := by
    rw [stopTReassembly]
    split <;> rfl
  rw [startTReassembly]
  split
  · exact hstop
  · exact hstop

theorem surplus_recvDataPdu (h : e.rxState.Inv) (h0 : 0 ≤ sn) (h1 : sn < e.snModulus) (hso : 0 ≤ so)
    (hfirst : isFirst → so = 0) (hr : e.recvDataPdu fuel p sn so isFirst isLast data size = .ok e') :
    (e.AcceptsData sn so isFirst data ∧ e.sduDelivered sn → e'.surplus = e.surplus + data.length) ∧
      (¬(e.AcceptsData sn so isFirst data ∧ e.sduDelivered sn) → e'.surplus = e.surplus) := by
  by_cases ha : e.AcceptsData sn so isFirst data
  · rw [recvDataPdu_of_accepts ha, map_eq_ok] at hr
    obtain ⟨e₁, hr, rfl⟩ := hr
    obtain ⟨hst, hw⟩ := storePdu_inv isLast h ha h0 h1 hso hfirst
    obtain ⟨e₂, hr₂, hr₃⟩ := bind_eq_ok.mp hr
    cases hr₃
    have hdel := surplus_deliverFull hst.toGeometry hr₂
    have hstore := surplus_storePdu isLast h ha h0 h1 hso hfirst
    have hall : (e₂.stopTReassembly.startTReassembly.answerPoll p).surplus =
        e.surplus + if e.sduDelivered sn then (data.length : Int) else 0 :=
      (surplus_updateTReassembly e₂).trans (hdel.trans hstore)
    rw [hall]
    cases e.sduDelivered sn <;> simp [ha]
  · obtain ⟨triggered, stats, hd⟩ := recvDataPdu_of_not_accepts fuel p isLast size ha
    rw [hd] at hr
    cases hr
    exact ⟨fun hc => absurd hc.1 ha, fun _ => rfl⟩

/-! ## Operations and runs -/

def decodedHeader (e : Am) (buffer : List UInt8) : (Int × Int × Int × Int) × Decoder :=
  e.readDataHeader ((Decoder.init buffer).getBits 1).2

structure IsDataPdu (e : Am) (buffer : List UInt8) : Prop where
  type : ((Decoder.init buffer).getBits 1).2.error = false
  dc : ((Decoder.init buffer).getBits 1).1 ≠ 0
  header : (e.decodedHeader buffer).2.error = false

def Late (e : Am) (buffer : List UInt8) : Prop :=
  e.IsDataPdu buffer ∧
    e.AcceptsData (e.decodedHeader buffer).1.2.2.1 (e.decodedHeader buffer).1.2.2.2
      ((e.decodedHeader buffer).1.2.1 / 2 % 2 = 0) (buffer.drop (e.decodedHeader buffer).2.byte) ∧
    e.sduDelivered (e.decodedHeader buffer).1.2.2.1

def InTime (e : Am) : Op → Prop
  | .recvPdu buffer => ¬e.Late buffer
  | _ => True

theorem recvPdu_of_data (fuel : Nat) (h : e.IsDataPdu buffer) :
    e.recvPdu fuel buffer = (e.countRxPdu buffer.length).recvDataPdu fuel (e.decodedHeader buffer).1.1
      (e.decodedHeader buffer).1.2.2.1 (e.decodedHeader buffer).1.2.2.2
      ((e.decodedHeader buffer).1.2.1 / 2 % 2 = 0) ((e.decodedHeader buffer).1.2.1 % 2 = 0)
      (buffer.drop (e.decodedHeader buffer).2.byte) buffer.length := by
  have hheader : ((e.countRxPdu buffer.length).readDataHeader
      ((Decoder.init buffer).getBits 1).2).2.error = false := h.header
  simp only [recvPdu]
  rw [if_neg (by simp [h.type]), if_neg h.dc, if_neg (by simp [hheader])]
  rfl

theorem recvPdu_of_not_data (h : ¬e.IsDataPdu buffer) (hr : e.recvPdu fuel buffer = .ok e') :
    (∃ p, e' = (e.countRxPdu buffer.length).discardPdu p buffer.length) ∨
      e' = (e.countRxPdu buffer.length).processControlPdu buffer := by
  simp only [recvPdu] at hr
  split at hr
  · cases hr
    exact .inl ⟨_, rfl⟩
  split at hr
  · cases hr
    exact .inr rfl
  split at hr
  · cases hr
    exact .inl ⟨_, rfl⟩
  · rename_i h1 h2 h3
    exact absurd ⟨by simpa using h1, h2, Bool.eq_false_of_not_eq_true h3⟩ h

theorem surplus_of_outsideTx (he : e'.outsideTx = e.outsideTx) : e'.surplus = e.surplus := by
  have : e'.outsideTx.surplus = e.outsideTx.surplus := by rw [he]
  exact this

theorem surplus_recvPdu (h : RxGood c e) (hr : e.recvPdu fuel buffer = .ok e') :
    (e.Late buffer → e.surplus < e'.surplus) ∧ (¬e.Late buffer → e'.surplus = e.surplus) := by
  by_cases hdata : e.IsDataPdu buffer
  · rw [recvPdu_of_data fuel hdata] at hr
    obtain ⟨h0, h1, hso, hfirst⟩ := readDataHeader_range hdata.header
    rw [← h.snModulus] at h1
    have hinv : (e.countRxPdu buffer.length).rxState.Inv := h.inv
    obtain ⟨hlate, hnot⟩ := surplus_recvDataPdu hinv h0 h1 hso (fun hf => hfirst (of_decide_eq_true hf)) hr
    refine ⟨fun hl => ?_, fun hl => hnot fun ⟨ha, hd⟩ => hl ⟨hdata, ⟨ha.1, ha.2, ha.3, ha.4, ha.5⟩, hd⟩⟩
    obtain ⟨-, ha, hd⟩ := hl
    have hsum := hlate ⟨⟨ha.1, ha.2, ha.3, ha.4, ha.5⟩, hd⟩
    have hpos := Nat.pos_of_ne_zero ha.nonempty
    change e'.surplus = e.surplus + _ at hsum
    omega
  · refine ⟨fun hl => absurd hl.1 hdata, fun _ => ?_⟩
    rcases recvPdu_of_not_data hdata hr with ⟨p, rfl⟩ | rfl
    · rfl
    · exact surplus_of_outsideTx (outsideTx_of_control (processControlPdu_outside ..))

theorem surplus_generatePdu {r : Am × List UInt8 × Nat} (hr : e.generatePdu fuel buffer = .ok r) :
    r.1.surplus = e.surplus := by
  obtain ⟨r₁, h₁, hr⟩ := generatePdu_cases hr
  have hs₁ : r₁.1.surplus = e.surplus := by
    rcases h₁ with rfl | h₁
    · rfl
    · rw [(generateStatus_ok h₁).2.2]
      rfl
  rcases hr with ⟨-, rfl⟩ | ⟨-, r₂, h₂, hr⟩
  · exact hs₁
  · have hs₂ : r₂.1.surplus = e.surplus := by
      rcases h₂ with rfl | h₂
      · exact hs₁
      · exact (surplus_of_outsideTx (generateRetxPdu_outside h₂)).trans hs₁
    rcases hr with ⟨-, rfl⟩ | ⟨-, hr⟩
    · exact hs₂
    · exact (surplus_of_outsideTx (generateTxPdu_outside hr)).trans hs₂

theorem surplus_checkTReassembly (hr : e.checkTReassembly fuel = .ok e') : e'.surplus = e.surplus := by
  rw [checkTReassembly] at hr
  split at hr
  · cases hr
    rfl
  · obtain ⟨sn, -, hr⟩ := bind_eq_ok.mp hr
    cases hr
    rw [restartTReassembly]
    split <;> rfl

theorem surplus_setTime {now : Nat} (hr : e.setTime fuel now = .ok e') : e'.surplus = e.surplus := by
  obtain ⟨e₁, h₁, hr⟩ := setTime_ok hr
  have hpoll := surplus_of_outsideTx (checkTPollRetransmit_outside h₁)
  exact (surplus_checkTReassembly hr).trans hpoll

theorem surplus_reestablishment (e : Am) : e.reestablishment.surplus = 0 := by
  show (0 : Int) - ∑ i ∈ Finset.range e.rx.size.toNat, waiting [] = 0
  simp [waiting]

theorem surplus_exec (h : RxGood c e) (hz : e.surplus = 0) (hr : e.exec fuel op = .ok e') :
    e'.surplus = 0 ↔ e.InTime op := by
  cases op with
  | recvSdu buffer sduId => exact iff_of_true ((surplus_of_outsideTx (recvSdu_outside hr)).trans hz) trivial
  | recvPdu buffer =>
    obtain ⟨hlate, hnot⟩ := surplus_recvPdu h hr
    refine ⟨fun hz' hl => ?_, fun hl => (hnot hl).trans hz⟩
    have := hlate hl
    omega
  | generatePdu buffer =>
    obtain ⟨r, hg, rfl⟩ := map_eq_ok.mp hr
    exact iff_of_true ((surplus_generatePdu hg).trans hz) trivial
  | setTime now => exact iff_of_true ((surplus_setTime hr).trans hz) trivial
  | discardSdu sduId =>
    cases hr
    exact iff_of_true ((surplus_of_outsideTx (discardSdu_outside ..)).trans hz) trivial
  | reestablishment =>
    cases hr
    exact iff_of_true (surplus_reestablishment e) trivial

theorem surplus_eq_zero (h : Reaches InTime c e) : e.surplus = 0 := by
  induction h with
  | new =>
    show (0 : Int) - ∑ i ∈ Finset.range (2 ^ (c.snFieldLength - 1) : Int).toNat, waiting [] = 0
    simp [waiting]
  | step h hok hr ih =>
    obtain ⟨fuel, hr⟩ := hr
    exact (surplus_exec (reaches_good h) ih hr).mpr hok

/-- As long as no segment is accepted after the delivery of its SDU, `rx_size` is the number of bytes
that wait for their delivery, and the first operation for which this fails is such a segment. The limit
check then refuses a PDU only if it does not fit. -/
theorem rxSize_eq_undelivered (h : Reaches InTime c e) : e.rxSize = e.rx.undelivered ∧
      (∀ n : Nat, e.rxSize + n > e.rxMaxsize ↔ e.rx.undelivered + n > e.rxMaxsize) ∧
      ∀ op e', e.Returns op e' → (e'.rxSize = e'.rx.undelivered ↔ e.InTime op) := by
  have hz := surplus_eq_zero h
  have heq : e.rxSize = e.rx.undelivered := by
    rw [surplus] at hz
    omega
  refine ⟨heq, fun n => by rw [heq], fun op e' hr => ?_⟩
  obtain ⟨fuel, hr⟩ := hr
  rw [← surplus_exec (reaches_good h) hz hr, surplus]
  omega

/-- One byte waits for the rest of its SDU. -/
theorem rxSize_eq_undelivered_first : ∃ e, Reaches InTime .test1 e ∧ e.rxSize = 1 ∧ e.rx.undelivered = 1 := by
  have hrun : ((newNrRlcEntityAm .test1).exec 1 (.recvPdu [0x90, 0, 1])).map Am.rxSize = .ok 1 := by
    decide
  obtain ⟨e, he, h1⟩ := map_eq_ok.mp hrun
  have htime : InTime (newNrRlcEntityAm .test1) (.recvPdu [0x90, 0, 1]) := fun hl => by
    have := hl.2.2
    simp [sduDelivered, RxManager.getPduFromSn, newNrRlcEntityAm, RxManager.nrRlcNewRxManager, processed] at this
  have hreach : Reaches InTime .test1 e := .step .new htime ⟨1, he⟩
  exact ⟨e, hreach, h1, (rxSize_eq_undelivered hreach).1 ▸ h1⟩

/-- A segment behind the end of a delivered SDU is counted for ever: the ring is empty again, and
`rx_size` is not 0. -/
theorem late_segment_leaks : ∃ e, Reachable .test1 e ∧ (∀ i, e.rx.rxList i = []) ∧ e.rxSize = 1 := by
  have hrun : ((newNrRlcEntityAm .test1).execAll 3
      [.recvPdu [0x80, 1, 0xaa], .recvPdu [0xa0, 1, 0, 1, 0xbb], .recvPdu [0x80, 0, 0xcc]]).map
      (fun e => (e.rxNext, e.rxNextHighest, e.rxSize)) = .ok (2, 2, 1) := by decide +kernel
  obtain ⟨e, he, hf⟩ := map_eq_ok.mp hrun
  simp only [Prod.mk.injEq] at hf
  obtain ⟨hn, hh, hs⟩ := hf
  have hreach : Reachable .test1 e := Reaches.new.execAll (fun _ _ _ => trivial) he
  refine ⟨e, hreach, fun i => ?_, hs⟩
  have hinv := (reaches_good hreach).inv
  have hd : e.rxState.d e.rxNextHighest = 0 := by
    rw [hh, ← hn]
    exact offset_self
  by_cases hi : 0 ≤ i ∧ i < e.windowSize
  · have hsz : e.rx.size = e.windowSize := hinv.size
    rw [e.rx.rxList_eq_at hi.1 (by omega)]
    have hr := emod_nonneg_lt (rx_size_pos hinv.toGeometry) (i - e.rx.start)
    exact hinv.empty _ (Int.le_trans (Int.le_of_eq hd) hr.1) (lt_of_lt_of_eq hr.2 hsz)
  · exact hinv.outside i hi

end Am

end OaiNr.Rlc
