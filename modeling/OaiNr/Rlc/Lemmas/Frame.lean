import Mathlib.Data.List.TakeDrop
import Mathlib.Data.List.TakeWhile
import OaiNr.Lib.Fallible
import OaiNr.Rlc.AmTx
import OaiNr.Rlc.Lemmas.WalkRun

/-!
# What an operation leaves alone

`outsideControl`, `outsideTx` and `outsideRx` blank out the part of the entity that a function works on. A fact about
the rest then carries over by rewriting with one equation.
-/

namespace OaiNr.Rlc

namespace Am

def outsideControl (e : Am) : Am :=
  { e with
    txNextAck := 0, tPollRetransmitStart := 0, txSize := 0, waitList := [], waitEnd := none
    retransmitList := [], bstatusRetxSize := 0, stats := {}, heap := .empty, calls := [] }

def outsideTx (e : Am) : Am :=
  { e.outsideControl with
    txNext := 0, pollSn := 0, pduWithoutPoll := 0, byteWithoutPoll := 0, forcePoll := false
    tLogBufferFull := 0, sduRejected := 0, txList := [], txEnd := none, bstatusTxSize := 0 }

def outsideRx (e : Am) : Am :=
  { e with
    rxNext := 0, rxNextStatusTrigger := 0, rxHighestStatus := 0, rxNextHighest := 0
    statusTriggered := false, tReassemblyStart := 0, tStatusProhibitStart := 0
    rx := .nrRlcNewRxManager 0, rxSize := 0, stats := {}, calls := [] }

variable {e e' : Am} {fuel : Nat} {x : Segment} {buffer : List UInt8} {r : Am × List UInt8 × Nat}

theorem outsideTx_of_control (h : e'.outsideControl = e.outsideControl) : e'.outsideTx = e.outsideTx := by
  rw [outsideTx, outsideTx, h]

/-! ## Status PDUs -/

theorem freeAcked_outside (e : Am) (x : Segment) : (e.freeAcked x).outsideControl = e.outsideControl := by
  simp only [freeAcked]
  split <;> rfl

theorem countRetx_outside (e : Am) (x : Segment) : (e.countRetx x).outsideControl = e.outsideControl := by
  simp only [countRetx]
  split <;> rfl

theorem ackedRetxEntity_outside (e : Am) (x : Segment) :
    (Walk.ackedRetxEntity e x).outsideControl = e.outsideControl := freeAcked_outside _ x

end Am

namespace Walk

variable {ackSn : Int} {n : Nack} {w w' : Walk} {f : Flow}

theorem Step.outside (h : Step ackSn n w f w') : w'.entity.outsideControl = w.entity.outsideControl := by
  cases h with
  | waitNacked => exact Am.countRetx_outside ..
  | waitAcked => exact Am.freeAcked_outside ..
  | retxAcked => exact Am.ackedRetxEntity_outside ..
  | _ => rfl

theorem Move.outside {e : Am} {bs : List NackBlock} (h : Move e ackSn bs w w') :
    w'.entity.outsideControl = w.entity.outsideControl := by
  cases h with
  | step _ _ hs => exact hs.outside
  | poll => rfl
  | ackWait => exact Am.freeAcked_outside ..
  | ackRetx => exact Am.ackedRetxEntity_outside ..

end Walk

namespace Am

variable {e e' : Am} {fuel : Nat} {x : Segment} {buffer : List UInt8} {r : Am × List UInt8 × Nat}

theorem walkStatus_outside (e : Am) (ackSn : Int) (bs : List NackBlock) :
    (e.walkStatus ackSn bs).entity.outsideControl = e.outsideControl :=
  Walk.walkStatus_run (P := fun w => w.entity.outsideControl = e.outsideControl)
    (fun _ _ h hm => hm.outside.trans h) rfl

theorem relink_outside (w : Walk) : w.relink.outsideControl = w.entity.outsideControl := rfl

theorem applyStatus_outside (e : Am) (ackSn : Int) (bs : List NackBlock) :
    (e.applyStatus ackSn bs).outsideControl = e.outsideControl := by
  rw [← walkStatus_outside e ackSn bs, ← relink_outside, applyStatus]
  rfl

theorem processControlPdu_outside (e : Am) (buffer : List UInt8) :
    (e.processControlPdu buffer).outsideControl = e.outsideControl := by
  rw [processControlPdu]
  split
  · exact applyStatus_outside ..
  · rfl

/-! ## Transmission -/

theorem linkNext_ok {last : Segment} (h : e.linkNext last x = .ok e') :
    ¬e.IsFreed last ∧ e' = { e with
      txList := linkAfter last x e.txList
      waitList := linkAfter last x e.waitList
      retransmitList := linkAfter last x e.retransmitList } := by
  rw [linkNext] at h
  split at h
  · cases h
  · exact ⟨‹_›, (Except.ok.inj h).symm⟩

theorem waitListAppend_ok (h : e.waitListAppend x = .ok e') :
    (e.waitList = [] ∧ e' = { e with waitList := [x], waitEnd := some x }) ∨
    ∃ last, e.waitList ≠ [] ∧ e.waitEnd = some last ∧ ¬e.IsFreed last ∧ e' = { e with
      txList := linkAfter last x e.txList
      waitList := linkAfter last x e.waitList
      retransmitList := linkAfter last x e.retransmitList
      waitEnd := some x } := by
  rw [waitListAppend] at h
  split at h
  · exact .inl ⟨‹_›, (Except.ok.inj h).symm⟩
  · split at h
    · cases h
    · rename_i hne _ last hlast
      obtain ⟨e₁, h₁, h⟩ := bind_eq_ok.mp h
      obtain ⟨hf, rfl⟩ := linkNext_ok h₁
      exact .inr ⟨last, hne, hlast, hf, (Except.ok.inj h).symm⟩

theorem txListAppend_ok (h : e.txListAppend x = .ok e') :
    (e.txList = [] ∧ e' = { e with txList := [x], txEnd := some x }) ∨
    ∃ last, e.txList ≠ [] ∧ e.txEnd = some last ∧ ¬e.IsFreed last ∧ e' = { e with
      txList := linkAfter last x e.txList
      waitList := linkAfter last x e.waitList
      retransmitList := linkAfter last x e.retransmitList
      txEnd := some x } := by
  rw [txListAppend] at h
  split at h
  · exact .inl ⟨‹_›, (Except.ok.inj h).symm⟩
  · split at h
    · cases h
    · rename_i hne _ last hlast
      obtain ⟨e₁, h₁, h⟩ := bind_eq_ok.mp h
      obtain ⟨hf, rfl⟩ := linkNext_ok h₁
      exact .inr ⟨last, hne, hlast, hf, (Except.ok.inj h).symm⟩

theorem putInWaitList_ok (h : e.putInWaitList x = .ok e') :
    ((e.waitEnd = none ∨ ∃ last, e.waitEnd = some last ∧ e.AfterWaitEnd x last) ∧
      e.waitListAppend x = .ok e') ∨
    ∃ last, e.waitEnd = some last ∧ ¬e.IsFreed last ∧ ¬e.AfterWaitEnd x last ∧ e' = { e with
      waitList := e.txSduSegmentListAdd x e.waitList
      waitEnd := if (e.txSduSegmentListAdd x e.waitList).length = 1
        then (e.txSduSegmentListAdd x e.waitList).head? else e.waitEnd } := by
  rw [putInWaitList] at h
  split at h
  · exact .inl ⟨.inl ‹_›, h⟩
  · rename_i last hlast
    split at h
    · cases h
    · split at h
      · exact .inl ⟨.inr ⟨last, hlast, ‹_›⟩, h⟩
      · exact .inr ⟨last, hlast, ‹_›, ‹_›, (Except.ok.inj h).symm⟩

theorem putInWaitList_outside (h : e.putInWaitList x = .ok e') : e'.outsideTx = e.outsideTx := by
  rcases putInWaitList_ok h with ⟨-, h⟩ | ⟨last, -, -, -, rfl⟩
  · rcases waitListAppend_ok h with ⟨-, rfl⟩ | ⟨last, -, -, -, rfl⟩ <;> rfl
  · rfl

theorem serializeSdu_ok {p : Bool} (h : e.serializeSdu x buffer p = .ok r) : r.1 = if p then e.includePoll else e := by
  simp only [serializeSdu] at h
  split at h
  · cases h
  · split at h
    · cases h; simp [*]
    · cases h; simp [*]

theorem segmentRetx_outside (e : Am) (x : Segment) (size : Int) : (e.segmentRetx x size).1.outsideTx = e.outsideTx := by
  rw [segmentRetx]
  split <;> rfl

theorem segmentTx_outside (e : Am) (x : Segment) (size : Int) : (e.segmentTx x size).1.outsideTx = e.outsideTx := by
  rw [segmentTx]
  split <;> rfl

theorem assignSn_outside (e : Am) (x : Segment) : (e.assignSn x).outsideTx = e.outsideTx := by
  rw [assignSn]
  split <;> rfl

theorem takeForcePoll_outside (e : Am) (p : Bool) : (e.takeForcePoll p).1.outsideTx = e.outsideTx := by
  rw [takeForcePoll]
  split <;> rfl

theorem serializeSdu_outside {p : Bool} (h : e.serializeSdu x buffer p = .ok r) : r.1.outsideTx = e.outsideTx := by
  rw [serializeSdu_ok h]
  split <;> rfl

theorem generateRetxPdu_cases (h : e.generateRetxPdu buffer = .ok r) :
    r = (e, buffer, 0) ∨ ∃ x rest t e₁ r₁, e.retransmitList = x :: rest ∧ ¬e.computePduHeaderSize x + 1 > buffer.length ∧
      t = (e.takeRetx x rest).segmentRetx x buffer.length ∧ t.1.putInWaitList t.2 = .ok e₁ ∧
      (e₁.takeForcePoll e₁.CheckPollAfterPduAssembly).1.serializeSdu t.2 buffer
        (e₁.takeForcePoll e₁.CheckPollAfterPduAssembly).2 = .ok r₁ ∧
      r = ((r₁.1.countTxPdu r₁.2.2).countRetxPdu r₁.2.2, r₁.2.1, r₁.2.2) := by
  rw [generateRetxPdu] at h
  split at h
  · cases h
  rename_i x rest hlist
  split at h
  · exact .inl (Except.ok.inj h).symm
  simp only [bind_eq_ok] at h
  obtain ⟨e₁, h₁, r₁, h₂, h₃⟩ := h
  exact .inr ⟨x, rest, _, e₁, r₁, hlist, ‹_›, rfl, h₁, h₂, (Except.ok.inj h₃).symm⟩

theorem generateRetxPdu_outside (h : e.generateRetxPdu buffer = .ok r) : r.1.outsideTx = e.outsideTx := by
  rcases generateRetxPdu_cases h with rfl | ⟨x, rest, _, e₁, r₁, -, -, rfl, h₁, h₂, rfl⟩
  · rfl
  · refine (serializeSdu_outside h₂).trans ?_
    rw [takeForcePoll_outside, putInWaitList_outside h₁, segmentRetx_outside]
    rfl

theorem generateTxPdu_cases (h : e.generateTxPdu buffer = .ok r) :
    r = (e, buffer, 0) ∨ ∃ x rest t e₁ p r₁, ¬e.IsWindowStalling ∧ e.txList = x :: rest ∧
      ¬e.computePduHeaderSize x + 1 > buffer.length ∧ t = ((e.takeTx x rest).assignSn x).segmentTx x buffer.length ∧
      t.1.putInWaitList t.2 = .ok e₁ ∧ p = e₁.pollNewPdu t.2 ∧
      (p.1.takeForcePoll p.2).1.serializeSdu t.2 buffer (p.1.takeForcePoll p.2).2 = .ok r₁ ∧
      r = (r₁.1.countTxPdu r₁.2.2, r₁.2.1, r₁.2.2) := by
  rw [generateTxPdu] at h
  split at h
  · exact .inl (Except.ok.inj h).symm
  split at h
  · exact .inl (Except.ok.inj h).symm
  rename_i x rest hlist
  split at h
  · exact .inl (Except.ok.inj h).symm
  simp only [bind_eq_ok] at h
  obtain ⟨e₁, h₁, r₁, h₂, h₃⟩ := h
  exact .inr ⟨x, rest, _, e₁, _, r₁, ‹_›, hlist, ‹_›, rfl, h₁, rfl, h₂, (Except.ok.inj h₃).symm⟩

theorem generateTxPdu_outside (h : e.generateTxPdu buffer = .ok r) : r.1.outsideTx = e.outsideTx := by
  rcases generateTxPdu_cases h with rfl | ⟨x, rest, _, e₁, _, r₁, -, -, -, rfl, h₁, rfl, h₂, rfl⟩
  · rfl
  · refine (serializeSdu_outside h₂).trans ((takeForcePoll_outside ..).trans ((putInWaitList_outside h₁).trans ?_))
    rw [segmentTx_outside, assignSn_outside]
    rfl

theorem logRejected_outside (e : Am) : e.logRejected.outsideTx = e.outsideTx := by
  rw [logRejected]
  split <;> rfl

theorem txListAppend_outside (h : e.txListAppend x = .ok e') : e'.outsideTx = e.outsideTx := by
  rcases txListAppend_ok h with ⟨-, rfl⟩ | ⟨last, -, -, -, rfl⟩ <;> rfl

theorem acceptSdu_outside {sduId : Int} (h : e.acceptSdu buffer sduId = .ok e') : e'.outsideTx = e.outsideTx := by
  obtain ⟨e₁, h₁, h⟩ := bind_eq_ok.mp h
  cases h
  exact (txListAppend_outside h₁).trans rfl

theorem recvSdu_cases {sduId : Int} (h : e.recvSdu buffer sduId = .ok e') :
    e' = e.countSdu.logRejected.rejectSdu buffer.length ∨ (¬e.txSize + buffer.length > e.txMaxsize ∧
        e.countSdu.logRejected.acceptSdu buffer sduId = .ok e') := by
  simp only [recvSdu] at h
  split at h
  · cases h
  split at h
  · exact .inl (Except.ok.inj h).symm
  · rename_i hroom
    refine .inr ⟨?_, h⟩
    have hsize : e.countSdu.logRejected.txSize = e.txSize ∧ e.countSdu.logRejected.txMaxsize = e.txMaxsize := by
      rw [logRejected]
      split <;> exact ⟨rfl, rfl⟩
    rwa [hsize.1, hsize.2] at hroom

theorem recvSdu_outside {sduId : Int} (h : e.recvSdu buffer sduId = .ok e') : e'.outsideTx = e.outsideTx := by
  rcases recvSdu_cases h with rfl | ⟨-, h⟩
  · exact logRejected_outside e.countSdu
  · exact (acceptSdu_outside h).trans (logRejected_outside e.countSdu)

theorem discardSdu_cases (e : Am) (sduId : Int) : e.discardSdu sduId = e ∨
    ∃ before cur rest, e.txList = before ++ cur :: rest ∧ e.HasUpperLayerId sduId cur ∧
      (∀ x ∈ before, ¬e.HasUpperLayerId sduId x) ∧ cur.isFirst ∧ cur.isLast ∧
      e.discardSdu sduId = e.removeSdu before cur rest := by
  rw [discardSdu, List.span_eq_takeWhile_dropWhile]
  have hlist := List.takeWhile_append_dropWhile (p := (¬e.HasUpperLayerId sduId ·)) (l := e.txList)
  have hbefore := fun x => List.mem_takeWhile_imp (p := (¬e.HasUpperLayerId sduId ·)) (l := e.txList) (x := x)
  generalize e.txList.takeWhile (¬e.HasUpperLayerId sduId ·) = before at *
  cases hrest : e.txList.dropWhile (¬e.HasUpperLayerId sduId ·) with
  | nil => exact .inl rfl
  | cons cur rest =>
    have hcur := List.head?_dropWhile_not (¬e.HasUpperLayerId sduId ·) e.txList
    rw [hrest] at hlist hcur
    simp only
    split
    · exact .inl rfl
    · rename_i hseg
      simp only [not_or, not_not] at hseg
      refine .inr ⟨before, cur, rest, hlist.symm, by simpa using hcur, fun x hx => ?_, hseg.1, hseg.2, rfl⟩
      simpa using hbefore x hx

theorem discardSdu_outside (e : Am) (sduId : Int) : (e.discardSdu sduId).outsideTx = e.outsideTx := by
  rw [discardSdu]
  split
  · rfl
  · split <;> rfl

theorem retransmitLoop_outside (sn : Int) (l : List Segment) (e : Am) :
    (retransmitLoop sn l e).outsideTx = e.outsideTx := by
  fun_induction retransmitLoop sn l e with
  | case1 => rfl
  | case2 => rfl
  | case3 e c next l e₁ _ ih => exact ih
  | case4 => rfl

theorem checkTPollRetransmit_cases (h : e.checkTPollRetransmit = .ok e') : (¬e.TPollRetransmitExpired ∧ e' = e) ∨
    (e.TPollRetransmitExpired ∧ ¬e.expirePoll.CheckPollAfterPduAssembly ∧ e' = e.expirePoll) ∨
    ∃ cur rest, e.TPollRetransmitExpired ∧ e.expirePoll.CheckPollAfterPduAssembly ∧ e.waitList = cur :: rest ∧
      e' = (retransmitLoop ((e.expirePoll.countPollRetx cur).snOf cur) (cur :: rest)
        (e.expirePoll.countPollRetx cur)).reportMaxRetx
          ((e.expirePoll.countPollRetx cur).heap.sdus cur.sdu).retxCount := by
  simp only [checkTPollRetransmit] at h
  split at h
  · exact .inl ⟨‹_›, (Except.ok.inj h).symm⟩
  split at h
  · exact .inr (.inl ⟨not_not.mp ‹_›, ‹_›, (Except.ok.inj h).symm⟩)
  split at h
  · cases h
  · rename_i cur rest hwait
    refine .inr (.inr ⟨cur, rest, not_not.mp ‹_›, not_not.mp ‹_›, hwait, ?_⟩)
    rw [← Except.ok.inj h]
    show _ = reportMaxRetx (retransmitLoop _ (cur :: rest) _) _
    rw [← hwait]
    rfl

theorem checkTPollRetransmit_error {f : Fault} (h : e.checkTPollRetransmit = .error f) :
    f = .nullDeref ∧ e.TPollRetransmitExpired ∧ e.waitList = [] := by
  simp only [checkTPollRetransmit] at h
  split at h
  · cases h
  rename_i hexp
  split at h
  · cases h
  split at h
  · rename_i hwait
    exact ⟨(Except.error.inj h).symm, not_not.mp hexp, hwait⟩
  · cases h

theorem checkTPollRetransmit_outside (h : e.checkTPollRetransmit = .ok e') : e'.outsideTx = e.outsideTx := by
  rcases checkTPollRetransmit_cases h with ⟨-, rfl⟩ | ⟨-, -, rfl⟩ | ⟨cur, rest, -, -, -, rfl⟩
  · rfl
  · rfl
  · exact retransmitLoop_outside ..

/-! ## Reception and status reports -/

theorem generateStatus_ok (h : e.generateStatus fuel buffer = .ok r) :
    r.1.outsideRx = e.outsideRx ∧ r.1.calls = e.calls ∧
      r.1 = { e with
        statusTriggered := r.1.statusTriggered
        tStatusProhibitStart := r.1.tStatusProhibitStart
        stats := r.1.stats } := by
  rw [generateStatus] at h
  split at h
  · cases h
    exact ⟨rfl, rfl, rfl⟩
  · simp only [bind_eq_ok] at h
    obtain ⟨cur, -, ⟨lastNack, w⟩, -, h⟩ := h
    simp only at h
    split at h
    · cases h
    · cases h
      exact ⟨rfl, rfl, rfl⟩

theorem reassembleAndDeliver_outside {x : Int} (h : e.reassembleAndDeliver x = .ok e') :
    e'.outsideRx = e.outsideRx := by
  simp only [reassembleAndDeliver] at h
  split at h
  · cases h
  · cases h; rfl
  · cases h; rfl

theorem updateHighestStatus_outside {x : Int} (h : e.updateHighestStatus fuel x = .ok e') :
    e'.outsideRx = e.outsideRx := by
  rw [updateHighestStatus] at h
  split at h
  · split at h
    · cases h
    · cases h; rfl
  · cases h; rfl

theorem updateRxNext_outside {x : Int} (h : e.updateRxNext fuel x = .ok e') : e'.outsideRx = e.outsideRx := by
  rw [updateRxNext] at h
  split at h
  · split at h
    · cases h
    · cases h; rfl
  · cases h; rfl

theorem deliverFull_outside {x : Int} (h : e.deliverFull fuel x = .ok e') : e'.outsideRx = e.outsideRx := by
  rw [deliverFull] at h
  split at h
  · simp only [bind_eq_ok] at h
    obtain ⟨e₁, h₁, e₂, h₂, h₃⟩ := h
    exact (updateRxNext_outside h₃).trans ((updateHighestStatus_outside h₂).trans (reassembleAndDeliver_outside h₁))
  · cases h; rfl

theorem stopTReassembly_outside (e : Am) : e.stopTReassembly.outsideRx = e.outsideRx := by
  rw [stopTReassembly]
  split <;> rfl

theorem startTReassembly_outside (e : Am) : e.startTReassembly.outsideRx = e.outsideRx := by
  rw [startTReassembly]
  split <;> rfl

theorem receptionActions_outside {x : Int} (h : e.receptionActions fuel x = .ok e') : e'.outsideRx = e.outsideRx := by
  obtain ⟨e₁, h₁, h⟩ := bind_eq_ok.mp h
  cases h
  rw [startTReassembly_outside, stopTReassembly_outside, deliverFull_outside h₁]
  rfl

theorem recvDataPdu_outside {p sn so : Int} {isFirst isLast : Bool} {data : List UInt8} {size : Nat}
    (h : e.recvDataPdu fuel p sn so isFirst isLast data size = .ok e') : e'.outsideRx = e.outsideRx := by
  rw [recvDataPdu] at h
  split_ifs at h
  · cases h; rfl
  · cases h; rfl
  · cases h; rfl
  · cases h; rfl
  · obtain ⟨e₁, h₁, h⟩ := bind_eq_ok.mp h
    cases h
    have hactions := receptionActions_outside h₁
    exact hactions
  · cases h; rfl

theorem restartTReassembly_outside (e : Am) : e.restartTReassembly.outsideRx = e.outsideRx := by
  rw [restartTReassembly]
  split <;> rfl

theorem checkTReassembly_outside (h : e.checkTReassembly fuel = .ok e') : e'.outsideRx = e.outsideRx := by
  rw [checkTReassembly] at h
  split at h
  · cases h; rfl
  · obtain ⟨sn, -, h⟩ := bind_eq_ok.mp h
    cases h
    exact restartTReassembly_outside _

/-! ## The operations -/

def IsControlPdu (buffer : List UInt8) : Prop :=
  ((Decoder.init buffer).getBits 1).2.error = false ∧ ((Decoder.init buffer).getBits 1).1 = 0

instance (buffer : List UInt8) : Decidable (IsControlPdu buffer) :=
  inferInstanceAs (Decidable (_ ∧ _))

theorem recvPdu_cases (h : e.recvPdu fuel buffer = .ok e') :
    (∃ p, e' = (e.countRxPdu buffer.length).discardPdu p buffer.length) ∨
    (IsControlPdu buffer ∧ e' = (e.countRxPdu buffer.length).processControlPdu buffer) ∨
    (∃ d, d = (e.countRxPdu buffer.length).readDataHeader ((Decoder.init buffer).getBits 1).2 ∧ d.2.error = false ∧
      (e.countRxPdu buffer.length).recvDataPdu fuel d.1.1 d.1.2.2.1 d.1.2.2.2 (d.1.2.1 / 2 % 2 = 0)
        (d.1.2.1 % 2 = 0) (buffer.drop d.2.byte) buffer.length = .ok e') := by
  simp only [recvPdu] at h
  split at h
  · exact .inl ⟨0, (Except.ok.inj h).symm⟩
  split at h
  · rename_i herr hdc
    exact .inr (.inl ⟨⟨Bool.eq_false_of_not_eq_true herr, hdc⟩, (Except.ok.inj h).symm⟩)
  split at h
  · exact .inl ⟨_, (Except.ok.inj h).symm⟩
  · exact .inr (.inr ⟨_, rfl, Bool.eq_false_of_not_eq_true ‹_›, h⟩)

theorem setTime_ok {now : Nat} (h : e.setTime fuel now = .ok e') :
    ∃ e₁, { e with tCurrent := u64 now }.checkTPollRetransmit = .ok e₁ ∧
      e₁.checkTReassembly fuel = .ok e' := bind_eq_ok.mp h

theorem generatePdu_cases (h : e.generatePdu fuel buffer = .ok r) :
    ∃ r₁, (r₁ = (e, buffer, 0) ∨ e.generateStatus fuel buffer = .ok r₁) ∧ ((r₁.2.2 ≠ 0 ∧ r = r₁) ∨ (r₁.2.2 = 0 ∧ ∃ r₂,
          (r₂ = (r₁.1, r₁.2.1, 0) ∨ r₁.1.generateRetxPdu r₁.2.1 = .ok r₂) ∧
          ((r₂.2.2 ≠ 0 ∧ r = r₂) ∨ (r₂.2.2 = 0 ∧ r₂.1.generateTxPdu r₂.2.1 = .ok r)))) := by
  obtain ⟨r₁, h₁, h⟩ := bind_eq_ok.mp h
  refine ⟨r₁, ?_, ?_⟩
  · rw [generateStatusFirst] at h₁
    split at h₁
    · exact .inr h₁
    · exact .inl (Except.ok.inj h₁).symm
  · split at h
    · exact .inl ⟨‹_›, (Except.ok.inj h).symm⟩
    · rename_i hz
      obtain ⟨r₂, h₂, h⟩ := bind_eq_ok.mp h
      refine .inr ⟨not_not.mp hz, r₂, ?_, ?_⟩
      · rw [generateRetxFirst] at h₂
        split at h₂
        · exact .inr h₂
        · exact .inl (Except.ok.inj h₂).symm
      · split at h
        · exact .inl ⟨‹_›, (Except.ok.inj h).symm⟩
        · exact .inr ⟨not_not.mp ‹_›, h⟩

theorem Reaches.execAll {ok : Am → Op → Prop} {c : AmConfig} {ops : List Op} (h : Reaches ok c e)
    (hok : ∀ op ∈ ops, ∀ e, ok e op) (hr : e.execAll fuel ops = .ok e') : Reaches ok c e' := by
  induction ops generalizing e with
  | nil =>
    cases hr
    exact h
  | cons op ops ih =>
    obtain ⟨e₁, h₁, hr⟩ := bind_eq_ok.mp hr
    exact ih (h.step (hok op List.mem_cons_self e) ⟨fuel, h₁⟩) (fun op hop => hok op (List.mem_cons_of_mem _ hop)) hr

end Am

end OaiNr.Rlc
