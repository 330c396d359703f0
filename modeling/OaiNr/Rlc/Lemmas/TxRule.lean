import OaiNr.Rlc.Lemmas.DataPdu
import OaiNr.Rlc.Lemmas.Frame
import OaiNr.Rlc.Lemmas.Validation

/-!
# A rule for invariants of the transmitter

An invariant that the small changes of the transmit side keep is kept by every operation and holds in every run. While
a PDU is built, its segment is in no list: `Tx x` and `Re x` are the invariant then, for a segment of the transmit
list and of the retransmit list.
-/

namespace OaiNr.Rlc.Am

/-- The entity `e` with the fields of `o` that do not belong to the transmit lists, the window and
the poll timer. -/
def withMisc (e o : Am) : Am :=
  { e with
    rxNext := o.rxNext, rxNextStatusTrigger := o.rxNextStatusTrigger
    rxHighestStatus := o.rxHighestStatus, rxNextHighest := o.rxNextHighest
    statusTriggered := o.statusTriggered, pduWithoutPoll := o.pduWithoutPoll
    byteWithoutPoll := o.byteWithoutPoll, forcePoll := o.forcePoll, tCurrent := o.tCurrent
    tLogBufferFull := o.tLogBufferFull, sduRejected := o.sduRejected
    tReassemblyStart := o.tReassemblyStart, tStatusProhibitStart := o.tStatusProhibitStart
    rx := o.rx, rxSize := o.rxSize, stats := o.stats, calls := o.calls }

variable {e e' o : Am} {fuel : Nat} {x : Segment} {rest : List Segment} {buffer : List UInt8}
  {r : Am × List UInt8 × Nat}

theorem eq_withMisc_of_outsideRx (h : e'.outsideRx = e.outsideRx) : e' = e.withMisc e' := by
  have h' : e'.outsideRx.withMisc e' = e.outsideRx.withMisc e' := by rw [h]
  exact h'

theorem takeForcePoll_misc (e : Am) (p : Bool) : (e.takeForcePoll p).1 = e.withMisc (e.takeForcePoll p).1 ∧
      (e.takeForcePoll p).1.tCurrent = e.tCurrent := by
  rw [takeForcePoll]
  split <;> exact ⟨rfl, rfl⟩

theorem computePduHeaderSize_assignSn (e : Am) (x y : Segment) :
    (e.assignSn x).computePduHeaderSize y = e.computePduHeaderSize y := by
  rw [assignSn]
  split <;> rfl

theorem logRejected_misc (e : Am) : e.logRejected = e.withMisc e.logRejected := by
  rw [logRejected]
  split <;> rfl

theorem generateRetxPdu_of_size_zero (hlen : e.snFieldLength = 12 ∨ e.snFieldLength = 18)
    (hg : e.generateRetxPdu buffer = .ok r) (hz : r.2.2 = 0) : r = (e, buffer, 0) := by
  rcases generateRetxPdu_cases hg with rfl | ⟨x, rest, _, e₁, r₁, -, -, rfl, h₁, h₂, rfl⟩
  · rfl
  · have hlen₁ : (e₁.takeForcePoll e₁.CheckPollAfterPduAssembly).1.snFieldLength = e.snFieldLength := by
      have h := congrArg Am.snFieldLength ((takeForcePoll_outside e₁ e₁.CheckPollAfterPduAssembly).trans
        ((putInWaitList_outside h₁).trans (segmentRetx_outside (e.takeRetx x rest) x buffer.length)))
      exact h
    have hle : 4 ≤ (e₁.takeForcePoll e₁.CheckPollAfterPduAssembly).1.snFieldLength := by
      rw [hlen₁]
      omega
    have hne := serializeSdu_size_pos hle h₂
    exact absurd hz hne

structure TxRule (ok : Am → Op → Prop) (P : Am → Prop) (Tx Re : Segment → Am → Prop) : Prop where
  length {e : Am} : P e → e.snFieldLength = 12 ∨ e.snFieldLength = 18
  misc {e : Am} (o : Am) : P e → P (e.withMisc o)
  takeTx {e e₀ : Am} {buffer : List UInt8} {x : Segment} {rest : List Segment} :
    ok e₀ (.generatePdu buffer) → e = e₀.withMisc e → P e → ¬e.IsWindowStalling →
      e.txList = x :: rest → Tx x ((e.takeTx x rest).assignSn x)
  segmentTx {e : Am} {x : Segment} {n : Nat} : Tx x e → ¬e.computePduHeaderSize x + 1 > n →
    Tx (e.segmentTx x n).2 (e.segmentTx x n).1
  putTx {e e' : Am} {x : Segment} : Tx x e → e.putInWaitList x = .ok e' → P e' ∧ P e'.includePoll
  takeRetx {e : Am} {x : Segment} {rest : List Segment} : P e → e.retransmitList = x :: rest →
    Re x (e.takeRetx x rest)
  segmentRetx {e : Am} {x : Segment} {n : Nat} : Re x e → ¬e.computePduHeaderSize x + 1 > n →
    Re (e.segmentRetx x n).2 (e.segmentRetx x n).1
  putRetx {e e' : Am} {x : Segment} : Re x e → e.putInWaitList x = .ok e' → P e' ∧ P e'.includePoll
  acceptSdu {e e' : Am} {buffer : List UInt8} {sduId : Int} : P e →
    e.acceptSdu buffer sduId = .ok e' → P e'
  removeSdu {e : Am} {before : List Segment} {x : Segment} {rest : List Segment} : P e →
    e.txList = before ++ x :: rest → x.isFirst → x.isLast → P (e.removeSdu before x rest)
  expirePoll {e : Am} : P e → P e.expirePoll
  countPollRetx {e : Am} {x : Segment} {rest : List Segment} : P e → e.waitList = x :: rest →
    P (e.countPollRetx x)
  moveToRetransmit {e : Am} {x : Segment} {rest : List Segment} : P e → e.tPollRetransmitStart = 0 →
    e.waitList = x :: rest → P (e.moveToRetransmit x rest)
  status {e : Am} {buffer : List UInt8} (o : Am) : ok e (.recvPdu buffer) → IsControlPdu buffer →
    P (e.withMisc o) → e.validateControlPdu buffer = true →
      P ((e.withMisc o).applyStatus (e.ackSnOf buffer) (e.nackBlocks buffer))
  reestablishment {e : Am} : P e → P e.reestablishment

namespace TxRule

variable {ok : Am → Op → Prop} {P : Am → Prop} {Tx Re : Segment → Am → Prop} {c : AmConfig}

variable (hr : TxRule ok P Tx Re)
include hr

theorem of_eq (h : P e) (heq : e' = e.withMisc e') : P e' := by
  rw [heq]
  exact hr.misc e' h

theorem serialize {e₁ e₂ : Am} {p : Bool} (h : P e₁ ∧ P e₁.includePoll)
    (h₂ : e₂ = e₁.withMisc e₂) (ht : e₂.tCurrent = e₁.tCurrent) (hs : e₂.serializeSdu x buffer p = .ok r) : P r.1 := by
  rw [serializeSdu_ok hs]
  split
  · refine hr.of_eq h.2 ?_
    rw [h₂, includePoll, includePoll, withMisc, ← ht]
    rfl
  · exact hr.of_eq h.1 h₂

theorem generateTxPdu {e₀ : Am} {b : List UInt8} (hok : ok e₀ (.generatePdu b)) (he : e = e₀.withMisc e) (h : P e)
    (hg : e.generateTxPdu buffer = .ok r) : P r.1 := by
  rcases generateTxPdu_cases hg with rfl | ⟨x, rest, _, e₁, _, r₁, hstall, hlist, hsize, rfl, h₁, rfl, h₂, rfl⟩
  · exact h
  · have hs : ¬((e.takeTx x rest).assignSn x).computePduHeaderSize x + 1 > buffer.length := by
      rw [computePduHeaderSize_assignSn]
      exact hsize
    have hput := hr.putTx (hr.segmentTx (hr.takeTx hok he h hstall hlist) hs) h₁
    obtain ⟨hm, ht⟩ := takeForcePoll_misc (e₁.pollNewPdu (((e.takeTx x rest).assignSn x).segmentTx x buffer.length).2).1
      (e₁.pollNewPdu (((e.takeTx x rest).assignSn x).segmentTx x buffer.length).2).2
    exact hr.of_eq (hr.serialize hput hm ht h₂) rfl

theorem generateRetxPdu (h : P e) (hg : e.generateRetxPdu buffer = .ok r) : P r.1 := by
  rcases generateRetxPdu_cases hg with rfl | ⟨x, rest, _, e₁, r₁, hlist, hsize, rfl, h₁, h₂, rfl⟩
  · exact h
  · have hput := hr.putRetx (hr.segmentRetx (hr.takeRetx h hlist) hsize) h₁
    obtain ⟨hm, ht⟩ := takeForcePoll_misc e₁ e₁.CheckPollAfterPduAssembly
    exact hr.of_eq (hr.serialize hput hm ht h₂) rfl

theorem generatePdu (hok : ok e (.generatePdu buffer)) (h : P e) (hg : e.generatePdu fuel buffer = .ok r) : P r.1 := by
  obtain ⟨r₁, h₁, hg⟩ := generatePdu_cases hg
  have hm : r₁.1 = e.withMisc r₁.1 := by
    rcases h₁ with rfl | h₁
    · rfl
    · exact eq_withMisc_of_outsideRx (generateStatus_ok h₁).1
  have hp := hr.of_eq h hm
  rcases hg with ⟨-, rfl⟩ | ⟨-, r₂, h₂, hg⟩
  · exact hp
  · rcases h₂ with rfl | h₂
    · rcases hg with ⟨-, rfl⟩ | ⟨-, hg⟩
      · exact hp
      · exact hr.generateTxPdu hok hm hp hg
    · rcases hg with ⟨-, rfl⟩ | ⟨hz, hg⟩
      · exact hr.generateRetxPdu hp h₂
      · -- a retransmission of size 0 has not taken place
        have hr₂ := generateRetxPdu_of_size_zero (hr.length hp) h₂ hz
        rw [hr₂] at hg
        exact hr.generateTxPdu hok hm hp hg

theorem recvSdu (h : P e) {sduId : Int} (hs : e.recvSdu buffer sduId = .ok e') : P e' := by
  have hp : P e.countSdu.logRejected := hr.of_eq (hr.of_eq h rfl) (logRejected_misc _)
  rcases recvSdu_cases hs with rfl | ⟨-, hs⟩
  · exact hr.of_eq hp rfl
  · exact hr.acceptSdu hp hs

theorem discardSdu (h : P e) (sduId : Int) : P (e.discardSdu sduId) := by
  rcases discardSdu_cases e sduId with heq | ⟨before, cur, rest, hl, -, -, hf, hlast, heq⟩
  · rwa [heq]
  · rw [heq]
    exact hr.removeSdu h hl hf hlast

theorem retransmitLoop {sn : Int} {l : List Segment} (h : P e)
    (ht : e.tPollRetransmitStart = 0) (hl : e.waitList = l) : P (Am.retransmitLoop sn l e) := by
  fun_induction Am.retransmitLoop sn l e with
  | case1 => exact h
  | case2 e c => exact hr.moveToRetransmit h ht hl
  | case3 e c next l e₁ _ ih => exact ih (hr.moveToRetransmit h ht hl) ht rfl
  | case4 e c next l e₁ _ => exact hr.moveToRetransmit h ht hl

theorem checkTPollRetransmit (h : P e) (hc : e.checkTPollRetransmit = .ok e') : P e' := by
  rcases checkTPollRetransmit_cases hc with ⟨-, rfl⟩ | ⟨-, -, rfl⟩ | ⟨cur, rest, -, -, hl, rfl⟩
  · exact h
  · exact hr.expirePoll h
  · exact hr.of_eq (hr.retransmitLoop (hr.countPollRetx (hr.expirePoll h) hl) rfl hl) rfl

theorem setTime (h : P e) {now : Nat} (hs : e.setTime fuel now = .ok e') : P e' := by
  obtain ⟨e₁, h₁, hs⟩ := setTime_ok hs
  have hp : P { e with tCurrent := u64 now } := hr.of_eq h rfl
  exact hr.of_eq (hr.checkTPollRetransmit hp h₁) (eq_withMisc_of_outsideRx (checkTReassembly_outside hs))

theorem recvPdu (hok : ok e (.recvPdu buffer)) (h : P e) (hs : e.recvPdu fuel buffer = .ok e') : P e' := by
  have hp : P (e.countRxPdu buffer.length) := hr.of_eq h rfl
  rcases recvPdu_cases hs with ⟨p, rfl⟩ | ⟨hc, rfl⟩ | ⟨_, rfl, -, hs⟩
  · exact hr.of_eq hp rfl
  · rw [processControlPdu]
    split
    · rename_i hv
      have hv' : (e.countRxPdu buffer.length).validateControlPdu buffer = e.validateControlPdu buffer :=
        validateControlPdu_congr rfl rfl rfl rfl
      have ha : (e.countRxPdu buffer.length).ackSnOf buffer = e.ackSnOf buffer := ackSnOf_congr rfl
      have hb : (e.countRxPdu buffer.length).nackBlocks buffer = e.nackBlocks buffer :=
        nackBlocks_congr rfl
      rw [ha, hb]
      exact hr.status (e.countRxPdu buffer.length) hok hc hp (hv' ▸ hv)
    · exact hp
  · exact hr.of_eq hp (eq_withMisc_of_outsideRx (recvDataPdu_outside hs))

theorem exec {op : Op} (hok : ok e op) (h : P e) (hs : e.exec fuel op = .ok e') : P e' := by
  cases op with
  | recvSdu buffer sduId => exact hr.recvSdu h hs
  | recvPdu buffer => exact hr.recvPdu hok h hs
  | generatePdu buffer =>
    obtain ⟨r, hg, rfl⟩ := map_eq_ok.mp hs
    exact hr.generatePdu hok h hg
  | setTime now => exact hr.setTime h hs
  | discardSdu sduId =>
    cases hs
    exact hr.discardSdu h sduId
  | reestablishment =>
    cases hs
    exact hr.reestablishment h

theorem reaches (h0 : P (newNrRlcEntityAm c)) (h : Reaches ok c e) : P e := by
  induction h with
  | new => exact h0
  | step _ hok hs ih =>
    obtain ⟨fuel, hs⟩ := hs
    exact hr.exec hok ih hs

end TxRule

end OaiNr.Rlc.Am
