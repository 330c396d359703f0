import OaiNr.Rlc.AmControl
import OaiNr.Rlc.AmStatus

/-!
# Transmission, timers and the operations of an entity (`nr_rlc_entity_am.c`)

The operations are those of `nr_rlc_entity_t`; `Op` lists them and `exec` runs one.
-/

namespace OaiNr.Rlc.Am

/-! ## The transmit lists -/

/-- The place of a segment in a list ordered by SN and then by SO
(`nr_rlc_tx_sdu_segment_list_add`). -/
def txSduSegmentListAdd (e : Am) (x : Segment) : List Segment → List Segment
  | [] => [x]
  | cur :: l =>
    if 0 < e.snCompareTx (e.snOf cur) (e.snOf x) ∨ (e.snOf cur = e.snOf x ∧ x.so < cur.so)
    then x :: cur :: l
    else cur :: txSduSegmentListAdd e x l

variable (e : Am)

def IsFreed (x : Segment) : Prop := x.addr ∈ e.heap.freed.map Segment.addr

instance (x : Segment) : Decidable (e.IsFreed x) := inferInstanceAs (Decidable (_ ∈ _))

/-- The assignment `last->next = x`. It takes effect in the list that holds `last`. -/
def linkNext (last x : Segment) : Except Fault Am :=
  if e.IsFreed last then .error .useAfterFree
  else .ok { e with
    txList := linkAfter last x e.txList
    waitList := linkAfter last x e.waitList
    retransmitList := linkAfter last x e.retransmitList }

/-- Appends to the wait list (`nr_rlc_sdu_segment_list_append`). -/
def waitListAppend (x : Segment) : Except Fault Am :=
  if e.waitList = [] then .ok { e with waitList := [x], waitEnd := some x }
  else
    match e.waitEnd with
    | none => .error .nullDeref
    | some last => do
      let e ← e.linkNext last x
      return { e with waitEnd := some x }

def txListAppend (x : Segment) : Except Fault Am :=
  if e.txList = [] then .ok { e with txList := [x], txEnd := some x }
  else
    match e.txEnd with
    | none => .error .nullDeref
    | some last => do
      let e ← e.linkNext last x
      return { e with txEnd := some x }

def AfterWaitEnd (x last : Segment) : Prop :=
  0 < e.snCompareTx (e.snOf x) (e.snOf last) ∨
    (e.snCompareTx (e.snOf x) (e.snOf last) = 0 ∧ last.so < x.so)

instance (x last : Segment) : Decidable (e.AfterWaitEnd x last) :=
  inferInstanceAs (Decidable (_ ∨ _))

def putInWaitList (x : Segment) : Except Fault Am :=
  match e.waitEnd with
  | none => e.waitListAppend x
  | some last =>
    if e.IsFreed last then .error .useAfterFree
    else if e.AfterWaitEnd x last then e.waitListAppend x
    else
      let l := e.txSduSegmentListAdd x e.waitList
      .ok { e with waitList := l, waitEnd := if l.length = 1 then l.head? else e.waitEnd }

/-! ## Building data PDUs -/

/-- The window is stalling: `tx_next` is not in `[tx_next_ack, tx_next_ack + window_size)`. -/
def IsWindowStalling : Prop :=
  ¬(e.snCompareTx e.txNextAck e.txNext ≤ 0 ∧
    e.snCompareTx e.txNext ((e.txNextAck + e.windowSize) % e.snModulus) < 0)

instance : Decidable e.IsWindowStalling := inferInstanceAs (Decidable (¬_))

def CheckPollAfterPduAssembly : Prop :=
  (e.txList = [] ∧ e.retransmitList = []) ∨ e.IsWindowStalling

instance : Decidable e.CheckPollAfterPduAssembly := inferInstanceAs (Decidable (_ ∨ _))

def includePoll : Am :=
  { e with
    pduWithoutPoll := 0
    byteWithoutPoll := 0
    pollSn := (e.txNext - 1 + e.snModulus) % e.snModulus
    tPollRetransmitStart := e.tCurrent }

def putHeader (x : Segment) (n : Encoder) : Encoder :=
  let n := n.putBits 1 1
  let n := n.putBits 0 1
  let n := n.putBits (if x.isFirst then 0 else 1) 1
  let n := n.putBits (if x.isLast then 0 else 1) 1
  let n := if e.snFieldLength = 18 then n.putBits 0 2 else n
  let n := n.putBits (e.snOf x) e.snFieldLength
  if x.isFirst then n else n.putBits x.so 16

def payload (x : Segment) : List UInt8 :=
  ((e.heap.sdus x.sdu).data.drop x.so.toNat).take x.size.toNat

def serializeSdu (x : Segment) (buffer : List UInt8) (p : Bool) : Except Fault (Am × List UInt8 × Nat) :=
  let n := e.putHeader x (.init buffer)
  if n.full then .error .exit
  else
    let size := n.byte + x.size.toNat
    let buffer := n.buffer.take n.byte ++ e.payload x ++ n.buffer.drop size
    if p then .ok (e.includePoll, buffer.modify 0 (· ||| 0x40), size) else .ok (e, buffer, size)

def overSize (x : Segment) (pduSize : Int) : Int :=
  e.computePduHeaderSize x + x.size - pduSize

def addSegment (x : Segment) : Am :=
  { e with heap := { e.heap.updateSdu x.sdu fun s => { s with refCount := s.refCount + 1 } with
      segCount := e.heap.segCount + 1 } }

/-- Cuts a segment so that its PDU fits into `pduSize` bytes; the second result is the rest. -/
def resegment (x : Segment) (pduSize : Int) : Am × Segment × Segment :=
  (e.addSegment x,
    { x with size := x.size - e.overSize x pduSize, isLast := false },
    { x with
      addr := e.heap.segCount, size := e.overSize x pduSize
      so := x.so + (x.size - e.overSize x pduSize), isFirst := false })

def countTxPdu (size : Nat) : Am :=
  { e with stats := { e.stats with
      txpduPkts := e.stats.txpduPkts + 1, txpduBytes := e.stats.txpduBytes + size } }

def countRetxPdu (size : Nat) : Am :=
  { e with stats := { e.stats with
      txpduRetxPkts := e.stats.txpduRetxPkts + 1
      txpduRetxBytes := e.stats.txpduRetxBytes + size } }

/-- A pending `force_poll` is used up by the next data PDU. -/
def takeForcePoll (p : Bool) : Am × Bool :=
  if e.forcePoll then ({ e with forcePoll := false }, true) else (e, p)

def pushRetx (next : Segment) : Am :=
  { e with
    retransmitList := next :: e.retransmitList
    bstatusRetxSize := e.bstatusRetxSize + (e.computePduHeaderSize next + next.size)
    stats := { e.stats with txpduSegmented := e.stats.txpduSegmented + 1 } }

def segmentRetx (x : Segment) (size : Int) : Am × Segment :=
  if e.computePduHeaderSize x + x.size > size then
    let r := e.resegment x size
    (r.1.pushRetx r.2.2, r.2.1)
  else (e, x)

def takeRetx (x : Segment) (rest : List Segment) : Am :=
  { e with
    retransmitList := rest
    bstatusRetxSize := e.bstatusRetxSize - (e.computePduHeaderSize x + x.size) }

def generateRetxPdu (buffer : List UInt8) : Except Fault (Am × List UInt8 × Nat) :=
  match e.retransmitList with
  | [] => .error .nullDeref
  | x :: rest =>
    if e.computePduHeaderSize x + 1 > buffer.length then .ok (e, buffer, 0)
    else do
      let e := e.takeRetx x rest
      let (e, x) := e.segmentRetx x buffer.length
      let e ← e.putInWaitList x
      let (e, p) := e.takeForcePoll e.CheckPollAfterPduAssembly
      let (e, buffer, size) ← e.serializeSdu x buffer p
      return ((e.countTxPdu size).countRetxPdu size, buffer, size)

def assignSn (x : Segment) : Am :=
  if e.snOf x = -1 then
    { e with
      heap := e.heap.updateSdu x.sdu fun s => { s with sn := e.txNext }
      txNext := (e.txNext + 1) % e.snModulus }
  else e

def pushTx (next : Segment) : Am :=
  { e with
    txList := next :: e.txList
    txEnd := if e.txEnd = none then some next else e.txEnd
    bstatusTxSize := e.bstatusTxSize + (e.computePduHeaderSize next + next.size)
    stats := { e.stats with txpduSegmented := e.stats.txpduSegmented + 1 } }

def segmentTx (x : Segment) (size : Int) : Am × Segment :=
  if e.computePduHeaderSize x + x.size > size then
    let r := e.resegment x size
    (r.1.pushTx r.2.2, r.2.1)
  else (e, x)

def pollNewPdu (x : Segment) : Am × Bool :=
  let e := { e with
    pduWithoutPoll := e.pduWithoutPoll + 1, byteWithoutPoll := e.byteWithoutPoll + x.size }
  (e, (e.pollPdu ≠ -1 ∧ e.pduWithoutPoll ≥ e.pollPdu) ∨
    (e.pollByte ≠ -1 ∧ e.byteWithoutPoll ≥ e.pollByte) ∨ e.CheckPollAfterPduAssembly)

def takeTx (x : Segment) (rest : List Segment) : Am :=
  { e with
    txList := rest
    txEnd := if rest = [] then none else e.txEnd
    bstatusTxSize := e.bstatusTxSize - (e.computePduHeaderSize x + x.size) }

def generateTxPdu (buffer : List UInt8) : Except Fault (Am × List UInt8 × Nat) :=
  if e.IsWindowStalling then .ok (e, buffer, 0)
  else
    match e.txList with
    | [] => .ok (e, buffer, 0)
    | x :: rest =>
      if e.computePduHeaderSize x + 1 > buffer.length then .ok (e, buffer, 0)
      else do
        let e := (e.takeTx x rest).assignSn x
        let (e, x) := e.segmentTx x buffer.length
        let e ← e.putInWaitList x
        let (e, p) := e.pollNewPdu x
        let (e, p) := e.takeForcePoll p
        let (e, buffer, size) ← e.serializeSdu x buffer p
        return (e.countTxPdu size, buffer, size)

def generateStatusFirst (fuel : Nat) (e : Am) (buffer : List UInt8) : Except Fault (Am × List UInt8 × Nat) :=
  if e.StatusToReport then e.generateStatus fuel buffer else .ok (e, buffer, 0)

def generateRetxFirst (buffer : List UInt8) : Except Fault (Am × List UInt8 × Nat) :=
  if e.retransmitList ≠ [] then e.generateRetxPdu buffer else .ok (e, buffer, 0)

def generatePdu (fuel : Nat) (e : Am) (buffer : List UInt8) : Except Fault (Am × List UInt8 × Nat) := do
  let s ← e.generateStatusFirst fuel buffer
  if s.2.2 ≠ 0 then return s
  let r ← s.1.generateRetxFirst s.2.1
  if r.2.2 ≠ 0 then return r
  r.1.generateTxPdu r.2.1

/-! ## SDUs from the upper layer -/

def logRejected : Am :=
  if e.sduRejected ≠ 0 ∧ e.tCurrent > u64 (e.tLogBufferFull + 1000)
  then { e with sduRejected := 0, tLogBufferFull := e.tCurrent } else e

def rejectSdu (size : Nat) : Am :=
  { e with
    sduRejected := e.sduRejected + 1
    stats := { e.stats with
      txpduDdPkts := e.stats.txpduDdPkts + 1
      txpduDdBytes := e.stats.txpduDdBytes + size } }

def allocSdu (buffer : List UInt8) (sduId : Int) : Am :=
  { e with
    txSize := e.txSize + buffer.length
    stats := { e.stats with rxsduBytes := e.stats.rxsduBytes + buffer.length }
    heap := (e.heap.nrRlcNewSdu buffer sduId).2 }

def countTxBuffer (x : Segment) : Am :=
  { e with bstatusTxSize := e.bstatusTxSize + (e.computePduHeaderSize x + x.size) }

def acceptSdu (buffer : List UInt8) (sduId : Int) : Except Fault Am := do
  let x := (e.heap.nrRlcNewSdu buffer sduId).1
  let e ← (e.allocSdu buffer sduId).txListAppend x
  return e.countTxBuffer x

def countSdu : Am :=
  { e with stats := { e.stats with rxsduPkts := e.stats.rxsduPkts + 1 } }

def recvSdu (buffer : List UInt8) (sduId : Int) : Except Fault Am :=
  let e := e.countSdu
  if (buffer.length : Int) > nrSduMax then .error .exit
  else
    let e := e.logRejected
    if e.txSize + (buffer.length : Int) > e.txMaxsize then .ok (e.rejectSdu buffer.length)
    else e.acceptSdu buffer sduId

def HasUpperLayerId (sduId : Int) (x : Segment) : Prop :=
  (e.heap.sdus x.sdu).upperLayerId = sduId

instance (sduId : Int) (x : Segment) : Decidable (e.HasUpperLayerId sduId x) :=
  inferInstanceAs (Decidable (_ = _))

def removeSdu (before : List Segment) (cur : Segment) (rest : List Segment) : Am :=
  { e with
    txList := before ++ rest
    txEnd := if e.txEnd.map Segment.addr = some cur.addr then before.getLast? else e.txEnd
    bstatusTxSize := e.bstatusTxSize - (e.computePduHeaderSize cur + cur.size)
    txSize := e.txSize - (e.heap.sdus cur.sdu).size
    heap := (e.heap.nrRlcFreeSduSegment cur).2 }

def discardSdu (sduId : Int) : Am :=
  match e.txList.span (¬e.HasUpperLayerId sduId ·) with
  | (_, []) => e
  | (before, cur :: rest) =>
    if ¬cur.isFirst ∨ ¬cur.isLast then e else e.removeSdu before cur rest

/-! ## Timers -/

def moveToRetransmit (cur : Segment) (rest : List Segment) : Am :=
  { e with
    waitList := rest
    waitEnd := if rest = [] then none else e.waitEnd
    bstatusRetxSize := e.bstatusRetxSize + (e.computePduHeaderSize cur + cur.size)
    retransmitList := e.txSduSegmentListAdd cur e.retransmitList }

/-- The `do` loop of `check_t_poll_retransmit`: the segments of `retransmitSn` at the head of the
wait list go to the retransmit list. -/
def retransmitLoop (retransmitSn : Int) : List Segment → Am → Am
  | [], e => e
  | [cur], e => e.moveToRetransmit cur []
  | cur :: next :: rest, e =>
    let e := e.moveToRetransmit cur (next :: rest)
    if e.snOf next = retransmitSn then retransmitLoop retransmitSn (next :: rest) e else e

def TPollRetransmitExpired : Prop :=
  e.tPollRetransmitStart ≠ 0 ∧ e.tCurrent > u64 (e.tPollRetransmitStart + e.tPollRetransmit)

instance : Decidable e.TPollRetransmitExpired := inferInstanceAs (Decidable (_ ∧ _))

def expirePoll : Am := { e with tPollRetransmitStart := 0, forcePoll := true }

def countPollRetx (cur : Segment) : Am :=
  { e with heap := e.heap.updateSdu cur.sdu fun s => { s with retxCount := s.retxCount + 1 } }

def reportMaxRetx (retxCount : Int) : Am :=
  { e with calls := if retxCount ≥ e.maxRetxThreshold then e.calls ++ [.maxRetxReached] else e.calls }

def checkTPollRetransmit : Except Fault Am :=
  if ¬e.TPollRetransmitExpired then .ok e
  else
    let e := e.expirePoll
    if ¬e.CheckPollAfterPduAssembly then .ok e
    else
      match e.waitList with
      | [] => .error .nullDeref
      | cur :: _ =>
        let e := e.countPollRetx cur
        let sduRetxCount := (e.heap.sdus cur.sdu).retxCount
        .ok ((retransmitLoop (e.snOf cur) e.waitList e).reportMaxRetx sduRetxCount)

def TReassemblyExpired : Prop :=
  e.tReassemblyStart ≠ 0 ∧ e.tCurrent > u64 (e.tReassemblyStart + e.tReassembly)

instance : Decidable e.TReassemblyExpired := inferInstanceAs (Decidable (_ ∧ _))

def restartTReassembly : Am :=
  if 0 < e.snCompareRx e.rxNextHighest ((e.rxHighestStatus + 1) % e.snModulus) ∨
      (e.rxNextHighest = (e.rxHighestStatus + 1) % e.snModulus ∧
        e.sduHasMissingBytes e.rxHighestStatus) then
    { e with tReassemblyStart := e.tCurrent, rxNextStatusTrigger := e.rxNextHighest }
  else e

def moveHighestStatus (sn : Int) : Am :=
  { e with tReassemblyStart := 0, rxHighestStatus := sn, statusTriggered := true }

def checkTReassembly (fuel : Nat) (e : Am) : Except Fault Am :=
  if ¬e.TReassemblyExpired then .ok e
  else do
    let sn ← e.skipDelivered fuel e.rxNextStatusTrigger
    return (e.moveHighestStatus sn).restartTReassembly

def setTime (fuel : Nat) (e : Am) (now : Nat) : Except Fault Am := do
  let e := { e with tCurrent := u64 now }
  let e ← e.checkTPollRetransmit
  e.checkTReassembly fuel

/-! ## Received PDUs -/

def answerPoll (p : Int) : Am :=
  { e with statusTriggered := if p ≠ 0 then true else e.statusTriggered }

/-- The label `discard`: a poll is answered even if the PDU is dropped. -/
def discardPdu (p : Int) (size : Nat) : Am :=
  let e := e.answerPoll p
  { e with stats := { e.stats with
      rxpduDdPkts := e.stats.rxpduDdPkts + 1, rxpduDdBytes := e.stats.rxpduDdBytes + size } }

def readDataHeader (d : Decoder) : (Int × Int × Int × Int) × Decoder :=
  let p := d.getBits 1
  let si := p.2.getBits 2
  let r := if e.snFieldLength = 18 then si.2.getBits 2 else (0, si.2)
  let sn := r.2.getBits e.snFieldLength
  let so := if si.1 / 2 % 2 = 0 then (0, sn.2) else sn.2.getBits 16
  ((p.1, si.1, sn.1, so.1), so.2)

def countOutOfWindow (size : Nat) : Am :=
  { e with stats := { e.stats with
      rxpduOwPkts := e.stats.rxpduOwPkts + 1, rxpduOwBytes := e.stats.rxpduOwBytes + size } }

def countDuplicate (size : Nat) : Am :=
  { e with stats := { e.stats with
      rxpduDupPkts := e.stats.rxpduDupPkts + 1, rxpduDupBytes := e.stats.rxpduDupBytes + size } }

def storePdu (pdu : Pdu) : Am :=
  { e with rxSize := e.rxSize + pdu.size, rx := e.rx.addPdu pdu }

/-- What `recv_pdu` does with a data PDU once its header is decoded: the checks, in their order,
and the reception actions. -/
def recvDataPdu (fuel : Nat) (e : Am) (p sn so : Int) (isFirst isLast : Bool) (data : List UInt8)
    (size : Nat) : Except Fault Am :=
  if ¬isFirst ∧ so = 0 then .ok (e.discardPdu p size)
  else if data.length = 0 then .ok (e.discardPdu p size)
  else if e.rxSize + data.length > e.rxMaxsize then .ok (e.discardPdu p size)
  else if ¬e.SnInRecvWindow sn then .ok ((e.countOutOfWindow size).discardPdu p size)
  else if e.segmentAlreadyReceived sn so data.length then
    .ok ((e.countDuplicate size).discardPdu p size)
  else do
    let e ← (e.storePdu (nrRlcNewPdu sn so isFirst isLast data)).receptionActions fuel sn
    return e.answerPoll p

def countRxPdu (size : Nat) : Am :=
  { e with stats := { e.stats with
      rxpduPkts := e.stats.rxpduPkts + 1, rxpduBytes := e.stats.rxpduBytes + size } }

def recvPdu (fuel : Nat) (e : Am) (buffer : List UInt8) : Except Fault Am :=
  let size := buffer.length
  let e := e.countRxPdu size
  let dc := (Decoder.init buffer).getBits 1
  if dc.2.error then .ok (e.discardPdu 0 size)
  else if dc.1 = 0 then .ok (e.processControlPdu buffer)
  else
    let h := e.readDataHeader dc.2
    let p := h.1.1
    if h.2.error then .ok (e.discardPdu p size)
    else
      e.recvDataPdu fuel p h.1.2.2.1 h.1.2.2.2 (h.1.2.1 / 2 % 2 = 0) (h.1.2.1 % 2 = 0)
        (buffer.drop h.2.byte) size

/-! ## Re-establishment -/

def reestablishment : Am :=
  { e with
    rxNext := 0
    rxNextStatusTrigger := 0
    rxHighestStatus := 0
    rxNextHighest := 0
    statusTriggered := false
    txNext := 0
    txNextAck := 0
    pollSn := 0
    pduWithoutPoll := 0
    byteWithoutPoll := 0
    forcePoll := false
    tCurrent := 0
    tLogBufferFull := 0
    sduRejected := 0
    tPollRetransmitStart := 0
    tReassemblyStart := 0
    tStatusProhibitStart := 0
    rx := e.rx.nrRlcClearRxManager
    rxSize := 0
    heap := ((e.heap.nrRlcFreeSduSegmentList e.txList).nrRlcFreeSduSegmentList
      e.waitList).nrRlcFreeSduSegmentList e.retransmitList
    txList := []
    txEnd := none
    txSize := 0
    waitList := []
    waitEnd := none
    retransmitList := []
    bstatusTxSize := 0
    bstatusRetxSize := 0 }

end Am

/-! ## Runs -/

inductive Op where
  | recvSdu (buffer : List UInt8) (sduId : Int)
  | recvPdu (buffer : List UInt8)
  | generatePdu (buffer : List UInt8)
  | setTime (now : Nat)
  | discardSdu (sduId : Int)
  | reestablishment
  deriving Repr, DecidableEq

namespace Am

def exec (fuel : Nat) (e : Am) : Op → Except Fault Am
  | .recvSdu buffer sduId => e.recvSdu buffer sduId
  | .recvPdu buffer => e.recvPdu fuel buffer
  | .generatePdu buffer => (e.generatePdu fuel buffer).map Prod.fst
  | .setTime now => e.setTime fuel now
  | .discardSdu sduId => .ok (e.discardSdu sduId)
  | .reestablishment => .ok e.reestablishment

def Returns (e : Am) (op : Op) (e' : Am) : Prop := ∃ fuel, e.exec fuel op = .ok e'

def execAll (fuel : Nat) (e : Am) : List Op → Except Fault Am
  | [] => .ok e
  | op :: ops => do
    let e ← e.exec fuel op
    e.execAll fuel ops

/-- The states that a new entity reaches by operations that return, where each operation meets the
condition `ok` in the state it starts from. -/
inductive Reaches (ok : Am → Op → Prop) (c : AmConfig) : Am → Prop where
  | new : Reaches ok c (newNrRlcEntityAm c)
  | step {e e' : Am} {op : Op} : Reaches ok c e → ok e op → e.Returns op e' → Reaches ok c e'

def Reachable (c : AmConfig) (e : Am) : Prop := Reaches (fun _ _ => True) c e

end Am

end OaiNr.Rlc
