import OaiNr.Rlc.AmTx
import OaiNr.Rlc.UmRx

/-!
# Transmission, timers and runs of the UM entity (`nr_rlc_entity_um.c`)
-/

namespace OaiNr.Rlc

namespace Um

/-! ## Transmission -/

variable (e : Um)

def computePduHeaderSize (x : UmSegment) : Nat :=
  1 + (if ¬(x.isFirst ∧ x.isLast) ∧ e.snFieldLength = 12 then 1 else 0) + (if x.isFirst then 0 else 2)

def putHeader (x : UmSegment) (sn : Int) (n : Encoder) : Encoder :=
  let n := n.putBits (if x.isFirst then 0 else 1) 1
  let n := n.putBits (if x.isLast then 0 else 1) 1
  let n :=
    if x.isFirst ∧ x.isLast then n.putBits 0 6
    else
      let n := if e.snFieldLength = 12 then n.putBits 0 2 else n
      n.putBits sn e.snFieldLength
  if x.isFirst then n else n.putBits x.so 16

def payload (x : UmSegment) : List UInt8 := (x.data.drop x.so).take x.size

def serializeSdu (x : UmSegment) (sn : Int) (buffer : List UInt8) : Except Fault (List UInt8 × Nat) :=
  let n := e.putHeader x sn (.init buffer)
  if n.full then .error .exit
  else
    let size := n.byte + x.size
    .ok (n.buffer.take n.byte ++ payload x ++ n.buffer.drop size, size)

def resegment (x : UmSegment) (pduSize : Nat) : Option (UmSegment × UmSegment) :=
  let pduHeaderSize := e.computePduHeaderSize { x with isLast := false }
  if pduSize < pduHeaderSize + 1 then none
  else
    let overSize := pduHeaderSize + x.size - pduSize
    some ({ x with size := x.size - overSize, isLast := false },
      { x with size := overSize, so := x.so + (x.size - overSize), isFirst := false })

def takeHead (x : UmSegment) (rest : List UmSegment) : Um :=
  { e with
    txList := rest
    bstatusTxSize := e.bstatusTxSize - (e.computePduHeaderSize x + x.size : Nat) }

/-- The rest of a segment goes back to the head of the list; both `resegment` and its caller count it. -/
def putBack (next : UmSegment) : Um :=
  { e with
    txList := next :: e.txList
    bstatusTxSize := e.bstatusTxSize + (e.computePduHeaderSize next + next.size : Nat)
    stats := { e.stats with txpduSegmented := e.stats.txpduSegmented + 2 } }

/-- The entity behind the transmission of a segment; the last segment of an SDU uses up `tx_next`. -/
def segmentSent (x : UmSegment) (grant : Nat) : Um :=
  { e with
    txNext := if ¬x.isFirst ∧ x.isLast then (e.txNext + 1) % e.snModulus else e.txNext
    txSize := e.txSize - x.size
    stats := { e.stats with
      txpduPkts := e.stats.txpduPkts + 1, txpduBytes := e.stats.txpduBytes + grant } }

def sendSegment (x : UmSegment) (buffer : List UInt8) : Except Fault (Um × List UInt8 × Nat) :=
  (e.serializeSdu x e.txNext buffer).map fun r => (e.segmentSent x buffer.length, r.1, r.2)

/-- The result is the entity, the buffer and the size of the PDU in it. If the head of the list can
not be cut to the size of the grant, it is gone all the same. -/
def generatePdu (buffer : List UInt8) : Except Fault (Um × List UInt8 × Nat) :=
  match e.txList with
  | [] => .ok (e, buffer, 0)
  | x :: rest =>
    if buffer.length < e.computePduHeaderSize x + 1 then .ok (e, buffer, 0)
    else if buffer.length < e.computePduHeaderSize x + x.size then
      match e.resegment x buffer.length with
      | none => .ok (e.takeHead x rest, buffer, 0)
      | some (x', next) => ((e.takeHead x rest).putBack next).sendSegment x' buffer
    else (e.takeHead x rest).sendSegment x buffer

/-! ## SDUs -/

def countSdu (size : Nat) : Um :=
  { e with stats := { e.stats with
      rxsduPkts := e.stats.rxsduPkts + 1, rxsduBytes := e.stats.rxsduBytes + size } }

def logRejected : Um :=
  if e.sduRejected ≠ 0 ∧ e.tCurrent > u64 (e.tLogBufferFull + 1000) then
    { e with sduRejected := 0, tLogBufferFull := e.tCurrent }
  else e

def rejectSdu (size : Nat) : Um :=
  { e with
    sduRejected := e.sduRejected + 1
    stats := { e.stats with
      rxsduDdPkts := e.stats.rxsduDdPkts + 1, rxsduDdBytes := e.stats.rxsduDdBytes + size } }

def newSdu (buffer : List UInt8) (sduId : Int) : UmSegment :=
  { upperLayerId := sduId, data := buffer, size := buffer.length, so := 0, isFirst := true, isLast := true }

def acceptSdu (buffer : List UInt8) (sduId : Int) : Um :=
  { e with
    txSize := e.txSize + buffer.length
    txList := e.txList ++ [newSdu buffer sduId]
    bstatusTxSize := e.bstatusTxSize +
      (e.computePduHeaderSize (newSdu buffer sduId) + buffer.length : Nat) }

def recvSdu (buffer : List UInt8) (sduId : Int) : Except Fault Um :=
  let e := e.countSdu buffer.length
  if (buffer.length : Int) > nrSduMax then .error .exit
  else
    let e := e.logRejected
    if e.txSize + (buffer.length : Int) > e.txMaxsize then .ok (e.rejectSdu buffer.length)
    else .ok (e.acceptSdu buffer sduId)

/-- Takes the SDU out of the transmit list; `tx_size` stays as it is. -/
def removeSdu (before : List UmSegment) (cur : UmSegment) (rest : List UmSegment) : Um :=
  { e with
    txList := before ++ rest
    bstatusTxSize := e.bstatusTxSize - (e.computePduHeaderSize cur + cur.size : Nat) }

def discardSdu (sduId : Int) : Um :=
  match e.txList.span (·.upperLayerId ≠ sduId) with
  | (_, []) => e
  | (before, cur :: rest) =>
    if ¬cur.isFirst ∨ ¬cur.isLast then e else e.removeSdu before cur rest

/-! ## Time -/

def TReassemblyExpired : Prop :=
  e.tReassemblyStart ≠ 0 ∧ e.tCurrent > u64 (e.tReassemblyStart + e.tReassembly)

instance : Decidable e.TReassemblyExpired := inferInstanceAs (Decidable (_ ∧ _))

/-- Frees the segments `l` at the head of the list; `rx_size` stays as it is. -/
def dropExpired (l rest : List Pdu) : Um :=
  { e with
    rxList := rest
    stats := { e.stats with
      rxpduDdPkts := e.stats.rxpduDdPkts + l.length
      rxpduDdBytes := e.stats.rxpduDdBytes + (l.map Pdu.size).sum } }

def Passed (sn : Int) : Prop := e.snCompareRx sn e.rxNextReassembly < 0

instance (sn : Int) : Decidable (e.Passed sn) := inferInstanceAs (Decidable (_ < _))

/-- The restart of t-Reassembly at its expiry; the sum is not taken modulo `sn_modulus`. -/
def restartTReassembly : Um :=
  if 0 < e.snCompareRx e.rxNextHighest ((e.rxNextReassembly + 1) % e.snModulus) ∨
      (e.rxNextHighest = e.rxNextReassembly + 1 ∧ e.sduHasMissingBytes e.rxNextReassembly) then
    { e with tReassemblyStart := e.tCurrent, rxTimerTrigger := e.rxNextHighest }
  else e

def checkTReassembly (fuel : Nat) (e : Um) : Except Fault Um :=
  if ¬e.TReassemblyExpired then .ok e
  else do
    let sn ← e.skipDelivered fuel e.rxTimerTrigger
    let e := { e with tReassemblyStart := 0, rxNextReassembly := sn }
    return (e.dropExpired (e.rxList.takeWhile (e.Passed ·.sn))
      (e.rxList.dropWhile (e.Passed ·.sn))).restartTReassembly

def setTime (fuel : Nat) (e : Um) (now : Nat) : Except Fault Um :=
  { e with tCurrent := u64 now }.checkTReassembly fuel

/-! ## Re-establishment -/

def reestablishment : Um :=
  { e with
    rxNextHighest := 0
    rxNextReassembly := 0
    rxTimerTrigger := 0
    txNext := 0
    tCurrent := 0
    tLogBufferFull := 0
    sduRejected := 0
    tReassemblyStart := 0
    rxList := []
    rxSize := 0
    txList := []
    txSize := 0
    bstatusTxSize := 0 }

/-! ## Runs -/

def exec (fuel : Nat) (e : Um) : Op → Except Fault Um
  | .recvSdu buffer sduId => e.recvSdu buffer sduId
  | .recvPdu buffer => e.recvPdu fuel buffer
  | .generatePdu buffer => (e.generatePdu buffer).map Prod.fst
  | .setTime now => e.setTime fuel now
  | .discardSdu sduId => .ok (e.discardSdu sduId)
  | .reestablishment => .ok e.reestablishment

def Returns (op : Op) (e' : Um) : Prop := ∃ fuel, e.exec fuel op = .ok e'

def execAll (fuel : Nat) (e : Um) : List Op → Except Fault Um
  | [] => .ok e
  | op :: ops => do
    let e ← e.exec fuel op
    e.execAll fuel ops

inductive Reaches (ok : Um → Op → Prop) (c : UmConfig) : Um → Prop where
  | new : Reaches ok c (newNrRlcEntityUm c)
  | step {e e' : Um} {op : Op} : Reaches ok c e → ok e op → e.Returns op e' → Reaches ok c e'

def Reachable (c : UmConfig) (e : Um) : Prop := Reaches (fun _ _ => True) c e

end Um

end OaiNr.Rlc
