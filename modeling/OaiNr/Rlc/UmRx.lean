import OaiNr.Rlc.AmRx

/-!
# The UM entity and its reception (`nr_rlc_entity_um.c`, PDU RX functions)

An SDU that is sent as a whole has no sequence number and is delivered at once. Segments wait in one list, in the
order of SN and SO. `tx_end`, which always points at the last segment of `tx_list`, and the reference counts of the
SDUs are left out.
-/

namespace OaiNr.Rlc

structure UmStats where
  txpduPkts : Nat := 0
  txpduBytes : Nat := 0
  txpduSegmented : Nat := 0
  rxpduPkts : Nat := 0
  rxpduBytes : Nat := 0
  rxpduDdPkts : Nat := 0
  rxpduDdBytes : Int := 0
  rxpduOwPkts : Nat := 0
  rxpduOwBytes : Int := 0
  txsduPkts : Nat := 0
  txsduBytes : Nat := 0
  rxsduPkts : Nat := 0
  rxsduBytes : Nat := 0
  rxsduDdPkts : Nat := 0
  rxsduDdBytes : Nat := 0
  deriving Repr, DecidableEq

/-- A segment of an SDU in the transmit list; `data` is the whole SDU. -/
structure UmSegment where
  upperLayerId : Int
  data : List UInt8
  size : Nat
  so : Nat
  isFirst : Bool
  isLast : Bool
  deriving Repr, DecidableEq

structure Um where
  -- configuration
  tReassembly : Int
  snFieldLength : Nat
  snModulus : Int
  windowSize : Int
  -- runtime rx
  rxNextHighest : Int
  rxNextReassembly : Int
  rxTimerTrigger : Int
  -- runtime tx
  txNext : Int
  -- time; a start of 0 means that the timer is not running
  tCurrent : Int
  tLogBufferFull : Int
  sduRejected : Int
  tReassemblyStart : Int
  -- rx management
  rxList : List Pdu
  rxSize : Int
  rxMaxsize : Int
  -- tx management
  txList : List UmSegment
  txSize : Int
  txMaxsize : Int
  -- buffer status, statistics and callbacks
  bstatusTxSize : Int
  stats : UmStats
  calls : List Call
  deriving Repr, DecidableEq

/-- The arguments of `new_nr_rlc_entity_um`. The SN length is one that its assertion accepts. -/
structure UmConfig where
  rxMaxsize : Int
  txMaxsize : Int
  tReassembly : Int
  snFieldLength : Nat
  snValid : snFieldLength = 6 ∨ snFieldLength = 12

namespace Um

def newNrRlcEntityUm (c : UmConfig) : Um :=
  { tReassembly := c.tReassembly
    snFieldLength := c.snFieldLength
    snModulus := 2 ^ c.snFieldLength
    windowSize := 2 ^ c.snFieldLength / 2
    rxNextHighest := 0
    rxNextReassembly := 0
    rxTimerTrigger := 0
    txNext := 0
    tCurrent := 0
    tLogBufferFull := 0
    sduRejected := 0
    tReassemblyStart := 0
    rxList := []
    rxSize := 0
    rxMaxsize := c.rxMaxsize
    txList := []
    txSize := 0
    txMaxsize := c.txMaxsize
    bstatusTxSize := 0
    stats := {}
    calls := [] }

/-! ## Sequence numbers -/

variable (e : Um)

/-- The base is `rx_next_highest - window_size`. -/
def modulusRx (a : Int) : Int :=
  let r := a - (e.rxNextHighest - e.windowSize)
  (if r < 0 then r + e.snModulus else r) % e.snModulus

def snCompareRx (a b : Int) : Int := e.modulusRx a - e.modulusRx b

/-! ## The segments of one SDU -/

def segmentsOf (sn : Int) (l : List Pdu) : List Pdu :=
  (l.dropWhile (·.sn ≠ sn)).takeWhile (·.sn = sn)

def replaceSegments (sn : Int) (f : Pdu → Pdu) (l : List Pdu) : List Pdu :=
  l.takeWhile (·.sn ≠ sn) ++ ((segmentsOf sn l).map f ++
    (l.dropWhile (·.sn ≠ sn)).dropWhile (·.sn = sn))

def sduFull (sn : Int) : Bool :=
  if Am.processed (segmentsOf sn e.rxList) then false else Am.sduFullLoop (segmentsOf sn e.rxList) (-1)

def sduDelivered (sn : Int) : Bool := Am.processed (segmentsOf sn e.rxList)

def sduHasMissingBytes (sn : Int) : Bool :=
  if Am.processed (segmentsOf sn e.rxList) then false else Am.missingLoop (segmentsOf sn e.rxList) (-1)

/-- The loop `while (sdu_delivered(sn)) sn = (sn + 1) % sn_modulus`. -/
def skipDelivered (fuel : Nat) (e : Um) (sn : Int) : Except Fault Int :=
  withFuel (Loop.run (fun sn => e.sduDelivered sn) (fun sn => (sn + 1) % e.snModulus) fuel sn)

def deliverSdu (sdu : List UInt8) : Um :=
  { e with
    calls := e.calls ++ [.deliverSdu sdu]
    stats := { e.stats with
      txsduPkts := e.stats.txsduPkts + 1, txsduBytes := e.stats.txsduBytes + sdu.length } }

def reassembleAndDeliver (sn : Int) : Except Fault Um :=
  let l := segmentsOf sn e.rxList
  let e := { e with
    rxList := replaceSegments sn (fun p => { p with data := none, size := 0 }) e.rxList
    rxSize := e.rxSize - (l.map Pdu.size).sum }
  match Am.reassembleLoop l [] 0 with
  | .error f => .error f
  | .ok none => .ok e
  | .ok (some sdu) => .ok (e.deliverSdu sdu)

/-! ## Reception -/

def deliverFull (fuel : Nat) (e : Um) (x : Int) : Except Fault Um := do
  let e ← e.reassembleAndDeliver x
  if x = e.rxNextReassembly then
    let sn ← e.skipDelivered fuel e.rxNextReassembly
    return { e with rxNextReassembly := sn }
  else return e

def dropOutside (l rest : List Pdu) : Um :=
  { e with
    rxList := rest
    rxSize := e.rxSize - (l.map Pdu.size).sum
    stats := { e.stats with
      rxpduDdPkts := e.stats.rxpduDdPkts + l.length
      rxpduDdBytes := e.stats.rxpduDdBytes + (l.map Pdu.size).sum
      rxpduOwPkts := e.stats.rxpduOwPkts + l.length
      rxpduOwBytes := e.stats.rxpduOwBytes + (l.map Pdu.size).sum } }

def OutsideWindow (sn : Int) : Prop := 0 ≤ e.snCompareRx sn e.rxNextHighest

instance (sn : Int) : Decidable (e.OutsideWindow sn) := inferInstanceAs (Decidable (_ ≤ _))

def moveWindow (fuel : Nat) (e : Um) (x : Int) : Except Fault Um := do
  let e := { e with rxNextHighest := (x + 1) % e.snModulus }
  let e := e.dropOutside (e.rxList.takeWhile (e.OutsideWindow ·.sn))
    (e.rxList.dropWhile (e.OutsideWindow ·.sn))
  if e.OutsideWindow e.rxNextReassembly then
    let sn ← e.skipDelivered fuel ((e.rxNextHighest - e.windowSize + e.snModulus) % e.snModulus)
    return { e with rxNextReassembly := sn }
  else return e

def receiveSegment (fuel : Nat) (e : Um) (x : Int) : Except Fault Um :=
  if e.OutsideWindow x then e.moveWindow fuel x else .ok e

def stopTReassembly : Um :=
  if e.tReassemblyStart ≠ 0 ∧
      (e.snCompareRx e.rxTimerTrigger e.rxNextReassembly ≤ 0 ∨
        0 < e.snCompareRx e.rxTimerTrigger e.rxNextHighest ∨
        (e.rxNextHighest = (e.rxNextReassembly + 1) % e.snModulus ∧
          ¬e.sduHasMissingBytes e.rxNextReassembly)) then
    { e with tReassemblyStart := 0 }
  else e

def startTReassembly : Um :=
  if e.tReassemblyStart = 0 ∧
      (0 < e.snCompareRx e.rxNextHighest ((e.rxNextReassembly + 1) % e.snModulus) ∨
        (e.rxNextHighest = (e.rxNextReassembly + 1) % e.snModulus ∧
          e.sduHasMissingBytes e.rxNextReassembly)) then
    { e with tReassemblyStart := e.tCurrent, rxTimerTrigger := e.rxNextHighest }
  else e

def receptionActions (fuel : Nat) (e : Um) (x : Int) : Except Fault Um := do
  let e ← if e.sduFull x then e.deliverFull fuel x else e.receiveSegment fuel x
  return e.stopTReassembly.startTReassembly

/-- The list is ordered by SN, and by SO for the same SN (`nr_rlc_pdu_list_add`). -/
def pduListAdd (e : Um) (pdu : Pdu) : List Pdu → List Pdu
  | [] => [pdu]
  | cur :: l =>
    if 0 < e.snCompareRx cur.sn pdu.sn ∨ (cur.sn = pdu.sn ∧ pdu.so < cur.so) then pdu :: cur :: l
    else cur :: e.pduListAdd pdu l

def storePdu (pdu : Pdu) : Um :=
  { e with rxSize := e.rxSize + pdu.size, rxList := e.pduListAdd pdu e.rxList }

def discardPdu (size : Nat) : Um :=
  { e with stats := { e.stats with
      rxpduDdPkts := e.stats.rxpduDdPkts + 1, rxpduDdBytes := e.stats.rxpduDdBytes + size } }

/-- What `recv_pdu` does with a segment once its header is decoded. -/
def recvSegment (fuel : Nat) (e : Um) (sn so : Int) (isFirst isLast : Bool) (data : List UInt8)
    (size : Nat) : Except Fault Um :=
  if ¬isFirst ∧ so = 0 then .ok (e.discardPdu size)
  else if data.length = 0 then .ok (e.discardPdu size)
  else if e.rxSize + data.length > e.rxMaxsize then .ok (e.discardPdu size)
  else if e.snCompareRx sn e.rxNextReassembly < 0 then .ok (e.discardPdu size)
  else (e.storePdu (nrRlcNewPdu sn so isFirst isLast data)).receptionActions fuel sn

def readSegmentHeader (isFirst : Bool) (d : Decoder) : (Int × Int) × Decoder :=
  let r := if e.snFieldLength = 12 then d.getBits 2 else (0, d)
  let sn := r.2.getBits e.snFieldLength
  let so := if isFirst then (0, sn.2) else sn.2.getBits 16
  ((sn.1, so.1), so.2)

def countRxPdu (size : Nat) : Um :=
  { e with stats := { e.stats with
      rxpduPkts := e.stats.rxpduPkts + 1, rxpduBytes := e.stats.rxpduBytes + size } }

def recvPdu (fuel : Nat) (e : Um) (buffer : List UInt8) : Except Fault Um :=
  let size := buffer.length
  let e := e.countRxPdu size
  let si := (Decoder.init buffer).getBits 2
  let isFirst : Bool := si.1 / 2 % 2 = 0
  let isLast : Bool := si.1 % 2 = 0
  if si.2.error then .ok (e.discardPdu size)
  else if isFirst && isLast then
    if size < 2 then .ok (e.discardPdu size) else .ok (e.deliverSdu (buffer.drop 1))
  else
    let h := e.readSegmentHeader isFirst si.2
    if h.2.error then .ok (e.discardPdu size)
    else e.recvSegment fuel h.1.1 h.1.2 isFirst isLast (buffer.drop h.2.byte) size

/-- The bytes behind the header of a PDU, where `recv_pdu` finds them. -/
def pduPayload (pdu : List UInt8) : List UInt8 :=
  let si := (Decoder.init pdu).getBits 2
  let isFirst : Bool := si.1 / 2 % 2 = 0
  let isLast : Bool := si.1 % 2 = 0
  if isFirst && isLast then pdu.drop 1 else pdu.drop (e.readSegmentHeader isFirst si.2).2.byte

end Um

end OaiNr.Rlc
