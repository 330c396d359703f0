import OaiNr.Lib.Loop
import OaiNr.Rlc.RxManager
import OaiNr.Rlc.Sdu

/-!
# The AM entity (`nr_rlc_entity_am.h`, `nr_rlc_entity.c`)

The record of an acknowledged-mode entity, its creation, and the arithmetic on sequence numbers. The callbacks of the
upper layer are recorded in `calls`, the oldest first.
-/

namespace OaiNr.Rlc

inductive Call where
  | deliverSdu (buf : List UInt8)
  | sduSuccessfulDelivery (sduId : Int)
  | maxRetxReached
  deriving Repr, DecidableEq

/-- Why a call does not return: the code exits or aborts, it follows a null pointer, it reads a
node that was freed, or a loop is still running when the fuel of the model is used up. -/
inductive Fault where
  | exit
  | nullDeref
  | useAfterFree
  | outOfFuel
  deriving Repr, DecidableEq

def withFuel {α : Type} : Option α → Except Fault α
  | none => .error .outOfFuel
  | some a => .ok a

structure Stats where
  txpduPkts : Nat := 0
  txpduBytes : Nat := 0
  txpduDdPkts : Nat := 0
  txpduDdBytes : Nat := 0
  txpduRetxPkts : Nat := 0
  txpduRetxBytes : Nat := 0
  txpduSegmented : Nat := 0
  txpduStatusPkts : Nat := 0
  txpduStatusBytes : Nat := 0
  rxpduPkts : Nat := 0
  rxpduBytes : Nat := 0
  rxpduDupPkts : Nat := 0
  rxpduDupBytes : Nat := 0
  rxpduDdPkts : Nat := 0
  rxpduDdBytes : Nat := 0
  rxpduOwPkts : Nat := 0
  rxpduOwBytes : Nat := 0
  txsduPkts : Nat := 0
  txsduBytes : Int := 0
  rxsduPkts : Nat := 0
  rxsduBytes : Nat := 0
  deriving Repr, DecidableEq

/-- The AM entity (`nr_rlc_entity_am_t`). `waitEnd` and `txEnd` are pointers into the lists and
are kept as the nodes they point at. -/
structure Am where
  -- configuration
  tPollRetransmit : Int
  tReassembly : Int
  tStatusProhibit : Int
  pollPdu : Int
  pollByte : Int
  maxRetxThreshold : Int
  snFieldLength : Nat
  snModulus : Int
  windowSize : Int
  -- runtime rx
  rxNext : Int
  rxNextStatusTrigger : Int
  rxHighestStatus : Int
  rxNextHighest : Int
  statusTriggered : Bool
  -- runtime tx
  txNext : Int
  txNextAck : Int
  pollSn : Int
  pduWithoutPoll : Int
  byteWithoutPoll : Int
  forcePoll : Bool
  -- time; a start of 0 means that the timer is not running
  tCurrent : Int
  tLogBufferFull : Int
  sduRejected : Int
  tPollRetransmitStart : Int
  tReassemblyStart : Int
  tStatusProhibitStart : Int
  -- rx management
  rx : RxManager
  rxSize : Int
  rxMaxsize : Int
  -- tx management
  txList : List Segment
  txEnd : Option Segment
  txSize : Int
  txMaxsize : Int
  waitList : List Segment
  waitEnd : Option Segment
  retransmitList : List Segment
  -- buffer status, statistics, memory and callbacks
  bstatusTxSize : Int
  bstatusRetxSize : Int
  stats : Stats
  heap : Heap
  calls : List Call

/-- The arguments of `new_nr_rlc_entity_am`. The SN length is one that its assertion accepts. -/
structure AmConfig where
  rxMaxsize : Int
  txMaxsize : Int
  tPollRetransmit : Int
  tReassembly : Int
  tStatusProhibit : Int
  pollPdu : Int
  pollByte : Int
  maxRetxThreshold : Int
  snFieldLength : Nat
  snValid : snFieldLength = 12 ∨ snFieldLength = 18

/-- The configuration of `tests/test1.h`. -/
def AmConfig.test1 : AmConfig :=
  { rxMaxsize := 100000, txMaxsize := 100000, tPollRetransmit := 45, tReassembly := 35
    tStatusProhibit := 0, pollPdu := -1, pollByte := -1, maxRetxThreshold := 8
    snFieldLength := 12, snValid := .inl rfl }

def nrSduMax : Int := 16000

def u64 (x : Int) : Int := x % 18446744073709551616

namespace Am

def newNrRlcEntityAm (c : AmConfig) : Am :=
  { tPollRetransmit := c.tPollRetransmit
    tReassembly := c.tReassembly
    tStatusProhibit := c.tStatusProhibit
    pollPdu := c.pollPdu
    pollByte := c.pollByte
    maxRetxThreshold := c.maxRetxThreshold
    snFieldLength := c.snFieldLength
    snModulus := 2 ^ c.snFieldLength
    windowSize := 2 ^ c.snFieldLength / 2
    rxNext := 0
    rxNextStatusTrigger := 0
    rxHighestStatus := 0
    rxNextHighest := 0
    statusTriggered := false
    txNext := 0
    txNextAck := 0
    pollSn := 0
    pduWithoutPoll := 0
    byteWithoutPoll := 0
    forcePoll := false
    tCurrent := 0
    tLogBufferFull := 0
    sduRejected := 0
    tPollRetransmitStart := 0
    tReassemblyStart := 0
    tStatusProhibitStart := 0
    rx := .nrRlcNewRxManager (2 ^ (c.snFieldLength - 1))
    rxSize := 0
    rxMaxsize := c.rxMaxsize * 5
    txList := []
    txEnd := none
    txSize := 0
    txMaxsize := c.txMaxsize * 5
    waitList := []
    waitEnd := none
    retransmitList := []
    bstatusTxSize := 0
    bstatusRetxSize := 0
    stats := {}
    heap := .empty
    calls := [] }

variable (e : Am)

def computePduHeaderSize (x : Segment) : Int :=
  2 + (if e.snFieldLength = 18 then 1 else 0) + (if x.isFirst then 0 else 2)

/-- The `sn` of the SDU that a segment belongs to, `-1` as long as it has none. -/
def snOf (x : Segment) : Int := (e.heap.sdus x.sdu).sn

/-! ## Sequence numbers relative to a window -/

def modulusRx (a : Int) : Int :=
  if a - e.rxNext < 0 then a - e.rxNext + e.snModulus else a - e.rxNext

def modulusTx (a : Int) : Int :=
  if a - e.txNextAck < 0 then a - e.txNextAck + e.snModulus else a - e.txNextAck

def SnInRecvWindow (sn : Int) : Prop := e.modulusRx sn < e.windowSize

instance (sn : Int) : Decidable (e.SnInRecvWindow sn) :=
  inferInstanceAs (Decidable (_ < _))

def snCompareRx (a b : Int) : Int := e.modulusRx a - e.modulusRx b

def snCompareTx (a b : Int) : Int := e.modulusTx a - e.modulusTx b

end Am

end OaiNr.Rlc
