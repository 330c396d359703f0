import OaiNr.Rlc.Entity

/-!
# Reception of status PDUs (`process_control_pdu`)

The PDU is decoded twice: to validate it, and to walk over the wait list and the retransmit list. The `goto`s of the
walk are the constructors of `Flow`, the pointers into the lists the parts of `Walk`.
-/

namespace OaiNr.Rlc

/-- One NACK block of a status PDU. `soEnd` is `-1` for "up to the end of the SDU". -/
structure NackBlock where
  nackSn : Int
  e1 : Int
  soStart : Int
  soEnd : Int
  range : Int
  deriving Repr, DecidableEq

structure Nack where
  sn : Int
  soStart : Int
  soEnd : Int
  deriving Repr, DecidableEq

/-- What the code jumps to after a segment: the next segment, the next NACK, or the end. -/
inductive Flow where
  | processNextPdu
  | doneNack
  | listsOver
  deriving Repr, DecidableEq

def SoOverlap (s1 e1 s2 e2 : Int) : Prop :=
  (s1 < s2 ∧ (e1 = -1 ∨ s2 ≤ e1)) ∨ (¬s1 < s2 ∧ (e2 = -1 ∨ s1 ≤ e2))

instance (s1 e1 s2 e2 : Int) : Decidable (SoOverlap s1 e1 s2 e2) :=
  inferInstanceAs (Decidable (_ ∨ _))

namespace Am

/-! ## Decoding -/

def readSo (d : Decoder) (e2 : Int) : (Int × Int) × Decoder :=
  if e2 ≠ 0 then
    let start := d.getBits 16
    let end_ := start.2.getBits 16
    ((start.1, end_.1), end_.2)
  else ((0, 0xffff), d)

def readRange (d : Decoder) (e3 : Int) : Int × Decoder := if e3 ≠ 0 then d.getBits 8 else (1, d)

variable (e : Am)

def readNack (d : Decoder) : NackBlock × Decoder :=
  let sn := d.getBits e.snFieldLength
  let e1 := sn.2.getBits 1
  let e2 := e1.2.getBits 1
  let e3 := e2.2.getBits 1
  let r := e3.2.getBits (if e.snFieldLength = 18 then 3 else 1)
  let so := readSo r.2 e2.1
  let range := readRange so.2 e3.1
  ({ nackSn := sn.1, e1 := e1.1, soStart := so.1.1,
     soEnd := if so.1.2 = 0xffff then -1 else so.1.2, range := range.1 }, range.2)

def readHeader (d : Decoder) : (Int × Int × Int) × Decoder :=
  let dc := d.getBits 1
  let cpt := dc.2.getBits 3
  let ackSn := cpt.2.getBits e.snFieldLength
  let e1 := ackSn.2.getBits 1
  let r := e1.2.getBits (if e.snFieldLength = 18 then 1 else 7)
  ((cpt.1, ackSn.1, e1.1), r.2)

/-- The SNs of a block: the bytes before `soStart` of the first one and those behind `soEnd` of
the last one are not missing. -/
def expand (b : NackBlock) : List Nack :=
  (List.range b.range.toNat).map fun (i : Nat) =>
    { sn := (b.nackSn + i) % e.snModulus
      soStart := if i = 0 then b.soStart else 0
      soEnd := if (i : Int) = b.range - 1 then b.soEnd else -1 }

/-! ## Validation -/

def BadNack (prevNackSn prevSoEnd ackSn : Int) (n : Nack) : Prop :=
  (prevNackSn ≠ -1 ∧
    (e.snCompareTx n.sn prevNackSn < 0 ∨
      (e.snCompareTx n.sn prevNackSn = 0 ∧ (prevSoEnd = -1 ∨ n.soStart ≤ prevSoEnd)))) ∨
  0 < e.snCompareTx n.sn ackSn

instance (prevNackSn prevSoEnd ackSn : Int) (n : Nack) :
    Decidable (e.BadNack prevNackSn prevSoEnd ackSn n) := inferInstanceAs (Decidable (_ ∨ _))

/-- The validating `while (e1)`. The code never assigns `prev_nack_sn` here: it keeps its initial
value `-1`, and `prev_so_end` its initial `0`. Every block takes two bytes at least, so a fuel of
the length of the PDU is not used up before the decoder reports an error. -/
def validateNacks (e : Am) (ackSn : Int) : Nat → Decoder → Bool
  | 0, _ => false
  | fuel + 1, d =>
    let b := e.readNack d
    if b.2.error then false
    else if ∃ n ∈ e.expand b.1, e.BadNack (-1) 0 ackSn n then false
    else if b.1.e1 ≠ 0 then validateNacks e ackSn fuel b.2
    else true

def validateControlPdu (buffer : List UInt8) : Bool :=
  let h := e.readHeader (.init buffer)
  if h.2.error then false
  else if h.1.1 ≠ 0 then false
  else if 0 < e.snCompareTx h.1.2.1 e.txNext then false
  else if h.1.2.2 ≠ 0 then e.validateNacks h.1.2.1 (buffer.length + 1) h.2
  else true

/-- The NACK blocks as the second pass decodes them, without looking at decoding errors. -/
def readNacks (e : Am) : Nat → Decoder → List NackBlock
  | 0, _ => []
  | fuel + 1, d =>
    let b := e.readNack d
    if b.1.e1 ≠ 0 then b.1 :: readNacks e fuel b.2 else [b.1]

def nackBlocks (buffer : List UInt8) : List NackBlock :=
  let h := e.readHeader (.init buffer)
  if h.1.2.2 ≠ 0 then e.readNacks (buffer.length + 1) h.2 else []

def ackSnOf (buffer : List UInt8) : Int := (e.readHeader (.init buffer)).1.2.1

/-! ## The walk over the lists -/

def Nacked (n : Nack) (x : Segment) : Prop :=
  e.snOf x = n.sn ∧ SoOverlap n.soStart n.soEnd x.so (x.so + x.size - 1)

instance (n : Nack) (x : Segment) : Decidable (e.Nacked n x) :=
  inferInstanceAs (Decidable (_ ∧ _))

/-- The segment lies behind the start of the NACK. If it is not nacked, it cannot be classified
yet. -/
def BehindNack (n : Nack) (x : Segment) : Prop :=
  0 < e.snCompareTx (e.snOf x) n.sn ∨
    (e.snCompareTx (e.snOf x) n.sn = 0 ∧ n.soStart < x.so)

instance (n : Nack) (x : Segment) : Decidable (e.BehindNack n x) :=
  inferInstanceAs (Decidable (_ ∨ _))

def NacksPoll (b : NackBlock) : Prop :=
  e.snCompareTx b.nackSn e.pollSn ≤ 0 ∧
    e.snCompareTx e.pollSn ((b.nackSn + b.range) % e.snModulus) < 0

instance (b : NackBlock) : Decidable (e.NacksPoll b) := inferInstanceAs (Decidable (_ ∧ _))

def Precedes (x y : Segment) : Prop :=
  e.snCompareTx (e.snOf x) (e.snOf y) < 0 ∨
    (e.snCompareTx (e.snOf x) (e.snOf y) = 0 ∧ x.so < y.so)

instance (x y : Segment) : Decidable (e.Precedes x y) := inferInstanceAs (Decidable (_ ∨ _))

/-- Frees an acknowledged segment; with the last one of an SDU the delivery is reported. -/
def freeAcked (x : Segment) : Am :=
  let s := e.heap.sdus x.sdu
  let r := e.heap.nrRlcFreeSduSegment x
  let e := { e with heap := r.2 }
  if r.1 then
    { e with
      txSize := e.txSize - s.size
      stats := { e.stats with txsduBytes := e.stats.txsduBytes + s.size }
      calls := e.calls ++ [.sduSuccessfulDelivery s.upperLayerId] }
  else e

def countRetx (x : Segment) : Am :=
  let e := { e with heap := e.heap.updateSdu x.sdu fun s => { s with retxCount := s.retxCount + 1 } }
  if (e.heap.sdus x.sdu).retxCount ≥ e.maxRetxThreshold * (e.heap.sdus x.sdu).refCount
  then { e with calls := e.calls ++ [.maxRetxReached] } else e

end Am

/-- The state of the walk. The wait list is `waitDone ++ curWait ++ waitTail`: what lies behind the
cursor, what is in front of it, and what stays linked when the code sets the cursor to `NULL`.
`endWait` is `end_wait_list`: `none` for `NULL`, `some none` for the list head. The new retransmit
list is `newRetx`, followed by what `new_retransmit_list->next` points at. -/
structure Walk where
  entity : Am
  waitDone : List Segment
  curWait : List Segment
  waitTail : List Segment
  endWait : Option (Option Segment)
  newRetx : List Segment
  newRetxNext : List Segment
  curRetx : List Segment

namespace Walk

def init (e : Am) : Walk :=
  { entity := e, waitDone := [], curWait := e.waitList, waitTail := [], endWait := none
    newRetx := [], newRetxNext := [], curRetx := e.retransmitList }

def unlinkWait (w : Walk) (cur : Segment) (rest : List Segment) : Walk :=
  { w with
    curWait := rest
    endWait := if w.entity.waitEnd.map Segment.addr = some cur.addr
      then some w.waitDone.getLast? else w.endWait }

def keepRetx (w : Walk) (cur : Segment) (rest : List Segment) : Walk :=
  { w with newRetx := w.newRetx ++ [cur], newRetxNext := [], curRetx := rest }

variable (ackSn : Int)

def processWaitListHead (n : Nack) (w : Walk) (cur : Segment) (rest : List Segment) : Flow × Walk :=
  let e := w.entity
  if e.Nacked n cur then
    let w := w.unlinkWait cur rest
    let e := e.countRetx cur
    (.processNextPdu, { w with
      entity := { e with
        bstatusRetxSize := e.bstatusRetxSize + (e.computePduHeaderSize cur + cur.size) }
      newRetx := w.newRetx ++ [cur], newRetxNext := [] })
  else if e.BehindNack n cur then (.doneNack, w)
  else if e.snCompareTx (e.snOf cur) ackSn < 0 then
    let w := w.unlinkWait cur rest
    (.processNextPdu, { w with entity := e.freeAcked cur })
  else if 0 < e.snCompareTx (e.snOf cur) ackSn then
    (.processNextPdu, { w with curWait := [], waitTail := cur :: rest })
  else (.processNextPdu, { w with waitDone := w.waitDone ++ [cur], curWait := rest })

def processRetransmitListHead (n : Nack) (w : Walk) (cur : Segment) (rest : List Segment) : Flow × Walk :=
  let e := w.entity
  if e.Nacked n cur then (.processNextPdu, w.keepRetx cur rest)
  else if e.BehindNack n cur then (.doneNack, w)
  else if e.snCompareTx (e.snOf cur) ackSn < 0 then
    let e := { e with
      bstatusRetxSize := e.bstatusRetxSize - (e.computePduHeaderSize cur + cur.size) }
    (.processNextPdu, { w with entity := e.freeAcked cur, curRetx := rest })
  else if w.curWait = [] then
    (.listsOver, { w with newRetxNext := cur :: rest, curRetx := [] })
  else (.processNextPdu, w.keepRetx cur rest)

/-- The code at the label `process_next_pdu`: the smaller head of the two lists goes first. -/
def processNextPdu (n : Nack) (w : Walk) : Flow × Walk :=
  match w.curWait, w.curRetx with
  | [], [] => (.listsOver, w)
  | [], r :: rs => w.processRetransmitListHead ackSn n r rs
  | c :: cs, [] => w.processWaitListHead ackSn n c cs
  | c :: cs, r :: rs =>
    if w.entity.Precedes c r then w.processWaitListHead ackSn n c cs
    else w.processRetransmitListHead ackSn n r rs

/-- The jumps back to `process_next_pdu` for one NACK. Every turn takes a segment off one of the
two lists, which bounds the fuel. -/
def processNackLoop (ackSn : Int) (n : Nack) : Nat → Walk → Flow × Walk
  | 0, w => (.doneNack, w)
  | fuel + 1, w =>
    match w.processNextPdu ackSn n with
    | (.processNextPdu, w) => processNackLoop ackSn n fuel w
    | r => r

def processNack (n : Nack) (w : Walk) : Flow × Walk :=
  processNackLoop ackSn n (w.curWait.length + w.curRetx.length + 1) w

/-- The `for` loop over the SNs of a block; `lists_over` leaves it. -/
def processRange (ackSn : Int) : List Nack → Walk → Walk
  | [], w => w
  | n :: ns, w =>
    match w.processNack ackSn n with
    | (.listsOver, w) => w
    | (_, w) => processRange ackSn ns w

/-- The stop of t-PollRetransmit by a NACK for `poll_sn`. -/
def stopPollOnNack (w : Walk) (b : NackBlock) : Walk :=
  let e := w.entity
  { w with entity := { e with
      tPollRetransmitStart := if e.NacksPoll b then 0 else e.tPollRetransmitStart } }

def processNacks (ackSn : Int) : List NackBlock → Walk → Walk
  | [], w => w
  | b :: bs, w =>
    processNacks ackSn bs ((processRange ackSn (w.entity.expand b) w).stopPollOnNack b)

def ackWait (ackSn : Int) : List Segment → Walk → Walk
  | [], w => w
  | cur :: rest, w =>
    if w.entity.snCompareTx (w.entity.snOf cur) ackSn < 0 then
      ackWait ackSn rest { w.unlinkWait cur rest with entity := w.entity.freeAcked cur }
    else w

def ackRetx (ackSn : Int) : List Segment → Walk → Walk
  | [], w => w
  | cur :: rest, w =>
    if w.entity.snCompareTx (w.entity.snOf cur) ackSn < 0 then
      let e := { w.entity with
        bstatusRetxSize := w.entity.bstatusRetxSize -
          (w.entity.computePduHeaderSize cur + cur.size) }
      ackRetx ackSn rest { w with entity := e.freeAcked cur, curRetx := rest }
    else w

def relink (w : Walk) : Am :=
  let w := { w with newRetxNext := w.curRetx }
  { w.entity with
    waitList := w.waitDone ++ w.curWait ++ w.waitTail
    retransmitList := w.newRetx ++ w.newRetxNext
    waitEnd := w.endWait.getD w.entity.waitEnd }

end Walk

namespace Am

def stopPollOnAck (e : Am) (ackSn : Int) : Am :=
  { e with tPollRetransmitStart :=
      if e.snCompareTx e.pollSn ackSn < 0 then 0 else e.tPollRetransmitStart }

/-- The smaller of `t` and `sn`, seen from `tx_next_ack`. -/
def lowerSn (e : Am) (t sn : Int) : Int := if e.snCompareTx sn t < 0 then sn else t

def lowerHead (e : Am) (t : Int) : List Segment → Int
  | [] => t
  | x :: _ => e.lowerSn t (e.snOf x)

/-- The last part of `process_control_pdu`: start from the highest value and go down as needed. -/
def updateTxNextAck (e : Am) (ackSn : Int) : Am :=
  let t := e.lowerHead e.txNext e.waitList
  let t := e.lowerHead t e.retransmitList
  { e with txNextAck := e.lowerSn t ackSn }

def walkStatus (e : Am) (ackSn : Int) (bs : List NackBlock) : Walk :=
  let w := Walk.processNacks ackSn bs (.init (e.stopPollOnAck ackSn))
  let w := Walk.ackWait ackSn w.curWait w
  Walk.ackRetx ackSn w.curRetx w

def applyStatus (e : Am) (ackSn : Int) (bs : List NackBlock) : Am :=
  (e.walkStatus ackSn bs).relink.updateTxNextAck ackSn

def processControlPdu (e : Am) (buffer : List UInt8) : Am :=
  if e.validateControlPdu buffer then e.applyStatus (e.ackSnOf buffer) (e.nackBlocks buffer) else e

end Am

end OaiNr.Rlc
