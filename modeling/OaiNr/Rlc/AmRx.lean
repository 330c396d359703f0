import OaiNr.Rlc.Entity

/-!
# Reception of data PDUs (`nr_rlc_entity_am.c`, PDU RX functions)

The loops over the ring have no bound of their own in the code, so their model takes fuel and
reports `outOfFuel` when it is used up.
-/

namespace OaiNr.Rlc.Am

/-- The loop of `segment_already_received`: what is left to cover is `[so, so + size)`. -/
def coveredLoop : List Pdu → Int → Int → Bool
  | [], _, size => decide (size ≤ 0)
  | l :: ls, so, size =>
    if 0 < size then
      if l.so ≤ so ∧ so < l.so + l.size then
        coveredLoop ls (so + (l.size - (so - l.so))) (size - (l.size - (so - l.so)))
      else if l.so ≤ so + size - 1 ∧ so + size - 1 < l.so + l.size then
        coveredLoop ls so (size - (size - (l.so - so)))
      else coveredLoop ls so size
    else true

variable (e : Am)

def segmentAlreadyReceived (sn so size : Int) : Bool :=
  coveredLoop (e.rx.getPduFromSn sn) so size

def processed : List Pdu → Bool
  | [] => false
  | p :: _ => p.data.isNone

def sduFullLoop : List Pdu → Int → Bool
  | [], _ => false
  | l :: ls, lastByte =>
    if l.so > lastByte + 1 then false
    else if l.isLast then true
    else sduFullLoop ls (max lastByte (l.so + l.size - 1))

def sduFull (sn : Int) : Bool :=
  if processed (e.rx.getPduFromSn sn) then false else sduFullLoop (e.rx.getPduFromSn sn) (-1)

def sduDelivered (sn : Int) : Bool := processed (e.rx.getPduFromSn sn)

def missingLoop : List Pdu → Int → Bool
  | [], _ => false
  | l :: ls, lastByte =>
    if l.so > lastByte + 1 then true else missingLoop ls (max lastByte (l.so + l.size - 1))

def sduHasMissingBytes (sn : Int) : Bool :=
  if processed (e.rx.getPduFromSn sn) then false else missingLoop (e.rx.getPduFromSn sn) (-1)

/-- The loop of `reassemble_and_deliver`: the bytes put together so far and how many they are. The
result is `none` for an SDU that is inconsistent or too big, whose remaining segments are not
looked at any more. -/
def reassembleLoop : List Pdu → List UInt8 → Int → Except Fault (Option (List UInt8))
  | [], sdu, _ => .ok (some sdu)
  | pdu :: l, sdu, so =>
    let len := pdu.size - (so - pdu.so)
    if so < pdu.so ∨ nrSduMax < so + len then .ok none
    else if 0 < len then
      match pdu.data with
      | none => .error .nullDeref
      | some data =>
        reassembleLoop l (sdu ++ (data.drop (so - pdu.so).toNat).take len.toNat) (so + len)
    else reassembleLoop l sdu so

def reassembleAndDeliver (sn : Int) : Except Fault Am :=
  let l := e.rx.getPduFromSn sn
  let e := { e with
    rx := e.rx.setSlot sn (l.map fun p => { p with data := none })
    rxSize := e.rxSize - (l.map Pdu.size).sum }
  match reassembleLoop l [] 0 with
  | .error f => .error f
  | .ok none => .ok e
  | .ok (some sdu) =>
    .ok { e with
      calls := e.calls ++ [.deliverSdu sdu]
      stats := { e.stats with txsduPkts := e.stats.txsduPkts + 1 } }

/-- The loop `while (sdu_delivered(sn)) sn = (sn + 1) % sn_modulus`. -/
def skipDelivered (fuel : Nat) (e : Am) (sn : Int) : Except Fault Int :=
  withFuel (Loop.run (fun sn => e.sduDelivered sn) (fun sn => (sn + 1) % e.snModulus) fuel sn)

/-- One turn of the loop that frees the delivered SDUs at `rx_next` and counts them. Its state is
the ring, `rx_next` and the count. -/
def freeTurn (s : RxManager × Int × Int) : RxManager × Int × Int :=
  (s.1.clearPdu s.2.1, (s.2.1 + 1) % e.snModulus, s.2.2 + 1)

def freeDelivered (fuel : Nat) (e : Am) : Except Fault (RxManager × Int × Int) :=
  withFuel (Loop.run (fun s : RxManager × Int × Int => processed (s.1.getPduFromSn s.2.1))
    e.freeTurn fuel (e.rx, e.rxNext, 0))

def updateHighestStatus (fuel : Nat) (e : Am) (x : Int) : Except Fault Am :=
  if x = e.rxHighestStatus then
    match e.skipDelivered fuel e.rxHighestStatus with
    | .error f => .error f
    | .ok sn => .ok { e with rxHighestStatus := sn }
  else .ok e

def updateRxNext (fuel : Nat) (e : Am) (x : Int) : Except Fault Am :=
  if x = e.rxNext then
    match e.freeDelivered fuel with
    | .error f => .error f
    | .ok (rx, rxNext, count) =>
      .ok { e with rxNext := rxNext, rx := (rx.advance count).setStart rxNext }
  else .ok e

/-- The first half of the t-Reassembly handling at the end of `reception_actions`. -/
def stopTReassembly : Am :=
  if e.tReassemblyStart ≠ 0 ∧
      (e.rxNextStatusTrigger = e.rxNext ∨
        (e.rxNextStatusTrigger = (e.rxNext + 1) % e.snModulus ∧ ¬e.sduHasMissingBytes e.rxNext) ∨
        (¬e.SnInRecvWindow e.rxNextStatusTrigger ∧
          e.rxNextStatusTrigger ≠ (e.rxNext + e.windowSize) % e.snModulus)) then
    { e with tReassemblyStart := 0 }
  else e

/-- The second half of the t-Reassembly handling at the end of `reception_actions`. -/
def startTReassembly : Am :=
  if e.tReassemblyStart = 0 ∧
      (0 < e.snCompareRx e.rxNextHighest ((e.rxNext + 1) % e.snModulus) ∨
        (e.rxNextHighest = (e.rxNext + 1) % e.snModulus ∧ e.sduHasMissingBytes e.rxNext)) then
    { e with tReassemblyStart := e.tCurrent, rxNextStatusTrigger := e.rxNextHighest }
  else e

def updateRxNextHighest (x : Int) : Am :=
  { e with rxNextHighest := if 0 ≤ e.snCompareRx x e.rxNextHighest then (x + 1) % e.snModulus
      else e.rxNextHighest }

def deliverFull (fuel : Nat) (e : Am) (x : Int) : Except Fault Am :=
  if e.sduFull x then do
    let e ← e.reassembleAndDeliver x
    let e ← e.updateHighestStatus fuel x
    e.updateRxNext fuel x
  else .ok e

def receptionActions (fuel : Nat) (e : Am) (x : Int) : Except Fault Am := do
  let e ← (e.updateRxNextHighest x).deliverFull fuel x
  return e.stopTReassembly.startTReassembly

end OaiNr.Rlc.Am
