import OaiNr.Rlc.UmTx

/-!
# Two UM entities and the channel between them

The channel may lose, duplicate and reorder: any PDU that was ever sent can be received at any time. Both entities may
also be used in the other direction.
-/

namespace OaiNr.Rlc

/-- A PDU in the channel, and the number of its SDU among those that were sent in segments; the PDU of a
whole SDU has none. -/
structure Packet where
  pdu : List UInt8
  index : Option Nat
  deriving Repr, DecidableEq

/-- The two entities; the SDUs that the sender queued, and those of them that it sent in segments; the PDUs
sent; one more than the highest number received; and the deliveries with the numbers of their SDUs. -/
structure UmLink where
  snd : Um
  rcv : Um
  sdus : List (List UInt8) := []
  segmented : List (List UInt8) := []
  sent : List Packet := []
  highest : Nat := 0
  delivered : List (Option Nat × Call) := []

namespace UmLink

def InWindow (k : UmLink) (i : Nat) : Prop :=
  (k.highest : Int) - k.rcv.windowSize ≤ i ∧ (i : Int) < k.highest + k.rcv.windowSize

instance (k : UmLink) (i : Nat) : Decidable (k.InWindow i) := inferInstanceAs (Decidable (_ ∧ _))

def HasRoom (e : Um) (pdu : List UInt8) : Prop := e.rxSize + (e.pduPayload pdu).length ≤ e.rxMaxsize

instance (e : Um) (pdu : List UInt8) : Decidable (HasRoom e pdu) := inferInstanceAs (Decidable (_ ≤ _))

def submit (k : UmLink) (sdu : List UInt8) (sduId : Int) : Except Fault UmLink :=
  (k.snd.recvSdu sdu sduId).map fun snd =>
    { k with snd, sdus := if k.snd.txSize + sdu.length > k.snd.txMaxsize then k.sdus else k.sdus ++ [sdu] }

/-- A PDU was made from the head `x` of the queue. The SDU is sent in segments from the PDU on that is cut
off it. -/
def emit (k : UmLink) (x : UmSegment) (cut : Bool) (pdu : List UInt8) : UmLink :=
  if x.isFirst && !cut then { k with sent := k.sent ++ [{ pdu, index := none }] }
  else
    let segmented := if x.isFirst then k.segmented ++ [x.data] else k.segmented
    { k with segmented, sent := k.sent ++ [{ pdu, index := some (segmented.length - 1) }] }

def grant (k : UmLink) (buffer : List UInt8) : Except Fault UmLink :=
  (k.snd.generatePdu buffer).map fun r =>
    match k.snd.txList with
    | [] => { k with snd := r.1 }
    | x :: _ =>
      if r.2.2 = 0 then { k with snd := r.1 }
      else { k.emit x (buffer.length < k.snd.computePduHeaderSize x + x.size) (r.2.1.take r.2.2) with
        snd := r.1 }

def receive (fuel : Nat) (k : UmLink) (p : Packet) : Except Fault UmLink :=
  (k.rcv.recvPdu fuel p.pdu).map fun rcv =>
    { k with
      rcv
      delivered := k.delivered ++ (rcv.calls.drop k.rcv.calls.length).map fun c => (p.index, c) }

inductive Act where
  | submit (sdu : List UInt8) (sduId : Int)
  | grant (buffer : List UInt8)
  | receive (place : Nat)
  | snd (op : Op)
  | rcv (op : Op)

def SndOp : Op → Bool
  | .recvPdu _ | .setTime _ | .discardSdu _ => true
  | _ => false

def RcvOp : Op → Bool
  | .recvSdu .. | .generatePdu _ | .setTime _ | .discardSdu _ => true
  | _ => false

/-- One action. A segment is only received while the number of its SDU is in the window; which PDUs count
for the window is given by `counts`. -/
def exec (counts : Um → List UInt8 → Prop) [∀ e pdu, Decidable (counts e pdu)] (fuel : Nat) (k : UmLink) :
    Act → Option UmLink
  | .submit sdu sduId => (k.submit sdu sduId).toOption
  | .grant buffer => (k.grant buffer).toOption
  | .receive place =>
    match k.sent[place]? with
    | none => none
    | some p =>
      match p.index with
      | none => (k.receive fuel p).toOption
      | some i =>
        if k.InWindow i then
          ((k.receive fuel p).map fun k' =>
            { k' with highest := if counts k.rcv p.pdu then max k.highest (i + 1) else k.highest }).toOption
        else none
  | .snd op => if SndOp op then ((k.snd.exec fuel op).map fun snd => { k with snd }).toOption else none
  | .rcv op => if RcvOp op then ((k.rcv.exec fuel op).map fun rcv => { k with rcv }).toOption else none

def execAll (counts : Um → List UInt8 → Prop) [∀ e pdu, Decidable (counts e pdu)] (fuel : Nat)
    (k : UmLink) : List Act → Option UmLink
  | [] => some k
  | a :: as => (k.exec counts fuel a).bind (·.execAll counts fuel as)

/-- The states that two new entities reach. -/
inductive Reaches (counts : Um → List UInt8 → Prop) [∀ e pdu, Decidable (counts e pdu)]
    (c c' : UmConfig) : UmLink → Prop where
  | new : Reaches counts c c' { snd := Um.newNrRlcEntityUm c, rcv := Um.newNrRlcEntityUm c' }
  | step {k k' : UmLink} {a : Act} {fuel : Nat} :
      Reaches counts c c' k → k.exec counts fuel a = some k' → Reaches counts c c' k'

end UmLink

end OaiNr.Rlc
