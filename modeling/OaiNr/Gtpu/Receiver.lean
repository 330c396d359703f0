import OaiNr.Gtpu.Packet

/-!
# The receiver of GTP-U packets

The packet lies at the start of a larger buffer, so that a read behind the packet gets what is left there. The
functions take the read of an octet as an argument.
-/

namespace OaiNr.Gtpu

/-- `ueidData_t`. Of the callbacks, it is known whether they are there. -/
structure UeidData where
  ueId : Nat
  incomingRbId : Nat
  callBack : Bool
  outgoingTeid : UInt32
  callBackSdap : Bool
  pduSessionId : Nat
  deriving DecidableEq, Repr

/-- What the handlers use besides the packet: `te2ue_mapping`, whether there is an instance for the socket, and how
much room RLC has for a UE and a channel -/
structure Node where
  te2ue : Nat → Option UeidData
  hasInstance : Bool
  availableTxSpace : (ueId channel : Nat) → UInt32

/-- What the handlers do. An SDU is the part of the packet from `start` on. -/
inductive Output where
  | sdap (ue : UeidData) (start : Nat) (size : Int) (qfi : Nat) (rqi : Bool)
  | sdu (ue : UeidData) (start : Nat) (size : Int)
  | endMarker (ue : UeidData)
  | send (packet : List UInt8)
  deriving DecidableEq, Repr

section Reads

def inPayload (payload : List UInt8) (i : Nat) : Except Fault UInt8 :=
  match payload[i]? with
  | some b => .ok b
  | none => .error .outsidePayload

def buffer (payload : List UInt8) (left : Nat → UInt8) (i : Nat) : UInt8 := payload.getD i (left i)

def inBuffer (mem : Nat → UInt8) (i : Nat) : Except Fault UInt8 := .ok (mem i)

end Reads

section Flags

def validHeader (b : UInt8) : Bool := b >>> 5 = 1 && b >>> 4 &&& 1 = 1

def hasExtension (b : UInt8) : Bool := b >>> 2 &&& 1 = 1

def hasSeqNum (b : UInt8) : Bool := b >>> 1 &&& 1 = 1

def hasNpduNum (b : UInt8) : Bool := b &&& 1 = 1

end Flags

variable (read : Nat → Except Fault UInt8)

def readBe16 (i : Nat) : Except Fault Nat := do
  let b1 ← read i
  let b0 ← read (i + 1)
  return b1.toNat * 256 + b0.toNat

def readBe32 (i : Nat) : Except Fault Nat := do
  let hi ← readBe16 read i
  let lo ← readBe16 read (i + 2)
  return hi * 65536 + lo

def sent (r : Except Fault (Option (List UInt8))) : Except Fault (List Output) := do
  let packet ← r
  return (packet.map Output.send).toList

def gtpv1uHandleEchoReq : Except Fault (List Output) := do
  let flags ← read 0
  if !validHeader flags then .ok []
  else if !hasSeqNum flags then .ok []
  else do
    let seq ← readBe16 read 8
    let teid ← readBe32 read 4
    sent (gtpv1uCreateAndSendMsg ⟨UInt32.ofNat teid, UInt16.ofNat seq, 0⟩ 2 [14, 0] true false [])

/-- `Gtpv1uHandleError`, which reads the 16 octets of `Gtpv1uError` for its log, also when it has logged that they are
not there -/
def gtpv1uHandleError : Except Fault (List Output) := do
  let _ ← readBe32 read 4
  let _ ← read 8
  let _ ← readBe32 read 9
  let _ ← read 13
  let _ ← readBe16 read 14
  return []

def gtpv1uHandleEndMarker (node : Node) : Except Fault (List Output) := do
  let flags ← read 0
  if !validHeader flags then .ok []
  else if !node.hasInstance then .ok []
  else do
    let teid ← readBe32 read 4
    match node.te2ue teid with
    | none => .ok []
    | some ue => if ue.callBack then .ok [.endMarker ue] else .error .nullCallback

section ExtensionHeaders

structure Headers where
  qfi : Option Nat
  rqi : Bool
  nrPdcpPduSn : Nat
  deriving DecidableEq, Repr

def additionalOffset (b : UInt8) : Nat :=
  6 + (if b >>> 2 &&& 1 = 1 then 9 else 0) + (if b >>> 1 &&& 1 = 1 then 3 else 0)

def readNrRanContainer (offset : Nat) (h : Headers) : Except Fault Headers := do
  let b1 ← read (offset + 1)
  if b1 >>> 4 &&& 0xf = 0 then do
    let b2 ← read (offset + 2)
    if b2 >>> 3 &&& 1 = 1 then do
      let sn2 ← read (offset + additionalOffset b1)
      let sn1 ← read (offset + additionalOffset b1 + 1)
      let sn0 ← read (offset + additionalOffset b1 + 2)
      return { h with nrPdcpPduSn := sn2.toNat * 65536 + sn1.toNat * 256 + sn0.toNat }
    else .ok h
  else .ok h

def readContainer (len offset : Nat) (type : UInt8) (h : Headers) : Except Fault (Option Headers) :=
  if type = pduSessionContainer then
    if len < offset + 2 then .ok none
    else do
      let b ← read (offset + 2)
      return some { h with qfi := some (b &&& 0x3f).toNat, rqi := b >>> 6 &&& 1 = 1 }
  else if type = nrRanContainer then
    if len < offset + 1 then .ok none
    else do
      let h ← readNrRanContainer read offset h
      return some h
  else .ok (some h)

def readExtension (len offset : Nat) (type : UInt8) (h : Headers) : Except Fault (Option (Nat × UInt8 × Headers)) := do
  let extLen ← read offset
  match ← readContainer read len offset type h with
  | none => .ok none
  | some h =>
    let offset := offset + extLen.toNat * 4
    if len < offset then .ok none
    else do
      let type ← read (offset - 1)
      return some (offset, type, h)

def extensionLoop (len : Nat) : (rounds offset : Nat) → (type : UInt8) → Headers → Except Fault (Option (Nat × Headers))
  | 0, offset, type, h => if type = 0 then .ok (some (offset, h)) else .error .endless
  | rounds + 1, offset, type, h =>
    if type = 0 then .ok (some (offset, h))
    else do
      match ← readExtension read len offset type h with
      | none => .ok none
      | some r => extensionLoop len rounds r.1 r.2.1 r.2.2

end ExtensionHeaders

def deliver (ue : UeidData) (len offset : Nat) (h : Headers) : Except Fault (List Output) :=
  let size := ((len : Int) - offset).bmod (2 ^ 32)
  if 0 < size then
    match h.qfi, ue.callBackSdap with
    | some qfi, true => .ok [.sdap ue offset size qfi h.rqi]
    | some _, false => .error .assertFatal
    | none, _ => if ue.callBack then .ok [.sdu ue offset size] else .error .nullCallback
  else .ok []

def fillDlDeliveryStatusReport (space : UInt32) (sn : Nat) : Extension :=
  .dlDataDeliveryStatus ⟨sn != 0, false, false, false, false, false, false, false, false, space, UInt32.ofNat sn⟩

def reportDelivery (node : Node) (ue : UeidData) (h : Headers) : Except Fault (List Output) :=
  if !ue.callBackSdap && 0 < h.nrPdcpPduSn && h.nrPdcpPduSn % 5 = 0 then
    sent (gtpv1uCreateAndSendMsg ⟨ue.outgoingTeid, 0, 0⟩ 255 [] false false
      [fillDlDeliveryStatusReport (node.availableTxSpace ue.ueId (ue.incomingRbId + 3)) h.nrPdcpPduSn])
  else .ok []

/-- Where the extension headers end, and what they say; nothing if the packet is malformed -/
def readHeaders (rounds len : Nat) (flags : UInt8) : Except Fault (Option (Nat × Headers)) := do
  let offset := if hasExtension flags || hasSeqNum flags || hasNpduNum flags then 12 else 8
  if hasExtension flags then do
    let type ← read (offset - 1)
    extensionLoop read len rounds offset type ⟨none, false, 0⟩
  else .ok (some (offset, ⟨none, false, 0⟩))

def gtpv1uHandleGpdu (node : Node) (rounds len : Nat) : Except Fault (List Output) := do
  let flags ← read 0
  if !validHeader flags then .ok []
  else do
    let teid ← readBe32 read 4
    match node.te2ue teid with
    | none => .ok []
    | some ue => do
      match ← readHeaders read rounds len flags with
      | none => .ok []
      | some (offset, h) => do
        let outs ← deliver ue len offset h
        let reports ← reportDelivery node ue h
        return outs ++ reports

def gtpv1uReceiveHandleMessage (node : Node) (rounds len : Nat) : Except Fault (List Output) :=
  if len < 8 then .ok []
  else do
    let msgLength ← readBe16 read 2
    if msgLength + 8 ≠ len then .ok []
    else do
      let msgType ← read 1
      if msgType = 1 then gtpv1uHandleEchoReq read
      else if msgType = 26 then gtpv1uHandleError read
      else if msgType = 254 then gtpv1uHandleEndMarker read node
      else if msgType = 255 then gtpv1uHandleGpdu read node rounds len
      else .ok []

section Environment

/-- `nr_lcid_rb_t` -/
inductive LcidRb where
  | none
  | srb (id : Nat)
  | drb (id : Nat)
  deriving DecidableEq, Repr

/-- `nr_rlc_ue_t`. Of an entity, it is known how much room it has. -/
structure RlcUe where
  srb0 : Option UInt32
  srb : List (Option UInt32)
  drb : List (Option UInt32)
  lcid2rb : List LcidRb
  deriving DecidableEq, Repr

def element (entities : List (Option UInt32)) (id : Nat) : Except Fault (Option UInt32) :=
  if id = 0 then .error .outOfBounds
  else match entities[id - 1]? with
    | none => .error .outOfBounds
    | some entity => .ok entity

def getRlcEntityFromLcid (ue : RlcUe) (channel : Nat) : Except Fault (Option UInt32) :=
  if channel = 0 then .ok ue.srb0
  else match ue.lcid2rb[channel - 1]? with
    | none => .error .outOfBounds
    | some .none => .ok none
    | some (.srb id) => if id = 0 then .error .assertFatal else element ue.srb id
    | some (.drb id) => element ue.drb id

/-- What `nr_rlc_get_available_tx_space` is linked to: the function of the CU-UP, which aborts, or RLC -/
inductive Rlc where
  | cuup
  | manager (ue : Nat → RlcUe)

/-- Without an entity the room is -1. -/
def nrRlcGetAvailableTxSpace (ueId channel : Nat) : Rlc → Except Fault UInt32
  | .cuup => .error .abort
  | .manager ue => do
    let entity ← getRlcEntityFromLcid (ue ueId) channel
    return entity.getD 0xffffffff

/-- The process that receives: its tables, RLC, and whether the address of the sender is an IPv4 one -/
structure Env where
  te2ue : Nat → Option UeidData
  hasInstance : Bool
  rlc : Rlc
  ipv4 : Bool

def Env.node (env : Env) : Node where
  te2ue := env.te2ue
  hasInstance := env.hasInstance
  availableTxSpace ueId channel := (nrRlcGetAvailableTxSpace ueId channel env.rlc).toOption.getD 0

def Output.isSend : Output → Bool
  | .send _ => true
  | _ => false

/-- A delivery status tells the room that RLC has for the channel of the tunnel. -/
def Env.askRlc (env : Env) : Except Fault Unit := do
  let msgType ← read 1
  if msgType = 255 then do
    let teid ← readBe32 read 4
    match env.te2ue teid with
    | none => .ok ()
    | some ue => (nrRlcGetAvailableTxSpace ue.ueId (ue.incomingRbId + 3) env.rlc).map fun _ => ()
  else .ok ()

/-- The handlers that send a packet do so at their end: the address is asserted to be an IPv4 one, after RLC has been
asked. -/
def Env.send (env : Env) (outs : List Output) : Except Fault (List Output) :=
  if outs.any Output.isSend then do
    env.askRlc read
    if env.ipv4 then .ok outs else .error .devAssert
  else .ok outs

def Env.receive (env : Env) (rounds len : Nat) : Except Fault (List Output) := do
  let outs ← gtpv1uReceiveHandleMessage read env.node rounds len
  env.send read outs

end Environment

section Specification

variable (mem : Nat → UInt8) (len : Nat)

/-- The type of the extension header at `offset` is the octet before it. -/
def typeAt (offset : Nat) : UInt8 := mem (offset - 1)

def Passes (offset : Nat) : Prop :=
  (typeAt mem offset = pduSessionContainer → offset + 2 ≤ len) ∧ (typeAt mem offset = nrRanContainer → offset + 1 ≤ len)

def Next (offset offset' : Nat) : Prop :=
  typeAt mem offset ≠ 0 ∧ Passes mem len offset ∧ offset' = offset + (mem offset).toNat * 4 ∧ offset' ≤ len

def Chain (offset : Nat) : Prop := Relation.ReflTransGen (Next mem len) 12 offset

def Stalls : Prop := ∃ offset, Chain mem len offset ∧ Next mem len offset offset

def be16 (i : Nat) : Nat := (mem i).toNat * 256 + (mem (i + 1)).toNat

def be32 (i : Nat) : Nat := be16 mem i * 65536 + be16 mem (i + 2)

structure IsMessage (type : UInt8) : Prop where
  header : 8 ≤ len
  length : be16 mem 2 + 8 = len
  type : mem 1 = type

structure IsGpdu (node : Node) (ue : UeidData) : Prop extends IsMessage mem len 255 where
  valid : validHeader (mem 0) = true
  tunnel : node.te2ue (be32 mem 4) = some ue

structure IsEndMarker (node : Node) (ue : UeidData) : Prop extends IsMessage mem len 254 where
  valid : validHeader (mem 0) = true
  hasInstance : node.hasInstance = true
  tunnel : node.te2ue (be32 mem 4) = some ue

/-- An NR RAN container that asks for a report on the packet with the number that it has -/
def Reports (offset : Nat) : Prop :=
  typeAt mem offset = nrRanContainer ∧ mem (offset + 1) >>> 4 &&& 0xf = 0 ∧ mem (offset + 2) >>> 3 &&& 1 = 1

instance (offset : Nat) : Decidable (Reports mem offset) := inferInstanceAs (Decidable (_ ∧ _))

def snAt (offset : Nat) : Nat :=
  let sn := offset + additionalOffset (mem (offset + 1))
  (mem sn).toNat * 65536 + (mem (sn + 1)).toNat * 256 + (mem (sn + 2)).toNat

/-- The number that the headers before `offset` leave: that of the last one that asks for a report -/
inductive Reported : Nat → Nat → Prop
  | start : Reported 12 0
  | next {offset offset' sn : Nat} : Reported offset sn → Next mem len offset offset' →
    Reported offset' (if Reports mem offset then snAt mem offset else sn)

end Specification

end OaiNr.Gtpu
