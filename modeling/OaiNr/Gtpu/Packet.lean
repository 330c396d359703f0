import Mathlib.Tactic.Ring

/-!
# GTP-U packets as `gtpv1uCreateAndSendMsg` writes them

The header with its optional fields, the extension headers of `gtpu_extensions.c`, and the message.
-/

namespace OaiNr.Gtpu

inductive Fault where
  | assertFatal
  | devAssert
  | outsidePayload
  | nullCallback
  | outOfBounds
  | abort
  | endless
  deriving DecidableEq, Repr

section Extensions

inductive ExtensionType where
  | none
  | ulPduSessionInformation
  | dlDataDeliveryStatus
  | dlUserData
  deriving DecidableEq, Repr

structure UlPduSessionInformation where
  qmp : Bool
  dlDelayInd : Bool
  ulDelayInd : Bool
  snp : Bool
  n3n9DelayInd : Bool
  newIeFlag : Bool
  qfi : Int
  deriving DecidableEq, Repr

structure DlDataDeliveryStatus where
  highestTransmittedNrPdcpSnInd : Bool
  highestDeliveredNrPdcpSnInd : Bool
  finalFrameInd : Bool
  lostPacketReport : Bool
  deliveredNrPdcpSnRangeInd : Bool
  dataRateInd : Bool
  retransmittedNrPdcpSnInd : Bool
  deliveredRetransmittedNrPdcpInd : Bool
  causeReport : Bool
  desiredBufferSize : UInt32
  highestTransmittedNrPdcpSn : UInt32
  deriving DecidableEq, Repr

structure DlUserData where
  dlDiscardBlocks : Bool
  dlFlush : Bool
  reportPolling : Bool
  requestOutOfSeqReport : Bool
  reportDelivered : Bool
  userDataExistenceFlag : Bool
  assistanceInfoReportPollingFlag : Bool
  retransmissionFlag : Bool
  nruSequenceNumber : UInt32
  deriving DecidableEq, Repr

inductive Extension where
  | none
  | ulPduSessionInformation (ext : UlPduSessionInformation)
  | dlDataDeliveryStatus (ext : DlDataDeliveryStatus)
  | dlUserData (ext : DlUserData)
  deriving DecidableEq, Repr

def Extension.type : Extension → ExtensionType
  | .none => .none
  | .ulPduSessionInformation _ => .ulPduSessionInformation
  | .dlDataDeliveryStatus _ => .dlDataDeliveryStatus
  | .dlUserData _ => .dlUserData

def nrRanContainer : UInt8 := 0x84

def pduSessionContainer : UInt8 := 0x85

def serializeGtpuExtensionType : ExtensionType → UInt8
  | .none => 0
  | .ulPduSessionInformation => pduSessionContainer
  | .dlDataDeliveryStatus => nrRanContainer
  | .dlUserData => nrRanContainer

/-- `byte_array_producer_t`, with the octets that were put -/
structure ByteArrayProducer where
  len : Nat
  bytes : List UInt8
  deriving DecidableEq, Repr

namespace ByteArrayProducer

def putByte (b : ByteArrayProducer) (byte : UInt8) : Option ByteArrayProducer :=
  if b.bytes.length = b.len then .none else some { b with bytes := b.bytes ++ [byte] }

def octet (v : UInt32) (i : Nat) : UInt8 := UInt8.ofNat (v.toNat / 256 ^ i)

def putU32Be (b : ByteArrayProducer) (v : UInt32) : Option ByteArrayProducer := do
  let b ← b.putByte (octet v 3)
  let b ← b.putByte (octet v 2)
  let b ← b.putByte (octet v 1)
  b.putByte (octet v 0)

def putU24Be (b : ByteArrayProducer) (v : UInt32) : Option ByteArrayProducer := do
  let b ← b.putByte (octet v 2)
  let b ← b.putByte (octet v 1)
  b.putByte (octet v 0)

/-- The padding of `serialize_extension`, which has at most three octets -/
def pad : (rounds : Nat) → ByteArrayProducer → Option ByteArrayProducer
  | 0, b => some b
  | rounds + 1, b => if b.bytes.length % 4 ≠ 3 then (b.putByte 0).bind (pad rounds) else some b

end ByteArrayProducer

def flag (f : Bool) (place : UInt8) : UInt8 := if f then 1 <<< place else 0

def serializeUlPduSessionInformation (b : ByteArrayProducer) (ext : UlPduSessionInformation) :
    Except Fault (Option ByteArrayProducer) :=
  if ext.qmp || ext.dlDelayInd || ext.ulDelayInd || ext.snp || ext.n3n9DelayInd || ext.newIeFlag then
    .error .assertFatal
  else
    let b1 := 0x10 ||| flag ext.qmp 3 ||| flag ext.dlDelayInd 2 ||| flag ext.ulDelayInd 1 ||| flag ext.snp 0
    let b2 := flag ext.n3n9DelayInd 7 ||| flag ext.newIeFlag 6 ||| UInt8.ofNat (ext.qfi % 256).toNat
    .ok do
      let b ← b.putByte b1
      b.putByte b2

def serializeDlDataDeliveryStatus (b : ByteArrayProducer) (ext : DlDataDeliveryStatus) :
    Except Fault (Option ByteArrayProducer) :=
  if ext.highestDeliveredNrPdcpSnInd || ext.finalFrameInd || ext.lostPacketReport || ext.deliveredNrPdcpSnRangeInd ||
      ext.dataRateInd || ext.retransmittedNrPdcpSnInd || ext.deliveredRetransmittedNrPdcpInd || ext.causeReport then
    .error .assertFatal
  else
    let b1 := 0x10 ||| flag ext.highestTransmittedNrPdcpSnInd 3 ||| flag ext.highestDeliveredNrPdcpSnInd 2 |||
      flag ext.finalFrameInd 1 ||| flag ext.lostPacketReport 0
    let b2 := flag ext.deliveredNrPdcpSnRangeInd 4 ||| flag ext.dataRateInd 3 ||| flag ext.retransmittedNrPdcpSnInd 2 |||
      flag ext.deliveredRetransmittedNrPdcpInd 1 ||| flag ext.causeReport 0
    .ok do
      let b ← b.putByte b1
      let b ← b.putByte b2
      let b ← b.putU32Be ext.desiredBufferSize
      if ext.highestTransmittedNrPdcpSnInd then b.putU24Be ext.highestTransmittedNrPdcpSn else some b

def serializeDlUserData (b : ByteArrayProducer) (ext : DlUserData) : Except Fault (Option ByteArrayProducer) :=
  if ext.dlDiscardBlocks || ext.dlFlush || ext.reportPolling || ext.requestOutOfSeqReport || ext.reportDelivered ||
      ext.userDataExistenceFlag || ext.assistanceInfoReportPollingFlag || ext.retransmissionFlag then
    .error .assertFatal
  else
    let b1 := 0x00 ||| flag ext.dlDiscardBlocks 2 ||| flag ext.dlFlush 1 ||| flag ext.reportPolling 0
    let b2 := flag ext.requestOutOfSeqReport 4 ||| flag ext.reportDelivered 3 ||| flag ext.userDataExistenceFlag 2 |||
      flag ext.assistanceInfoReportPollingFlag 1 ||| flag ext.retransmissionFlag 0
    .ok do
      let b ← b.putByte b1
      let b ← b.putByte b2
      b.putU24Be ext.nruSequenceNumber

def serializeContent (b : ByteArrayProducer) : Extension → Except Fault (Option ByteArrayProducer)
  | .none => .ok .none
  | .ulPduSessionInformation ext => serializeUlPduSessionInformation b ext
  | .dlDataDeliveryStatus ext => serializeDlDataDeliveryStatus b ext
  | .dlUserData ext => serializeDlUserData b ext

/-- The end of `serialize_extension`: padding, next type, and the length in the first octet -/
def finishExtension (next : ExtensionType) (b : ByteArrayProducer) : Except Fault (Option (List UInt8)) :=
  match (b.pad 3).bind fun b => b.putByte (serializeGtpuExtensionType next) with
  | .none => .ok .none
  | some b =>
    if 255 < b.bytes.length / 4 then .error .devAssert
    else .ok (some (UInt8.ofNat (b.bytes.length / 4) :: b.bytes.drop 1))

/-- `serialize_extension`; nothing when it fails -/
def serializeExtension (ext : Extension) (next : ExtensionType) (outLen : Nat) : Except Fault (Option (List UInt8)) :=
  match (ByteArrayProducer.mk outLen []).putByte 0 with
  | .none => .ok .none
  | some b => do
    match ← serializeContent b ext with
    | .none => .ok .none
    | some b => finishExtension next b

end Extensions

section Message

structure Bearer where
  teidOutgoing : UInt32
  seqNum : UInt16
  npduNum : UInt8
  deriving DecidableEq, Repr

def hdrMax : Nat := 256

def serializeExtensions (size : Nat) : List UInt8 → List Extension → Except Fault (Option (List UInt8))
  | written, [] => .ok (some written)
  | written, ext :: exts => do
    let next := (exts.head?.map Extension.type).getD .none
    match ← serializeExtension ext next (size - written.length) with
    | .none => .ok .none
    | some bytes => serializeExtensions size (written ++ bytes) exts

def optionalFields (bearer : Bearer) (seqNumFlag npduNumFlag : Bool) (exts : List Extension) : List UInt8 :=
  let seqNum := if seqNumFlag then bearer.seqNum else 0
  [UInt8.ofNat seqNum.toNat, UInt8.ofNat (seqNum.toNat / 256), if npduNumFlag then bearer.npduNum else 0,
    serializeGtpuExtensionType ((exts.head?.map Extension.type).getD .none)]

def flagsOctet (seqNumFlag npduNumFlag : Bool) (exts : List Extension) : UInt8 :=
  0x30 ||| flag (!exts.isEmpty) 2 ||| flag seqNumFlag 1 ||| flag npduNumFlag 0

def msgHeader (bearer : Bearer) (msgType : UInt8) (seqNumFlag npduNumFlag : Bool) (exts : List Extension)
    (length : Nat) : List UInt8 :=
  [flagsOctet seqNumFlag npduNumFlag exts, msgType, UInt8.ofNat (length / 256), UInt8.ofNat length,
    ByteArrayProducer.octet bearer.teidOutgoing 3, ByteArrayProducer.octet bearer.teidOutgoing 2,
    ByteArrayProducer.octet bearer.teidOutgoing 1, ByteArrayProducer.octet bearer.teidOutgoing 0]

/-- `gtpv1uCreateAndSendMsg`: the packet that is sent, or nothing. The length is filled in at the end; until then, its
place is taken by the header for an empty message. -/
def gtpv1uCreateAndSendMsg (bearer : Bearer) (msgType : UInt8) (msg : List UInt8) (seqNumFlag npduNumFlag : Bool)
    (exts : List Extension) : Except Fault (Option (List UInt8)) :=
  if 65536 ≤ msg.length + hdrMax then .error .devAssert
  else do
    let header := msgHeader bearer msgType seqNumFlag npduNumFlag exts 0
    let fields := if npduNumFlag || seqNumFlag || !exts.isEmpty then
      optionalFields bearer seqNumFlag npduNumFlag exts else []
    match ← serializeExtensions (msg.length + hdrMax) (header ++ fields) exts with
    | .none => .ok .none
    | some written =>
      if msg.length + hdrMax - written.length < msg.length then .ok .none
      else if hdrMax ≤ written.length then .error .assertFatal
      else
        let rest := written.drop 8 ++ msg
        .ok (some (msgHeader bearer msgType seqNumFlag npduNumFlag exts rest.length ++ rest))

end Message

end OaiNr.Gtpu
