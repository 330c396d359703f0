import Mathlib.Tactic.Ring
import OaiNr.Pdcp.Sdu
import OaiNr.Pdcp.Security

/-!
# The PDCP entity (`nr_pdcp_entity.c`)

What is delivered to the upper layer is recorded in `calls`, the oldest first: the node whose buffer, size and
integrity data are handed over. `none` as the result of an operation means that the process exits. Left out are what
none of the functions reads and the copies of the keys: a security context holds the key it was created with.
-/

namespace OaiNr.Pdcp

inductive EntityType where
  | drbAm
  | drbUm
  | srb
  deriving Repr, DecidableEq

def shortSnSize : Nat := 12
def longSnSize : Nat := 18
def shortPdcpHeaderSize : Nat := 2
def longPdcpHeaderSize : Nat := 3

/-- The counters of `nr_pdcp_statistics_t` that the entity changes. -/
structure Stats where
  txpduPkts : Nat := 0
  txpduBytes : Nat := 0
  txpduSn : Nat := 0
  rxpduPkts : Nat := 0
  rxpduBytes : Nat := 0
  rxpduSn : Nat := 0
  rxpduDdPkts : Nat := 0
  rxpduDdBytes : Nat := 0
  txsduPkts : Nat := 0
  txsduBytes : Nat := 0
  rxsduPkts : Nat := 0
  rxsduBytes : Nat := 0
  deriving Repr, DecidableEq

/-- The entity (`nr_pdcp_entity_t`). `ciphering` and `integrity` hold the security context while
`has_ciphering` and `has_integrity` are set. -/
structure Entity where
  -- configuration
  type : EntityType
  isGnb : Bool
  rbId : Int
  hasSdapRx : Bool
  hasSdapTx : Bool
  snSize : Nat
  tReordering : Int
  snMax : Nat
  windowSize : Nat
  -- state variables
  txNext : Nat
  rxNext : Nat
  rxDeliv : Nat
  rxReord : Nat
  -- time; a start of 0 means that the timer is not running
  tCurrent : Nat
  tReorderingStart : Nat
  -- security
  ciphering : Option (CipherAlgorithm × List UInt8)
  integrity : Option (IntegrityAlgorithm × List UInt8)
  -- rx management
  rxList : List PdcpSdu
  rxSize : Int
  stats : Stats
  entitySuspended : Bool
  calls : List PdcpSdu
  deriving Repr, DecidableEq

/-- The arguments of `new_nr_pdcp_entity`. The SN size is one of the two formats. -/
structure EntityConfig where
  type : EntityType
  isGnb : Bool
  rbId : Int
  hasSdapRx : Bool
  hasSdapTx : Bool
  snSize : Nat
  tReordering : Int
  security : KeysAndAlgos
  snValid : snSize = shortSnSize ∨ snSize = longSnSize

def EntityConfig.plain (type : EntityType) : EntityConfig :=
  { type, isGnb := false, rbId := 1, hasSdapRx := false, hasSdapTx := false, snSize := shortSnSize
    tReordering := 100, security := ⟨0, 0, [], []⟩, snValid := .inl rfl }

namespace Entity

/-! ## Security -/

def setCiphering (p : KeysAndAlgos) (e : Entity) : Option Entity :=
  if p.cipheringAlgorithm = -1 then some e
  else if p.cipheringAlgorithm = 0 then some { e with ciphering := none }
  else if p.cipheringAlgorithm = 2 then some { e with ciphering := some (.nea2, p.cipheringKey) }
  else if p.cipheringAlgorithm = 1 then some { e with ciphering := some (.nea1, p.cipheringKey) }
  else none

def setIntegrity (p : KeysAndAlgos) (e : Entity) : Option Entity :=
  if p.integrityAlgorithm = -1 then some e
  else if p.integrityAlgorithm = 0 then some { e with integrity := none }
  else if p.integrityAlgorithm = 2 then some { e with integrity := some (.nia2, p.integrityKey) }
  else if p.integrityAlgorithm = 1 then some { e with integrity := some (.nia1, p.integrityKey) }
  else none

variable (e : Entity)

def setSecurity (p : KeysAndAlgos) : Option Entity :=
  (setIntegrity p e).bind (setCiphering p)

def newNrPdcpEntity (c : EntityConfig) : Option Entity :=
  setSecurity
    { type := c.type
      isGnb := c.isGnb
      rbId := c.rbId
      hasSdapRx := c.hasSdapRx
      hasSdapTx := c.hasSdapTx
      snSize := c.snSize
      tReordering := c.tReordering
      snMax := 2 ^ c.snSize - 1
      windowSize := 2 ^ (c.snSize - 1)
      txNext := 0
      rxNext := 0
      rxDeliv := 0
      rxReord := 0
      tCurrent := 0
      tReorderingStart := 0
      ciphering := none
      integrity := none
      rxList := []
      rxSize := 0
      stats := {}
      entitySuspended := false
      calls := [] } c.security

/-! ## The format of a PDU -/

def headerSize : Nat :=
  if e.snSize = shortSnSize then shortPdcpHeaderSize else longPdcpHeaderSize

def integritySize : Nat :=
  if e.integrity.isSome ∨ e.type = .srb then pdcpIntegritySize else 0

def sdapRxHeaderSize : Nat := if e.hasSdapRx then 1 else 0

def sdapTxHeaderSize : Nat := if e.hasSdapTx then 1 else 0

/-- The input of the algorithms for a PDU with the given COUNT: downlink is direction 1. -/
def rxInput (count : Nat) : CryptoInput :=
  { bearer := e.rbId, count, direction := if e.isGnb then 0 else 1 }

def txInput (count : Nat) : CryptoInput :=
  { bearer := e.rbId, count, direction := if e.isGnb then 1 else 0 }

variable (cr : Crypto)

def cipherFrom (e : Entity) (input : CryptoInput) (clear : Nat) (buffer : List UInt8) : List UInt8 :=
  match e.ciphering with
  | none => buffer
  | some (a, key) => buffer.take clear ++ cr.cipher a key input (buffer.drop clear)

/-! ## Receiving -/

/-- The SN of a received PDU. The code reads it before it checks the size of the PDU; what it would
find behind the end of the buffer is 0 here, and is not used but for `stats.rxpdu_sn`. -/
def rcvdSn (buffer : List UInt8) : Nat :=
  if e.snSize = shortSnSize then
    (buffer.getD 0 0 &&& 0xf).toNat <<< 8 ||| (buffer.getD 1 0).toNat
  else
    (buffer.getD 0 0 &&& 0x3).toNat <<< 16 ||| (buffer.getD 1 0).toNat <<< 8 |||
      (buffer.getD 2 0).toNat

def rxDelivSn : Nat := e.rxDeliv &&& e.snMax

def rxDelivHfn : Nat := e.rxDeliv >>> e.snSize

def rcvdHfn (sn : Nat) : Nat :=
  if (sn : Int) < (e.rxDelivSn : Int) - e.windowSize then u32 (e.rxDelivHfn + 1)
  else if (sn : Int) ≥ (e.rxDelivSn : Int) + e.windowSize then u32 (e.rxDelivHfn + 4294967295)
  else e.rxDelivHfn

def rcvdCount (sn : Nat) : Nat := u32 (e.rcvdHfn sn <<< e.snSize) ||| sn

def TooSmall (size : Nat) : Prop :=
  size < e.headerSize + e.sdapRxHeaderSize + e.integritySize + 1

instance (size : Nat) : Decidable (e.TooSmall size) := inferInstanceAs (Decidable (_ < _))

def forceDataBit (buffer : List UInt8) : List UInt8 :=
  if e.type ≠ .srb ∧ buffer.getD 0 0 &&& 0x80 = 0 then buffer.modify 0 (· ||| 128) else buffer

def msgIntegrity (buffer : List UInt8) (count : Nat) : IntegrityData :=
  if e.integrity.isSome ∨ e.type = .srb then
    { count
      mac := (buffer.drop (buffer.length - 4)).take 4
      headerSize := e.headerSize
      header := buffer.take e.headerSize ++ List.replicate (3 - e.headerSize) 0 }
  else {}

def IntegrityOk (e : Entity) (buffer : List UInt8) (count : Nat) : Prop :=
  match e.integrity with
  | none => True
  | some (a, key) =>
    cr.integrity a key (e.rxInput count) (buffer.take (buffer.length - e.integritySize)) =
      buffer.drop (buffer.length - e.integritySize)

instance (e : Entity) (buffer : List UInt8) (count : Nat) :
    Decidable (e.IntegrityOk cr buffer count) := by
  unfold IntegrityOk
  split <;> infer_instance

def IsDuplicate (count : Nat) : Prop := count < e.rxDeliv ∨ SduInList e.rxList count

instance (count : Nat) : Decidable (e.IsDuplicate count) :=
  inferInstanceAs (Decidable (_ ∨ _))

def countRxPdu (size sn : Nat) : Entity :=
  { e with stats := { e.stats with
      rxpduPkts := e.stats.rxpduPkts + 1
      rxpduBytes := e.stats.rxpduBytes + size
      rxpduSn := sn } }

def countDiscarded (size : Nat) : Entity :=
  { e with stats := { e.stats with
      rxpduDdPkts := e.stats.rxpduDdPkts + 1
      rxpduDdBytes := e.stats.rxpduDdBytes + size } }

def deliver (l rest : List PdcpSdu) : Entity :=
  { e with
    calls := e.calls ++ l
    rxList := rest
    rxSize := e.rxSize - (l.map fun x => (x.buffer.length : Int)).sum
    stats := { e.stats with
      txsduPkts := e.stats.txsduPkts + l.length
      txsduBytes := e.stats.txsduBytes + (l.map fun x => x.buffer.length).sum } }

def deliverFrom (count : Nat) : Entity :=
  let r := takeRun count e.rxList
  { e.deliver r.1 r.2.1 with rxDeliv := r.2.2 }

def storeSdu (sdu : PdcpSdu) (size : Nat) : Entity :=
  { e with
    rxList := sduListAdd sdu e.rxList
    rxSize := e.rxSize + size
    rxNext := if e.rxNext ≤ sdu.count then u32 (sdu.count + 1) else e.rxNext }

def stopTReordering : Entity :=
  { e with tReorderingStart :=
      if e.tReorderingStart ≠ 0 ∧ e.rxReord ≤ e.rxDeliv then 0 else e.tReorderingStart }

def startTReordering : Entity :=
  if e.rxDeliv < e.rxNext then { e with rxReord := e.rxNext, tReorderingStart := e.tCurrent } else e

def updateTReordering : Entity :=
  let e := e.stopTReordering
  if e.tReorderingStart = 0 then e.startTReordering else e

/-- What happens with an SDU that passes all checks; `size` is the size of the PDU without its header. -/
def acceptSdu (sdu : PdcpSdu) (size : Nat) : Entity :=
  let e := e.storeSdu sdu size
  let e := if sdu.count = e.rxDeliv then e.deliverFrom e.rxDeliv else e
  e.updateTReordering

def recvCounted (e : Entity) (buffer : List UInt8) (count : Nat) : Entity :=
  let plain := e.cipherFrom cr (e.rxInput count) (e.headerSize + e.sdapRxHeaderSize) buffer
  if ¬e.IntegrityOk cr plain count then e.countDiscarded buffer.length
  else if e.IsDuplicate count then e.countDiscarded buffer.length
  else
    e.acceptSdu
      { count
        buffer := (plain.take (plain.length - e.integritySize)).drop e.headerSize
        msgIntegrity := e.msgIntegrity buffer count }
      (buffer.length - e.headerSize)

def recvPdu (e : Entity) (buffer : List UInt8) : Entity :=
  if e.entitySuspended then e
  else if buffer.length < 1 then e
  else
    let buffer := e.forceDataBit buffer
    let sn := e.rcvdSn buffer
    let e := e.countRxPdu buffer.length sn
    if e.TooSmall buffer.length then e.countDiscarded buffer.length
    else e.recvCounted cr buffer (e.rcvdCount sn)

/-! ## Sending -/

/-- The biggest PDU for an SDU (`nr_max_pdcp_pdu_size`). -/
def nrMaxPdcpPduSize (sduSize : Nat) : Nat := sduSize + longPdcpHeaderSize + pdcpIntegritySize

def dcBit : UInt8 := if e.type = .drbAm ∨ e.type = .drbUm then 0x80 else 0

def txHeader (sn : Nat) : List UInt8 :=
  if e.snSize = shortSnSize then
    [e.dcBit ||| UInt8.ofNat (sn >>> 8 &&& 0xf), UInt8.ofNat (sn &&& 0xff)]
  else
    [e.dcBit ||| UInt8.ofNat (sn >>> 16 &&& 0x3), UInt8.ofNat (sn >>> 8 &&& 0xff),
      UInt8.ofNat (sn &&& 0xff)]

def txMac (e : Entity) (count : Nat) (message : List UInt8) : List UInt8 :=
  match e.integrity with
  | some (a, key) => cr.integrity a key (e.txInput count) message
  | none => List.replicate e.integritySize 0

def buildPdu (e : Entity) (buffer : List UInt8) : List UInt8 :=
  let count := e.txNext
  let message := e.txHeader (count &&& e.snMax) ++ buffer
  e.cipherFrom cr (e.txInput count) (e.headerSize + e.sdapTxHeaderSize)
    (message ++ e.txMac cr count message)

def countTxPdu (sduSize pduSize : Nat) : Entity :=
  { e with stats := { e.stats with
      rxsduPkts := e.stats.rxsduPkts + 1
      rxsduBytes := e.stats.rxsduBytes + sduSize
      txpduPkts := e.stats.txpduPkts + 1
      txpduBytes := e.stats.txpduBytes + pduSize
      txpduSn := e.txNext &&& e.snMax } }

def processSdu (e : Entity) (buffer : List UInt8) (pduMaxSize : Nat) :
    Option (Entity × Option (List UInt8)) :=
  if pduMaxSize < nrMaxPdcpPduSize buffer.length then none
  else if e.entitySuspended then some (e, none)
  else
    let pdu := e.buildPdu cr buffer
    some ({ e.countTxPdu buffer.length pdu.length with txNext := u32 (e.txNext + 1) }, some pdu)

/-! ## Time -/

def TReorderingExpired : Prop :=
  e.tReordering ≠ -1 ∧ e.tReorderingStart ≠ 0 ∧
    ¬(e.tCurrent : Int) ≤ ((e.tReorderingStart : Int) + e.tReordering) % 2 ^ 64

instance : Decidable e.TReorderingExpired := inferInstanceAs (Decidable (_ ∧ _ ∧ _))

def checkTReordering : Entity :=
  if ¬e.TReorderingExpired then e
  else
    let e := { e with tReorderingStart := 0 }
    let r := takeBelow e.rxReord e.rxList
    let e := e.deliver r.1 r.2
    (e.deliverFrom e.rxReord).startTReordering

def setTime (now : Nat) : Entity := { e with tCurrent := now % 2 ^ 64 }.checkTReordering

/-! ## Suspension and re-establishment -/

def deliverAllSdus : Entity := e.deliver e.rxList []

def suspend : Entity :=
  let e := { e with txNext := 0 }
  let e := if e.tReorderingStart ≠ 0 then { e with tReorderingStart := 0 }.deliverAllSdus else e
  { e with rxNext := 0, rxDeliv := 0, entitySuspended := true }

def freeRxList : Entity :=
  { e with
    rxList := []
    rxSize := 0
    stats := { e.stats with
      rxpduDdPkts := e.stats.rxpduDdPkts + e.rxList.length
      rxpduDdBytes := e.stats.rxpduDdBytes + (e.rxList.map fun x => x.buffer.length).sum } }

def resume (p : KeysAndAlgos) : Option Entity :=
  (e.setSecurity p).map fun e => { e with entitySuspended := false }

def reestablishDrbAm (p : KeysAndAlgos) : Option Entity := e.resume p

def reestablishDrbUm (p : KeysAndAlgos) : Option Entity :=
  let e := { e with txNext := 0 }
  let e := if e.tReorderingStart ≠ 0 then e.deliverAllSdus else e
  { e with tReorderingStart := 0, rxNext := 0, rxDeliv := 0 }.resume p

def reestablishSrb (p : KeysAndAlgos) : Option Entity :=
  { { e with txNext := 0 }.freeRxList with tReorderingStart := 0, rxNext := 0, rxDeliv := 0 }.resume p

def reestablish (p : KeysAndAlgos) : Option Entity :=
  match e.type with
  | .drbAm => e.reestablishDrbAm p
  | .drbUm => e.reestablishDrbUm p
  | .srb => e.reestablishSrb p

end Entity

/-! ## Runs -/

inductive Op where
  | processSdu (buffer : List UInt8) (pduMaxSize : Nat)
  | recvPdu (buffer : List UInt8)
  | setTime (now : Nat)
  | suspend
  | reestablish (p : KeysAndAlgos)
  deriving Repr, DecidableEq

namespace Entity

def exec (cr : Crypto) (e : Entity) : Op → Option Entity
  | .processSdu buffer pduMaxSize => (e.processSdu cr buffer pduMaxSize).map Prod.fst
  | .recvPdu buffer => some (e.recvPdu cr buffer)
  | .setTime now => some (e.setTime now)
  | .suspend => some e.suspend
  | .reestablish p => e.reestablish p

/-- The states that a new entity reaches by operations that meet the condition `ok` in the state
they start from. -/
inductive Reaches (cr : Crypto) (ok : Entity → Op → Prop) (c : EntityConfig) : Entity → Prop where
  | new {e : Entity} : newNrPdcpEntity c = some e → Reaches cr ok c e
  | step {e e' : Entity} {op : Op} :
      Reaches cr ok c e → ok e op → e.exec cr op = some e' → Reaches cr ok c e'

end Entity

end OaiNr.Pdcp
