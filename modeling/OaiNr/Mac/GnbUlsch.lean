import OaiNr.Lib.Stations
import OaiNr.Mac.Bsr
import OaiNr.Mac.DlschPdu

/-!
# The MAC PDU of an uplink grant at the gNB

The gNB walks over the subPDUs of a block. Each access has the octets that it reads and those that it may read, both
counted from the subheader on. What is read behind the PDU is whatever the memory holds there.
-/

namespace OaiNr.Mac

def octetAt (behind : Nat → UInt8) (pdu : List UInt8) (i : Nat) : UInt8 := pdu.getD i (behind (i - pdu.length))

/-- How far an access reads, and how far it may -/
structure Access where
  reads : Nat
  limit : Nat
  deriving DecidableEq, Repr

section Header

def hasUlLength (lcid : Nat) : Bool :=
  lcid = 1 ∨ lcid = 2 ∨ (4 ≤ lcid ∧ lcid ≤ 32) ∨ lcid = 0x3C ∨ lcid = 0x3E

def fixedUlLen : Nat → Nat
  | 0x00 => 8
  | 0x23 => 6
  | 0x34 => 6
  | 0x39 => 2
  | 0x3A => 2
  | 0x3B => 1
  | 0x3D => 1
  | _ => 0

structure UlHeader where
  lcid : Nat
  subheader : Nat
  len : Nat
  deriving DecidableEq, Repr

/-- `decode_ul_mac_sub_pdu_header`. It reads as many octets as the subheader has. -/
def decodeUlMacSubPduHeader (o : Nat → UInt8) : UlHeader :=
  let lcid := lcidOf (o 0)
  if hasUlLength lcid then
    if longOf (o 0) then ⟨lcid, 3, (o 1).toNat * 256 + (o 2).toNat⟩ else ⟨lcid, 2, (o 1).toNat⟩
  else ⟨lcid, 1, fixedUlLen lcid⟩

end Header

section Lookahead

structure Lookahead where
  accesses : List Access
  crnti : Except Fault Nat

def crntiLoop (behind : Nat → UInt8) : (fuel : Nat) → List UInt8 → Lookahead
  | 0, _ => ⟨[], .error .endless⟩
  | _ + 1, [] => ⟨[], .ok 0⟩
  | fuel + 1, b :: rest =>
    let o := octetAt behind (b :: rest)
    let h := decodeUlMacSubPduHeader o
    let header : Access := ⟨h.subheader, rest.length + 1⟩
    if rest.length + 1 < h.subheader + h.len then ⟨[header], .ok 0⟩
    else if h.lcid = 0x3A then ⟨[header, ⟨3, h.subheader + h.len⟩], .ok ((o 1).toNat * 256 + (o 2).toNat)⟩
    else if h.lcid = 0x3F then ⟨[header], .ok 0⟩
    else
      let l := crntiLoop behind fuel ((b :: rest).drop (h.subheader + h.len))
      ⟨header :: l.accesses, l.crnti⟩

def lcidCrntiLookahead (behind : Nat → UInt8) (pdu : List UInt8) : Lookahead :=
  crntiLoop behind (pdu.length + 1) pdu

end Lookahead

section Process

/-- The part of `NR_UE_info_t` that the walk uses. Each channel has its LCID and whether it is suspended. `srb0` says
that RLC has the entity of SRB0, `uidFree` that the UE has or can get a UID, `initialCellGroup` that a cell group
can be created, and `raIdle` that there is a random access in the state `nrRA_gNB_IDLE`. -/
structure UlUe where
  cellGroup : Bool
  lcConfig : List (Nat × Bool)
  srb0 : Bool
  uidFree : Bool
  initialCellGroup : Bool
  raIdle : Bool
  estimatedUlBuffer : Int

/-- `nr_mac_get_lc_config`, for a channel that is not suspended -/
def UlUe.isActive (ue : UlUe) (lcid : Nat) : Bool :=
  (ue.lcConfig.find? fun lc => lc.1 == lcid).any fun lc => !lc.2

/-- `nr_mac_add_lcid`, without the order of the channels -/
def addLcid (lcConfig : List (Nat × Bool)) (lcid : Nat) : List (Nat × Bool) :=
  if lcConfig.any fun lc => lc.1 == lcid then lcConfig.map fun lc => if lc.1 == lcid then (lcid, false) else lc
  else lcConfig ++ [(lcid, false)]

/-- `prepare_initial_ul_rrc_message`: its answer, and the UE -/
def UlUe.prepareInitialUlRrcMessage (ue : UlUe) : Bool × UlUe :=
  if ue.srb0 then (false, ue)
  else if ue.uidFree ∧ ue.initialCellGroup then
    (true, { ue with srb0 := true, cellGroup := true, lcConfig := addLcid ue.lcConfig 1 })
  else (true, { ue with srb0 := true, cellGroup := false })

inductive UlCase where
  | ccch
  | srb
  | dtch
  /-- a control element that is not handled -/
  | ignored
  | phr
  | cRnti
  | shortBsr
  | longBsr
  /-- padding and all LCIDs that are not known, which take what is left of the PDU -/
  | last
  deriving DecidableEq, Repr

def ulCase (lcid : Nat) : UlCase :=
  if lcid = 0 ∨ lcid = 0x23 ∨ lcid = 0x34 then .ccch
  else if lcid = 1 ∨ lcid = 2 then .srb
  else if 4 ≤ lcid ∧ lcid ≤ 32 then .dtch
  else if 0x35 ≤ lcid ∧ lcid ≤ 0x38 then .ignored
  else if lcid = 0x39 then .phr
  else if lcid = 0x3A then .cRnti
  else if lcid = 0x3B ∨ lcid = 0x3D then .shortBsr
  else if lcid = 0x3C ∨ lcid = 0x3E then .longBsr
  else .last

/-- What the walk has collected: the UE, the data for RLC, and the octets of the power headroom reports -/
structure UlState where
  ue : UlUe
  dataInd : List Sdu
  phr : List (UInt8 × UInt8)

def maxNumUlDataInd : Nat := 1024

/-- An entry of `data_ind`, and the assertion behind it -/
def UlState.forward (s : UlState) (sdu : Sdu) : Except Fault UlState :=
  if s.dataInd.length + 1 < maxNumUlDataInd then .ok { s with dataInd := s.dataInd ++ [sdu] } else .error .devAssert

def lcgCount (bitmap : UInt8) : Nat := (List.range 8).countP fun n => bitmap.toNat.testBit n

def isEmptyCcch (h : UlHeader) (pdu : List UInt8) : Bool :=
  h.lcid = 0 ∧ (pdu.take (h.subheader + h.len)).all (· == 0)

/-- What a case of the `switch` does with a subPDU that lies in the PDU: what it reads, and the state -/
def UlState.handle (s : UlState) (o : Nat → UInt8) (pdu : List UInt8) (h : UlHeader) :
    List Access × Except Fault UlState :=
  let own := h.subheader + h.len
  let sdu : List UInt8 := (pdu.drop h.subheader).take h.len
  match ulCase h.lcid with
  | .ccch =>
    let (prepared, ue) := s.ue.prepareInitialUlRrcMessage
    ([⟨own, own⟩], if prepared then { s with ue := ue }.forward (0, sdu) else .ok { s with ue := ue })
  | .srb =>
    ([⟨own, own⟩], if s.ue.cellGroup then if s.ue.isActive h.lcid then s.forward (h.lcid, sdu) else .ok s
      else .error .assertFatal)
  | .dtch =>
    ([⟨own, own⟩], if s.ue.isActive h.lcid then do
      let s ← s.forward (h.lcid, sdu)
      return { s with ue := { s.ue with estimatedUlBuffer :=
        if (h.len : Int) ≤ s.ue.estimatedUlBuffer then s.ue.estimatedUlBuffer - h.len else 0 } }
      else .ok s)
  | .ignored => ([], .ok s)
  | .phr => ([⟨h.subheader + 2, own⟩], .ok { s with phr := s.phr ++ [(o h.subheader, o (h.subheader + 1))] })
  | .cRnti => if s.ue.raIdle then ([⟨3, own⟩], .error .assertFatal) else ([], .ok s)
  | .shortBsr =>
    ([⟨h.subheader + 1, own⟩], do
      let estimate ← estimateUlBufferShortBsr (o h.subheader)
      return { s with ue := { s.ue with estimatedUlBuffer := estimate } })
  | .longBsr =>
    ([⟨h.subheader + 1 + lcgCount (o h.subheader), own⟩], do
      let estimate ← estimateUlBufferLongBsr fun i => o (h.subheader + i)
      return { s with ue := { s.ue with estimatedUlBuffer := estimate } })
  | .last => ([], .ok s)

/-- How far the walk goes on in what is left of the PDU. The length of `last` has 16 bits. -/
def ulStep (h : UlHeader) (pduLen : Nat) : Nat :=
  if ulCase h.lcid = .last then h.subheader + (pduLen - h.subheader) % 65536 else h.subheader + h.len

structure UlRun where
  accesses : List Access
  result : Except Fault UlState

/-- The loop of `nr_process_mac_pdu`. An empty message of CCCH1 ends the function, and RLC gets nothing. -/
def ulWalk (behind : Nat → UInt8) : (fuel : Nat) → List UInt8 → UlState → UlRun
  | 0, _, _ => ⟨[], .error .endless⟩
  | _ + 1, [], s => ⟨[], .ok s⟩
  | fuel + 1, b :: rest, s =>
    let o := octetAt behind (b :: rest)
    let h := decodeUlMacSubPduHeader o
    let header : Access := ⟨h.subheader, rest.length + 1⟩
    if rest.length + 1 < h.subheader + h.len then ⟨[header], .ok s⟩
    else if isEmptyCcch h (b :: rest) then ⟨[header], .ok { s with dataInd := [] }⟩
    else
      let (accesses, result) := s.handle o (b :: rest) h
      match result with
      | .error f => ⟨header :: accesses, .error f⟩
      | .ok s =>
        let r := ulWalk behind fuel ((b :: rest).drop (ulStep h (rest.length + 1))) s
        ⟨header :: (accesses ++ r.accesses), r.result⟩

/-- `nr_process_mac_pdu`. The first octet is read before the loop. -/
def nrProcessMacPdu (behind : Nat → UInt8) (ue : UlUe) (pdu : List UInt8) : UlRun :=
  let r := ulWalk behind (pdu.length + 1) pdu ⟨ue, [], []⟩
  ⟨⟨1, pdu.length⟩ :: r.accesses, r.result⟩

end Process

section Specification

/-- The run ends, and it reads nothing behind the PDU or behind a subPDU that it decodes. -/
structure Safe (accesses : List Access) {α : Type} (result : Except Fault α) : Prop where
  ends : result ≠ .error .endless
  inside : ∀ a ∈ accesses, a.reads ≤ a.limit

variable (pdu : List UInt8)

def ulHeader : UlHeader := decodeUlMacSubPduHeader (pdu.getD · 0)

def ulSubPduLen : Nat := (ulHeader pdu).subheader + (ulHeader pdu).len

/-- The octets behind the first subPDU, if `nr_process_mac_pdu` comes there -/
def nextUlSubPdu : Option (List UInt8) :=
  if ulSubPduLen pdu ≤ pdu.length ∧ !isEmptyCcch (ulHeader pdu) pdu then
    some (pdu.drop (ulStep (ulHeader pdu) pdu.length))
  else none

/-- The octets behind the first subPDU, if `lcid_crnti_lookahead` comes there -/
def nextLookahead : Option (List UInt8) :=
  if ulSubPduLen pdu ≤ pdu.length ∧ (ulHeader pdu).lcid ≠ 0x3A ∧ (ulHeader pdu).lcid ≠ 0x3F then
    some (pdu.drop (ulSubPduLen pdu))
  else none

def HasSubheader : Prop := (ulHeader pdu).subheader ≤ pdu.length

def HasLevels : Prop :=
  ulCase (ulHeader pdu).lcid = .longBsr → ulSubPduLen pdu ≤ pdu.length →
    1 + lcgCount (pdu.getD (ulHeader pdu).subheader 0) ≤ (ulHeader pdu).len

/-- Every subPDU that a walk comes to has what is read of it. -/
structure UlWellFormed (pdu : List UInt8) : Prop where
  process : ∀ p ∈ stations List.length nextUlSubPdu pdu, HasSubheader p ∧ HasLevels p
  lookahead : ∀ p ∈ stations List.length nextLookahead pdu, HasSubheader p

def UlUe.collects (ue : UlUe) (h : UlHeader) : Bool :=
  match ulCase h.lcid with
  | .ccch => !ue.srb0
  | .srb => ue.isActive h.lcid
  | .dtch => ue.isActive h.lcid
  | _ => false

/-- An assertion fails for a subPDU: data of a signalling bearer for a UE without a cell group, or a C-RNTI outside
of a random access. -/
def UlUe.aborts (ue : UlUe) (h : UlHeader) : Bool :=
  match ulCase h.lcid with
  | .srb => !ue.cellGroup
  | .cRnti => ue.raIdle
  | _ => false

/-- The UE after a subPDU. A message of the common channel may give it another cell group, or take its own. -/
def UlUe.after (ue : UlUe) (h : UlHeader) : UlUe :=
  match ulCase h.lcid with
  | .ccch => ue.prepareInitialUlRrcMessage.2
  | _ => ue

def ulVisits : UlUe → List (List UInt8) → List (UlUe × UlHeader)
  | _, [] => []
  | ue, p :: ps =>
    if ulSubPduLen p ≤ p.length ∧ !isEmptyCcch (ulHeader p) p then
      (ue, ulHeader p) :: ulVisits (ue.after (ulHeader p)) ps
    else ulVisits ue ps

/-- A UE that is connected has a cell group. -/
structure ConnectedUe extends UlUe where
  connected : cellGroup = true

/-- No subPDU meets a failing assertion, and there are fewer SDUs than entries for them. -/
structure UlUe.Bears (ue : UlUe) (pdu : List UInt8) : Prop where
  noAbort : ∀ v ∈ ulVisits ue (stations List.length nextUlSubPdu pdu), v.1.aborts v.2 = false
  few : (ulVisits ue (stations List.length nextUlSubPdu pdu)).countP (fun v => v.1.collects v.2) < maxNumUlDataInd

end Specification

end OaiNr.Mac
