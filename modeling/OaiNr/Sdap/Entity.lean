import Mathlib.Logic.Function.Basic

/-!
# The SDAP entity

One entity per PDU session. It maps QoS flows to DRBs, puts the SDAP header in front of what is sent
and takes it off what is received (`nr_sdap_entity.c`). The TUN interface and the logs are left out.
-/

namespace OaiNr.Sdap

abbrev sdapMaxQfi : Nat := 64

def maxDrbsPerUe : Nat := 32

def maxSduSize : Nat := 8999

structure Role where
  ulTx : Bool := false
  ulRx : Bool := false
  dlTx : Bool := false
  dlRx : Bool := false
  deriving Repr, DecidableEq

def noSdapHeader : Role := {}

/-- An entry of the mapping table (`qfi2drb_t`); DRB 0 stands for no rule. -/
structure Qfi2drb where
  drbId : Nat
  entityRole : Role
  deriving Repr, DecidableEq

structure NrSdapConfig where
  pduSession : Nat
  sdapHeaderUl : Bool
  sdapHeaderDl : Bool
  defaultDrb : Bool
  mappedQosFlowsToAdd : List Nat
  mappedQosFlowsToRelease : List Nat
  deriving Repr, DecidableEq

structure SdapConfig where
  pdusessionId : Nat
  drbId : Nat
  role : Role
  defaultDrb : Bool
  mappedQfis2Add : List Nat
  mappedQfis2Release : List Nat
  deriving Repr, DecidableEq

structure Entity where
  ueId : Nat
  pdusessionId : Nat
  isGnb : Bool
  enableSdap : Bool
  defaultDrb : Nat
  qfi2drbTable : Fin sdapMaxQfi → Qfi2drb

/-- What ends the process, touches memory outside of the table or the buffer, or follows a null
pointer. -/
inductive Fault where
  | assertion
  | outOfBounds
  | nullDeref
  deriving Repr, DecidableEq

structure Submission where
  drbId : Nat
  pdu : List UInt8
  deriving Repr, DecidableEq

/-- What goes to the upper layer, with the QFI of the header that was taken off. The gNB gives the QFI to
GTP-U, the UE only logs it. -/
structure Delivery where
  qfi : Option (Fin sdapMaxQfi)
  payload : List UInt8
  deriving Repr, DecidableEq

/-! ## Headers -/

/-- `nr_sdap_dl_hdr_t`: QFI in the low six bits, then RQI, then RDI. -/
def dlHdr (qfi : Fin sdapMaxQfi) (rqi rdi : Bool) : UInt8 :=
  UInt8.ofNat (qfi + 64 * rqi.toNat + 128 * rdi.toNat)

/-- `nr_sdap_ul_hdr_t`: QFI in the low six bits, then R, then D/C. -/
def ulHdr (qfi : Fin sdapMaxQfi) (r dc : Bool) : UInt8 :=
  UInt8.ofNat (qfi + 64 * r.toNat + 128 * dc.toNat)

def hdrQfi (b : UInt8) : Fin sdapMaxQfi := Fin.ofNat sdapMaxQfi b.toNat

def hdrRdi (b : UInt8) : Bool := b.toNat.testBit 7

/-! ## Configuration -/

def getSdapRole (isGnb : Bool) (c : NrSdapConfig) : Role :=
  if isGnb then { ulRx := c.sdapHeaderUl, dlTx := c.sdapHeaderDl }
  else { ulTx := c.sdapHeaderUl, dlRx := c.sdapHeaderDl }

/-- `nr_sdap_get_config`; it asserts that the lists fit. -/
def nrSdapGetConfig (isGnb : Bool) (c : NrSdapConfig) (drbId : Nat) : Except Fault SdapConfig :=
  if c.mappedQosFlowsToAdd.length ≤ sdapMaxQfi ∧ c.mappedQosFlowsToRelease.length ≤ sdapMaxQfi then
    .ok
      { pdusessionId := c.pduSession
        drbId
        role := getSdapRole isGnb c
        defaultDrb := c.defaultDrb
        mappedQfis2Add := c.mappedQosFlowsToAdd
        mappedQfis2Release := c.mappedQosFlowsToRelease }
  else .error .assertion

namespace Entity

variable (e : Entity)

def qfi2drbMapAdd (qfi : Fin sdapMaxQfi) (drbId : Nat) (role : Role) : Entity :=
  { e with qfi2drbTable := Function.update e.qfi2drbTable qfi ⟨drbId, role⟩ }

def qfi2drbMapDel (qfi : Fin sdapMaxQfi) : Entity :=
  { e with qfi2drbTable := Function.update e.qfi2drbTable qfi ⟨0, noSdapHeader⟩ }

/-- The DRB of a QoS flow, the default DRB without a rule, 0 without both (`nr_sdap_qfi2drb`). -/
def qfi2drb (qfi : Fin sdapMaxQfi) : Nat :=
  if (e.qfi2drbTable qfi).drbId ≠ 0 then (e.qfi2drbTable qfi).drbId else e.defaultDrb

/-- The end marker (`nr_sdap_construct_ctrl_pdu`). -/
def constructCtrlPdu (qfi : Fin sdapMaxQfi) : UInt8 := ulHdr qfi false false

def submitCtrlPdu (drbId : Nat) (ctrlPdu : UInt8) : List Submission :=
  if drbId ≠ 0 then [⟨drbId, [ctrlPdu]⟩] else []

def endMarkers (drbId : Nat) (qfi : Fin sdapMaxQfi) : List Submission :=
  (if e.defaultDrb ≠ 0 ∧ (e.qfi2drbTable qfi).drbId = 0 then
      submitCtrlPdu e.defaultDrb (constructCtrlPdu qfi) else []) ++
    if (e.qfi2drbTable qfi).drbId ≠ drbId ∧ (e.qfi2drbTable qfi).entityRole.ulTx = true then
      submitCtrlPdu (e.qfi2drb qfi) (constructCtrlPdu qfi) else []

/-- `nr_sdap_ue_control_pdu_config`; it does not check the QFIs. -/
def ueControlPduConfig (e : Entity) (drbId : Nat) : List Nat → Except Fault (List Submission)
  | [] => .ok []
  | qfi :: l =>
    if h : qfi < sdapMaxQfi then
      (e.ueControlPduConfig drbId l).map (e.endMarkers drbId ⟨qfi, h⟩ ++ ·)
    else .error .outOfBounds

/-- One round of `nr_sdap_add_qos_flows_to_drb`. -/
def addQosFlow (c : SdapConfig) (e : Entity) (qfi : Nat) : Entity :=
  if h : qfi < sdapMaxQfi then
    if 0 < c.drbId ∧ c.drbId ≤ maxDrbsPerUe then e.qfi2drbMapAdd ⟨qfi, h⟩ c.drbId c.role else e
  else e

def addQosFlowsToDrb (c : SdapConfig) : Entity := c.mappedQfis2Add.foldl (addQosFlow c) e

/-- `nr_sdap_rm_qos_flows_from_drb`; it does not check the QFIs. -/
def rmQosFlows (e : Entity) : List Nat → Except Fault Entity
  | [] => .ok e
  | qfi :: l => if h : qfi < sdapMaxQfi then (e.qfi2drbMapDel ⟨qfi, h⟩).rmQosFlows l else .error .outOfBounds

def OneDrb (drbId : Nat) : Prop :=
  ∀ qfi, (e.qfi2drbTable qfi).drbId = 0 ∨ (e.qfi2drbTable qfi).drbId = drbId

instance (drbId : Nat) : Decidable (e.OneDrb drbId) := inferInstanceAs (Decidable (∀ _, _))

def controlPdus (c : SdapConfig) : Except Fault (List Submission) :=
  if e.isGnb then .ok [] else e.ueControlPduConfig c.drbId c.mappedQfis2Add

/-- `nr_sdap_qfi2drb_map_update`: the entity, and the end markers of a UE. -/
def qfi2drbMapUpdate (c : SdapConfig) : Except Fault (Entity × List Submission) :=
  if e.enableSdap = false ∧ ¬e.OneDrb c.drbId then .error .assertion
  else do
    let ctrl ← e.controlPdus c
    let e ← (e.addQosFlowsToDrb c).rmQosFlows c.mappedQfis2Release
    .ok (e, ctrl)

def addEntity (isGnb : Bool) (ueId : Nat) (c : SdapConfig) : Except Fault Entity :=
  let e : Entity :=
    { ueId
      pdusessionId := c.pdusessionId
      isGnb
      enableSdap := c.role ≠ noSdapHeader
      defaultDrb := if c.defaultDrb then c.drbId else 0
      qfi2drbTable := fun _ => ⟨0, noSdapHeader⟩ }
  if e.enableSdap = false ∧ 1 < c.mappedQfis2Add.length then .error .assertion
  else .ok (e.addQosFlowsToDrb c)

/-- `nr_sdap_release_drb`; it leaves the roles alone. -/
def releaseDrb (drbId : Nat) : Entity :=
  { e with qfi2drbTable := fun qfi =>
      if (e.qfi2drbTable qfi).drbId = drbId then { e.qfi2drbTable qfi with drbId := 0 }
      else e.qfi2drbTable qfi }

/-! ## Data -/

/-- What `nr_sdap_tx_entity` hands to PDCP, if anything. -/
def txEntity (sdu : List UInt8) (qfi : Fin sdapMaxQfi) (rqi : Bool) : Option Submission :=
  let drbId := e.qfi2drb qfi
  let role := (e.qfi2drbTable qfi).entityRole
  if drbId = 0 then none
  else if role.ulTx = false ∧ role.dlTx = false then some ⟨drbId, sdu⟩
  else if sdu.length = 0 ∨ maxSduSize < sdu.length then none
  else if role.dlTx then some ⟨drbId, dlHdr qfi rqi false :: sdu⟩
  else some ⟨drbId, ulHdr qfi false rqi :: sdu⟩

/-- The reflective mapping of a UE, for a header with RDI set: the end markers and the new rule. -/
def reflectiveMapping (pdcpEntity : Nat) (qfi : Fin sdapMaxQfi) : Entity × List Submission :=
  let stored := (e.qfi2drbTable qfi).drbId
  ({ e with qfi2drbTable :=
      Function.update e.qfi2drbTable qfi { e.qfi2drbTable qfi with drbId := pdcpEntity } },
    (if stored = 0 ∧ e.defaultDrb ≠ 0 then submitCtrlPdu e.defaultDrb (constructCtrlPdu qfi) else []) ++
      if pdcpEntity ≠ stored then submitCtrlPdu (e.qfi2drb qfi) (constructCtrlPdu qfi) else [])

/-- What `nr_sdap_rx_entity` leaves behind: the entity, what is delivered, and the end markers. -/
structure Received where
  entity : Entity
  delivery : Option Delivery
  ctrl : List Submission

def receivedPlain (buf : List UInt8) : Received := ⟨e, some ⟨none, buf⟩, []⟩

def receivedDl (pdcpEntity : Nat) (hdr : UInt8) (payload : List UInt8) : Received :=
  let r := if hdrRdi hdr then e.reflectiveMapping pdcpEntity (hdrQfi hdr) else (e, [])
  ⟨r.1, some ⟨some (hdrQfi hdr), payload⟩, r.2⟩

/-- `nr_sdap_rx_entity`. With SDAP enabled, the first byte is taken for a header before anything else. -/
def rxEntity (pdcpEntity : Nat) (isGnb : Bool) (buf : List UInt8) : Except Fault Received :=
  if e.enableSdap then
    match buf with
    | [] => .error .outOfBounds
    | hdr :: payload =>
      let mapping := e.qfi2drbTable (hdrQfi hdr)
      if mapping.drbId = 0 then .ok ⟨e, none, []⟩
      else if isGnb then
        if mapping.entityRole.ulRx then .ok ⟨e, some ⟨some (hdrQfi hdr), payload⟩, []⟩
        else .error .assertion
      else if mapping.entityRole.dlRx then .ok (e.receivedDl pdcpEntity hdr payload)
      else .ok (e.receivedPlain buf)
  else .ok (e.receivedPlain buf)

end Entity

end OaiNr.Sdap
