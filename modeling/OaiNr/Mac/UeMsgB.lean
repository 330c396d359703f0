import OaiNr.Lib.Stations
import OaiNr.Mac.UeDlsch

/-!
# What the UE reads of a downlink MAC PDU

In the random access with two steps, the PDU begins with the subPDUs of MsgB. The subPDUs for all others follow.
-/

namespace OaiNr.Mac

section MsgB

/-- The loop of `nr_ue_validate_successrar`: a backoff indicator has one octet and a success RAR twelve. The rest
of the PDU is returned. -/
def successrarLoop : (fuel : Nat) → List UInt8 → Except Fault (List UInt8)
  | 0, _ => .error .endless
  | _ + 1, [] => .ok []
  | fuel + 1, b :: rest =>
    let more := b.toNat / 128 % 2 = 1
    if b.toNat / 64 % 2 = 0 then
      if b.toNat / 32 % 2 = 0 then
        if more then successrarLoop fuel rest else .ok rest
      else if rest.length < 11 then .error .outOfBounds
      else if more then successrarLoop fuel (rest.drop 11) else .ok (rest.drop 11)
    else .error .assertFatal

/-- `nr_ue_validate_successrar`. The timing advance is taken from the second octet of the PDU. -/
def nrUeValidateSuccessrar (pdu : List UInt8) : Except Fault (List UInt8) := do
  let rest ← successrarLoop (pdu.length + 1) pdu
  if pdu.length < 2 then .error .outOfBounds else .ok rest

/-- `nr_ue_process_mac_pdu`, also in the state `nrRA_WAIT_MSGB` of a random access with two steps. In that state
no contention resolution identity is awaited. -/
def UeMac.processDlPdu (ue : UeMac) (waitMsgB : Bool) (pdu : List UInt8) : Except Fault Parsed :=
  if waitMsgB then do
    let rest ← nrUeValidateSuccessrar pdu
    { ue with contResId := none }.processMacPdu rest
  else ue.processMacPdu pdu

def msgBLen (b : UInt8) : Nat := if b.toNat / 32 % 2 = 0 then 1 else 12

def nextMsgB : List UInt8 → Option (List UInt8)
  | [] => none
  | b :: rest => if b.toNat / 128 % 2 = 1 then some ((b :: rest).drop (msgBLen b)) else none

def CompleteMsgB : List UInt8 → Prop
  | [] => True
  | b :: rest => b.toNat / 64 % 2 = 0 ∧ msgBLen b ≤ rest.length + 1

def afterMsgB (pdu : List UInt8) : List UInt8 :=
  (((stations List.length nextMsgB pdu).getLast?).map fun p => p.drop (msgBLen (p.getD 0 0))).getD []

end MsgB

section SubPdus

def firstLcid (pdu : List UInt8) : Nat := lcidOf (pdu.getD 0 0)

def subPduLen (pdu : List UInt8) : Nat :=
  if firstLcid pdu ≤ 32 ∨ firstLcid pdu ∈ variableCes then (getMacLen pdu).subheader + (getMacLen pdu).len
  else if firstLcid pdu = 0x3D then 2
  else if firstLcid pdu = 0x3E then 7
  else if firstLcid pdu = 0x3F then 1
  else 1 + fixedCeLen (firstLcid pdu)

/-- The walk does not end with the first subPDU: it is neither padding nor an empty message of the common channel,
its timing advance is for this UE and so is its contention resolution identity, and its length is possible. -/
def UeMac.goesOn (ue : UeMac) (pdu : List UInt8) : Bool :=
  if firstLcid pdu = 0 then !(pdu.take (subPduLen pdu)).all (· == 0)
  else if firstLcid pdu = 0x3D then (pdu.getD 1 0).toNat / 64 = ue.tagId
  else if firstLcid pdu = 0x3E then ue.contResId.all fun own => (pdu.drop 1).take 6 = own
  else if firstLcid pdu = 0x3F then false
  else 32 < firstLcid pdu ∨ (getMacLen pdu).valid

/-- A UE, and what is left of the PDU -/
abbrev DlWalk := UeMac × List UInt8

def DlWalk.left (w : DlWalk) : Nat := w.2.length

def nextSubPdu : DlWalk → Option DlWalk
  | (ue, pdu) =>
    if ue.goesOn pdu ∧ subPduLen pdu ≤ pdu.length then some (ue.after (firstLcid pdu), pdu.drop (subPduLen pdu))
    else none

def UeMac.collects (ue : UeMac) (pdu : List UInt8) : Bool :=
  if firstLcid pdu = 0 then ue.goesOn pdu ∧ 0 < (getMacLen pdu).len
  else firstLcid pdu ≤ 32 ∧ (getMacLen pdu).valid ∧ !ue.isLcidSuspended (firstLcid pdu)

/-- The octets of the first subPDU that the UE needs are there. A length that is not above what is left of the PDU
also has to leave room for its subheader. -/
def UeMac.Complete (ue : UeMac) (pdu : List UInt8) : Prop :=
  if firstLcid pdu = 0 then (getMacLen pdu).valid ∧ ((getMacLen pdu).len = 0 ∨ subPduLen pdu ≤ pdu.length)
  else if firstLcid pdu = 0x3D then 2 ≤ pdu.length
  else if firstLcid pdu = 0x3E then ue.contResId = none ∨ 7 ≤ pdu.length
  else ue.collects pdu → subPduLen pdu ≤ pdu.length

/-- Every subPDU that the walk comes to is complete, and there are fewer SDUs than entries for them. -/
structure UeMac.WellFormed (ue : UeMac) (pdu : List UInt8) : Prop where
  complete : ∀ w ∈ stations DlWalk.left nextSubPdu (ue, pdu), w.1.Complete w.2
  few : (stations DlWalk.left nextSubPdu (ue, pdu)).countP (fun w => w.1.collects w.2) < maxNumDataInd

/-- A PDU that begins with the subPDUs of MsgB -/
structure UeMac.WellFormedMsgB (ue : UeMac) (pdu : List UInt8) : Prop where
  complete : ∀ p ∈ stations List.length nextMsgB pdu, CompleteMsgB p
  two_le : 2 ≤ pdu.length
  rest : { ue with contResId := none }.WellFormed (afterMsgB pdu)

end SubPdus

end OaiNr.Mac
