import OaiNr.Mac.DlschPdu

/-!
# The MAC PDU of a downlink grant at the UE

The UE walks over the subPDUs of a block. How long each one is depends on its LCID alone, or on the
length in its subheader. The data goes to RLC when the walk is over.
-/

namespace OaiNr.Mac

/-- The part of `NR_UE_MAC_INST_t` that the walk reads. `contResId` is there in the state
`nrRA_WAIT_CONTENTION_RESOLUTION`; the state in which a two-step random access awaits its MsgB is not
part of the model. -/
structure UeMac where
  tagId : Nat
  lcOrderedList : List (Nat × Bool)
  contResId : Option (List UInt8)
  raActive : Bool

variable (ue : UeMac)

def UeMac.isLcidSuspended (lcid : Nat) : Bool :=
  ((ue.lcOrderedList.find? fun lc => lc.1 == lcid).map Prod.snd).getD false

/-- How the walk goes on: with the next subPDU, not at all, or not at all and without the data. -/
inductive Verdict where
  | next
  | done
  | discard
  deriving DecidableEq, Repr

structure Visit where
  subheader : Nat
  len : Nat
  ind : Option Sdu
  verdict : Verdict
  deriving DecidableEq, Repr

/-- An entry of `data_ind`. RLC reads `len` octets of the PDU. -/
def dataInd (pdu : List UInt8) (lcid : Nat) (m : MacLen) : Except Fault Visit :=
  if m.subheader + m.len ≤ pdu.length then
    .ok ⟨m.subheader, m.len, some (lcid, (pdu.drop m.subheader).take m.len), .next⟩
  else .error .outOfBounds

def visitCcch (pdu : List UInt8) : Except Fault Visit :=
  let m := getMacLen pdu
  if m.valid then
    if (pdu.take (m.subheader + m.len)).all (· == 0) then .ok ⟨m.subheader, m.len, none, .done⟩
    else if 0 < m.len then dataInd pdu 0 m
    else .ok ⟨m.subheader, m.len, none, .next⟩
  else .error .assertFatal

def UeMac.visitTa : List UInt8 → Except Fault Visit
  | _ :: ta :: _ => .ok ⟨1, 1, none, if ta.toNat / 64 = ue.tagId then .next else .done⟩
  | _ => .error .outOfBounds

def UeMac.visitContRes (pdu : List UInt8) : Except Fault Visit :=
  match ue.contResId with
  | none => .ok ⟨1, 6, none, .next⟩
  | some own =>
    if 7 ≤ pdu.length then
      .ok ⟨1, 6, none, if (pdu.drop 1).take 6 = own then .next else .discard⟩
    else .error .outOfBounds

def UeMac.visitSdu (pdu : List UInt8) (lcid : Nat) : Except Fault Visit :=
  let m := getMacLen pdu
  if m.valid then
    if ue.isLcidSuspended lcid then .ok ⟨m.subheader, m.len, none, .next⟩
    else dataInd pdu lcid m
  else .ok ⟨m.subheader, m.len, none, .done⟩

def variableCes : List Nat := [0x35, 0x36, 0x37, 0x32]

def fixedCeLen : Nat → Nat
  | 0x2F => 2
  | 0x30 => 2
  | 0x31 => 3
  | 0x33 => 2
  | 0x34 => 2
  | 0x38 => 1
  | 0x39 => 4
  | 0x3A => 1
  | _ => 0

/-- The `switch` of `nr_ue_process_mac_pdu`. The length of a control element is taken as it is read. -/
def UeMac.visit (pdu : List UInt8) (lcid : Nat) : Except Fault Visit :=
  if lcid = 0 then visitCcch pdu
  else if lcid ∈ variableCes then
    .ok ⟨(getMacLen pdu).subheader, (getMacLen pdu).len, none, .next⟩
  else if lcid = 0x3D then ue.visitTa pdu
  else if lcid = 0x3E then ue.visitContRes pdu
  else if lcid = 0x3F then .ok ⟨1, 0, none, .done⟩
  else if lcid ≤ 32 then ue.visitSdu pdu lcid
  else .ok ⟨1, fixedCeLen lcid, none, .next⟩

/-- The UE after a subPDU behind which the walk goes on. With its own contention resolution identity,
`nr_ra_succeeded` ends the random access. -/
def UeMac.after (lcid : Nat) : UeMac :=
  if lcid = 0x3E ∧ ue.raActive then { ue with contResId := none } else ue

structure Parsed where
  steps : List (Nat × Nat)
  dataInd : List Sdu
  deriving DecidableEq, Repr

def maxNumDataInd : Nat := 1024

/-- The loop of `nr_ue_process_mac_pdu`. It ends when the PDU does or when the walk is past its end. -/
def UeMac.walk (ue : UeMac) : (fuel : Nat) → List UInt8 → Parsed → Except Fault Parsed
  | 0, _, _ => .error .endless
  | _ + 1, [], r => .ok r
  | fuel + 1, b :: rest, r => do
    let v ← ue.visit (b :: rest) (lcidOf b)
    let total := v.subheader + v.len
    let r : Parsed := ⟨r.steps ++ [(lcidOf b, total)], r.dataInd ++ v.ind.toList⟩
    if v.ind.isSome ∧ maxNumDataInd ≤ r.dataInd.length then .error .devAssert
    else match v.verdict with
      | .discard => .ok { r with dataInd := [] }
      | .done => .ok r
      | .next => if rest.length + 1 < total then .ok r else (ue.after (lcidOf b)).walk fuel ((b :: rest).drop total) r

/-- `nr_ue_process_mac_pdu`. Every round takes an octet. -/
def UeMac.processMacPdu (pdu : List UInt8) : Except Fault Parsed :=
  ue.walk (pdu.length + 1) pdu ⟨[], []⟩

end OaiNr.Mac
