import OaiNr.Nas.State

/-!
# The NAS messages that the UE sends (`nr_nas_msg.c`, `fgs_nas_lib.c`, `5GMM/MSG`, `5GMM/IES`)

An encoder returns the octets that it writes, or nothing where the code returns a negative number. The memory for a
message holds arbitrary octets before.
-/

namespace OaiNr.Nas

abbrev Encoded := Except Fault (Option (List UInt8))

/-- What an encoder that was given `len` octets gives on behind `encoded` of them, as `uint32_t` -/
def left (len encoded : Nat) : Nat := (len + 2 ^ 32 - encoded) % 2 ^ 32

section Identities

structure Suci where
  mccdigit2 : UInt8
  mccdigit1 : UInt8
  mncdigit3 : UInt8
  mccdigit3 : UInt8
  mncdigit2 : UInt8
  mncdigit1 : UInt8
  routingindicatordigit2 : UInt8
  routingindicatordigit1 : UInt8
  routingindicatordigit4 : UInt8
  routingindicatordigit3 : UInt8
  protectionschemeId : UInt8
  homenetworkpki : UInt8
  schemeoutput : List UInt8
  deriving DecidableEq, Repr

structure Stmsi where
  spare : UInt8
  amfsetid : UInt16
  amfpointer : UInt16
  tmsi : UInt32
  deriving DecidableEq, Repr

inductive MobileIdentity where
  | suci (suci : Suci)
  | guti (guti : Guti)
  | imeisv (digit : Nat → UInt8)

def digits (high low : UInt8) : UInt8 := (high <<< 4) ||| low

def bcd (high low : UInt8) : UInt8 := ((high &&& 0xf) <<< 4) ||| (low &&& 0xf)

def amf (amfsetid amfpointer : UInt16) : UInt16 := (amfsetid <<< 6) ||| (amfpointer &&& 0x3f)

def encodeStmsi5gsMobileIdentity (stmsi : Stmsi) (len : Nat) : Option (List UInt8) :=
  if len < 9 then none
  else
    some ([(0xf0 : UInt8) ||| ((stmsi.spare &&& 1) <<< 3) ||| 4] ++ be16 (amf stmsi.amfsetid stmsi.amfpointer).toNat
      ++ be32 stmsi.tmsi)

def encodeGuti5gsMobileIdentity (guti : Guti) : List UInt8 :=
  [(0xf0 : UInt8) ||| ((guti.oddeven &&& 1) <<< 3) ||| 2, bcd guti.mccdigit2 guti.mccdigit1,
    bcd guti.mncdigit3 guti.mccdigit3,
    bcd guti.mncdigit2 guti.mncdigit1, guti.amfregionid]
    ++ be16 (amf guti.amfsetid guti.amfpointer).toNat ++ be32 guti.tmsi

/-- `digit_string_to_bcd_value` of characters, two digits an octet with a filler behind an odd number -/
def digitStringToBcdValue : List UInt8 → Option (List UInt8)
  | [] => some []
  | [low] => if low - 48 > 9 then none else some [digits 0xf (low - 48)]
  | low :: high :: rest =>
    if low - 48 > 9 ∨ (high - 48 > 9 ∧ high - 48 ≠ 0xf) then none
    else (digitStringToBcdValue rest).map (digits (high - 48) (low - 48) :: ·)

/-- `encode_suci_5gs_mobile_identity`; with scheme A the output was made from octets. -/
def encodeSuci5gsMobileIdentity (suci : Suci) (len : Nat) : Encoded :=
  if len < 8 then .ok none
  else
    let header := [1, bcd suci.mccdigit2 suci.mccdigit1, bcd suci.mncdigit3 suci.mccdigit3,
      bcd suci.mncdigit2 suci.mncdigit1, bcd suci.routingindicatordigit2 suci.routingindicatordigit1,
      bcd suci.routingindicatordigit4 suci.routingindicatordigit3, suci.protectionschemeId &&& 0xf,
      suci.homenetworkpki]
    if suci.protectionschemeId = 0 then
      if left len 8 < (suci.schemeoutput.length + 1) / 2 then .ok none
      else
        match digitStringToBcdValue suci.schemeoutput with
        | none => .error .assertFatal
        | some output => .ok (some (header ++ output))
    else if left len 8 < suci.schemeoutput.length then .ok none
    else .ok (some (header ++ suci.schemeoutput))

/-- `encode_imeisv_5gs_mobile_identity`, with an even number of digits -/
def encodeImeisv5gsMobileIdentity (digit : Nat → UInt8) : List UInt8 :=
  [digits (digit 0) 5, digits (digit 2) (digit 1), digits (digit 4) (digit 3), digits (digit 6) (digit 5),
    digits (digit 8) (digit 7), digits (digit 10) (digit 9), digits (digit 12) (digit 11), digits (digit 14) (digit 13),
    digits 0xf (digit 15)]

def encodeIdentityContents (identity : MobileIdentity) (len : Nat) : Encoded :=
  match identity with
  | .suci suci => encodeSuci5gsMobileIdentity suci len
  | .guti guti => .ok (some (encodeGuti5gsMobileIdentity guti))
  | .imeisv digit => .ok (some (encodeImeisv5gsMobileIdentity digit))

def encode5gsMobileIdentity (identity : MobileIdentity) (iei : Option UInt8) (len : Nat) : Encoded :=
  if len < 3 then .ok none
  else do
    let contents ← encodeIdentityContents identity (left len (iei.toList.length + 2))
    .ok (contents.map fun c => iei.toList ++ be16 c.length ++ c)

/-- `getImeisvDigit`. The length of the string is taken as `uint8_t`. -/
def getImeisvDigit (uicc : Uicc) (i : Nat) : UInt8 :=
  let c := uicc.imeisvStr.getD i 0
  if i < min (uicc.imeisvStr.length % 256) 16 ∧ 48 ≤ c ∧ c ≤ 57 then (c - 48) &&& 0xf else 0

def fillImeisv (uicc : Uicc) : MobileIdentity := .imeisv (getImeisvDigit uicc)

/-- A character of a string, or its terminator -/
def digitOf (str : List UInt8) (i : Nat) : UInt8 := str.getD i 0 - 48

/-- `fill_suci` reads inside of the strings, up to their terminators: the digits of MCC and MNC, four digits of the
routing indicator, and the MSIN. -/
def Uicc.Readable (uicc : Uicc) : Prop :=
  (if uicc.nmcSize = 2 then 4 else 5) ≤ uicc.imsiStr.length ∧ 3 ≤ uicc.routingIndicatorStr.length ∧
    0 ≤ 3 + uicc.nmcSize ∧ 3 + uicc.nmcSize ≤ uicc.imsiStr.length

instance (uicc : Uicc) : Decidable uicc.Readable := inferInstanceAs (Decidable (_ ∧ _))

/-- The MSIN as `fill_suci` copies it, with its length as `uint8_t` -/
def Uicc.msin (uicc : Uicc) : List UInt8 :=
  let msin := uicc.imsiStr.drop (3 + uicc.nmcSize).toNat
  msin.take (msin.length % 256)

/-- `fill_suci`; the scheme output has room for 128 characters, of which scheme A takes two an octet. -/
def fillSuci (crypto : Crypto) (uicc : Uicc) : Except Fault MobileIdentity :=
  let mnc := if uicc.nmcSize = 2 then (0xf, digitOf uicc.imsiStr 4, digitOf uicc.imsiStr 3)
    else (digitOf uicc.imsiStr 3, digitOf uicc.imsiStr 5, digitOf uicc.imsiStr 4)
  let suci := fun pki output => MobileIdentity.suci {
    mccdigit2 := digitOf uicc.imsiStr 1, mccdigit1 := digitOf uicc.imsiStr 0
    mncdigit3 := mnc.1, mccdigit3 := digitOf uicc.imsiStr 2
    mncdigit2 := mnc.2.1, mncdigit1 := mnc.2.2
    routingindicatordigit2 := digitOf uicc.routingIndicatorStr 1
    routingindicatordigit1 := digitOf uicc.routingIndicatorStr 0
    routingindicatordigit4 := digitOf uicc.routingIndicatorStr 3
    routingindicatordigit3 := digitOf uicc.routingIndicatorStr 2
    protectionschemeId := UInt8.ofNat uicc.protectionScheme
    homenetworkpki := pki, schemeoutput := output }
  if ¬uicc.Readable then .error .outOfBounds
  else if uicc.protectionScheme = 0 then
    if 127 < uicc.msin.length then .error .outOfBounds else .ok (suci 0 uicc.msin)
  else if uicc.protectionScheme = 1 then
    match digitStringToBcdValue uicc.msin with
    | none => .error .assertFatal
    | some bcd =>
      if 127 < 2 * (crypto.suciProfileA bcd).length then .error .outOfBounds
      else .ok (suci uicc.homeNetworkPublicKeyId (crypto.suciProfileA bcd))
  else .error .assertFatal

/-- What `fill_suci`, `fill_guti`, `fill_fgstmsi` and `fill_imeisv` add to the size of a message -/
def suciSize : Nat := 136

def gutiSize : Nat := 13

def fgstmsiSize : Nat := 9

def imeisvSize : Nat := 19

end Identities

section Elements

def encodeOctetString (value : List UInt8) (len : Nat) : Option (List UInt8) :=
  if value = [] then some [] else if len < value.length then none else some value

def encodeFgcNasMessageContainer (contents : List UInt8) (len : Nat) : Option (List UInt8) :=
  if len < 4 then none
  else (encodeOctetString contents (left len 3)).map fun c => [0x71] ++ be16 c.length ++ c

/-- `encode_5gmm_capability` of what `set_fgmm_capability` sets -/
def encode5gmmCapability (len : Nat) : Option (List UInt8) :=
  if len < 3 then none else some [0x10, 1, ((1 : UInt8) <<< 2) ||| ((1 : UInt8) <<< 1)]

/-- `encode_nrue_security_capability` of what `generateRegistrationRequest` sets: it skips the last four octets. -/
def encodeNrueSecurityCapability (mem : Nat → UInt8) : List UInt8 :=
  [0x2E, 8, 0xe0, 0x60, 0, 0, mem 6, mem 7, mem 8, mem 9]

def encodePduSessionIe (psi : Nat → Bool) (len : Nat) : Option (List UInt8) :=
  if len < 4 then none
  else
    let octet := fun bits : List Nat => (bits.map fun i => if psi i then (1 : UInt8) <<< UInt8.ofNat (i % 8) else 0).foldl
      (· ||| ·) 0
    some [0x50, 2, octet [1, 2, 3, 4, 5, 6, 7], octet [8, 9, 10, 11, 12, 13, 14, 15]]

def encodeNasKeySetIdentifier (ksi : UInt8) : UInt8 := ksi &&& 7

end Elements

section Messages

structure RegistrationRequest where
  registrationType : UInt8
  ksi : UInt8
  identity : MobileIdentity
  capability : Bool

/-- `encode_registration_request`; a NAS message container is not encoded. -/
def encodeRegistrationRequest (m : RegistrationRequest) (mem : Nat → UInt8) (len : Nat) : Encoded := do
  let first := ((encodeNasKeySetIdentifier m.ksi &&& 0xf) <<< 4) ||| ((0x08 ||| (m.registrationType &&& 7)) &&& 0xf)
  match ← encode5gsMobileIdentity m.identity none (left len 1) with
  | none => .ok none
  | some identity =>
    let encoded := 1 + identity.length
    match (if m.capability then encode5gmmCapability (left len encoded) else some []) with
    | none => .ok none
    | some capability =>
      let encoded := encoded + capability.length
      .ok (some ([first] ++ identity ++ capability ++ encodeNrueSecurityCapability fun i => mem (encoded + i)))

def encodeFgsSecurityModeComplete (identity : MobileIdentity) (contents : List UInt8) (len : Nat) : Encoded := do
  match ← encode5gsMobileIdentity identity (some 0x77) len with
  | none => .ok none
  | some identity =>
    .ok ((encodeFgcNasMessageContainer contents (left len identity.length)).map (identity ++ ·))

/-- `encode_fgs_deregistration_request_ue_originating`, of a normal deregistration from 3GPP access -/
def encodeFgsDeregistrationRequest (guti : Guti) (len : Nat) : Encoded := do
  let identity ← encode5gsMobileIdentity (.guti guti) none (left len 1)
  .ok (identity.map ([0x10] ++ ·))

/-- `nas_pdu_session_req_t`; the name of the data network was copied into 103 characters. -/
structure PduSessionReq where
  pdusessionId : UInt8
  pdusessionType : UInt8
  sst : UInt8
  sd : UInt32
  dnn : List UInt8
  dnn_le : dnn.length ≤ 102

def encodePduSessionEstablishmentRequest (req : PduSessionReq) : List UInt8 :=
  [0x2E, req.pdusessionId, 1, 0xc1] ++ be16 0xffff ++ [req.pdusessionType]

/-- The S-NSSAI of a request; a slice differentiator of `0xffffff` stands for none. -/
def PduSessionReq.snssai (req : PduSessionReq) : List UInt8 :=
  if req.sd ≠ 0xffffff then req.sst :: (be32 req.sd).drop 1 else [req.sst]

/-- `encode_fgs_uplink_nas_transport` of a PDU session establishment request -/
def encodeFgsUplinkNasTransport (req : PduSessionReq) (len : Nat) : Option (List UInt8) :=
  let container := encodePduSessionEstablishmentRequest req
  (encodeOctetString container (left (left len 1) 2)).map fun container =>
    [1] ++ be16 container.length ++ container ++ [0x12, req.pdusessionId, 0x81]
      ++ [0x22, UInt8.ofNat req.snssai.length] ++ req.snssai
      ++ [0x25, UInt8.ofNat (req.dnn.length + 1)] ++ [UInt8.ofNat req.dnn.length] ++ req.dnn

structure ServiceRequest where
  ksi : UInt8
  stmsi : Stmsi
  pduSessionStatus : Option (Nat → Bool)
  container : Option (List UInt8)

/-- `encode_fgs_service_request`. Where the identity does not fit, `encoded` goes back by one octet and the length of
the identity is written as `0xffff`. -/
def encodeFgsServiceRequest (m : ServiceRequest) (len : Nat) : Option (List UInt8) :=
  if len < 10 then none
  else
    let first := ((encodeNasKeySetIdentifier m.ksi &&& 0xf) <<< 4) ||| 1
    let fixed := match encodeStmsi5gsMobileIdentity m.stmsi (len - 3) with
      | some stmsi => [first] ++ be16 stmsi.length ++ stmsi
      | none => [first, 0xff]
    let status := match m.pduSessionStatus with
      | some psi => encodePduSessionIe psi (left len fixed.length)
      | none => some []
    status.bind fun status =>
      let container := match m.container with
        | some contents => encodeFgcNasMessageContainer contents (left len (fixed.length + status.length))
        | none => some []
      container.map fun container => fixed ++ status ++ container

/-- `fgmm_nas_message_plain_t`: a 5GMM message with its header -/
inductive PlainMessage where
  | registrationRequest (m : RegistrationRequest)
  | securityModeComplete (identity : MobileIdentity) (contents : List UInt8)
  | securityModeReject (cause : UInt8)
  | uplinkNasTransport (req : PduSessionReq)
  | deregistrationRequest (guti : Guti)
  | serviceRequest (m : ServiceRequest)

def PlainMessage.messageType : PlainMessage → UInt8
  | registrationRequest _ => 0x41
  | securityModeComplete _ _ => 0x5e
  | securityModeReject _ => 0x5f
  | uplinkNasTransport _ => 0x67
  | deregistrationRequest _ => 0x45
  | serviceRequest _ => 0x4c

/-- The security header type of the plain header, which `generateDeregistrationRequest` does not set to plain -/
def PlainMessage.headerType : PlainMessage → UInt8
  | deregistrationRequest _ => 4
  | _ => 0

def PlainMessage.encodeBody (m : PlainMessage) (mem : Nat → UInt8) (len : Nat) : Encoded :=
  match m with
  | registrationRequest m => encodeRegistrationRequest m mem len
  | securityModeComplete identity contents => encodeFgsSecurityModeComplete identity contents len
  | securityModeReject cause => .ok (if len < 1 then none else some [cause])
  | uplinkNasTransport req => .ok (encodeFgsUplinkNasTransport req len)
  | deregistrationRequest guti => encodeFgsDeregistrationRequest guti len
  | serviceRequest m => .ok (encodeFgsServiceRequest m len)

def nasMmMsgEncodeHeader (headerType messageType : UInt8) : List UInt8 := [0x7e, headerType &&& 0xf, messageType]

def mmMsgEncode (m : PlainMessage) (mem : Nat → UInt8) (len : Nat) : Encoded :=
  if len < 3 then .ok none
  else do
    let body ← m.encodeBody (fun i => mem (3 + i)) (left len 3)
    .ok (body.map (nasMmMsgEncodeHeader m.headerType m.messageType ++ ·))

/-- `nas_protected_security_header_encode`, with no message authentication code yet -/
def nasProtectedSecurityHeaderEncode (headerType sequenceNumber : UInt8) : List UInt8 :=
  [0x7e, headerType &&& 0xf, 0, 0, 0, 0, sequenceNumber]

/-- `fgs_nas_message_security_header_t` -/
structure SecurityHeader where
  protocolDiscriminator : UInt8
  securityHeaderType : UInt8
  messageAuthenticationCode : UInt32
  sequenceNumber : UInt8
  deriving DecidableEq, Repr

/-- `nas_protected_security_header_encode`. The size that is left is compared as an unsigned number. -/
def SecurityHeader.nasProtectedSecurityHeaderEncode (h : SecurityHeader) (length : Int) : Option (List UInt8) :=
  if length % 2 ^ 64 < 7 then none
  else some ([h.protocolDiscriminator, h.securityHeaderType &&& 0xf] ++ be32 h.messageAuthenticationCode ++
    [h.sequenceNumber])

/-- `decode_5gs_security_protected_header`: the number of octets decoded, and the header. Behind the message
authentication code, `buf` still points at its start. -/
def decode5gsSecurityProtectedHeader : List UInt8 → Option (Nat × SecurityHeader)
  | pd :: sht :: m₃ :: m₂ :: m₁ :: m₀ :: _ :: _ =>
    let mac := UInt32.ofNat (m₃.toNat * 2 ^ 24 + m₂.toNat * 2 ^ 16 + m₁.toNat * 2 ^ 8 + m₀.toNat)
    some (7, ⟨pd, sht, mac, m₃⟩)
  | _ => none

end Messages

section Generators

variable (crypto : Crypto)

def sqn (count : UInt32) : UInt8 := UInt8.ofNat count.toNat

/-- A message of a negative length, or one that does not fit in its memory, cannot be used. -/
def fits (size : Nat) : Option (List UInt8) → Except Fault (List UInt8)
  | none => .error .outOfBounds
  | some octets => if size < octets.length then .error .outOfBounds else .ok octets

/-- A message behind a security header, in `size` allocated octets -/
def encodeProtected (headerType : UInt8) (count : UInt32) (m : PlainMessage) (mem : Nat → UInt8) (size : Nat) :
    Except Fault (List UInt8) := do
  let plain ← mmMsgEncode m (fun i => mem (7 + i)) (left size 7)
  fits size (plain.map (nasProtectedSecurityHeaderEncode headerType (sqn count) ++ ·))

def cipherPayload (container : Container) (count : UInt32) (octets : List UInt8) : List UInt8 :=
  octets.take 7 ++
    crypto.encrypt container.cipheringAlgorithm ⟨container.cipheringContext, count, 1, 0⟩ (octets.drop 7)

def integrityProtect (container : Container) (count : UInt32) (octets : List UInt8) : List UInt8 :=
  octets.take 2 ++
    crypto.integrity container.integrityAlgorithm ⟨container.integrityContext, count, 1, 0⟩ (octets.drop 6) ++
    octets.drop 6

variable (nas : NrUeNas)

def NrUeNas.countedUl : NrUeNas :=
  { nas with security := { nas.security with nasCountUl := nas.security.nasCountUl + 1 } }

/-- How the generators of ciphered messages end: they cipher the message, protect it and count it. -/
def NrUeNas.protect (octets : List UInt8) : Except Fault (NrUeNas × List UInt8) :=
  match nas.securityContainer with
  | none => .error .nullPointer
  | some container =>
    if 0xffffff < nas.security.nasCountUl then .error .assertFatal
    else
      let count := nas.security.nasCountUl
      .ok (nas.countedUl, integrityProtect crypto container count (cipherPayload crypto container count octets))

def setFgsKsi : UInt8 :=
  match nas.securityContainer, nas.ksi with
  | some _, some ksi => ksi &&& 7
  | _, _ => 7

/-- `set_fgs_registration_type`; no type is the reserved one. -/
def setFgsRegistrationType : Option UInt8 :=
  if nas.fiveGmmState = .registered ∧ nas.fiveGmmMode = .idle ∧ nas.t3512 ≠ 0 then none
  else if nas.fiveGmmState = .registered then some 2
  else if nas.fiveGmmMode = .connected ∧ nas.isRrcInactive then none
  else some 1

/-- The Registration Request with all its elements, or with the cleartext ones only, and what the identity adds to its
size -/
def registrationRequest (registrationType : UInt8) (capability : Bool) :
    Except Fault (PlainMessage × Nat) :=
  match nas.guti with
  | some guti => .ok (.registrationRequest ⟨registrationType, setFgsKsi nas, .guti guti, capability⟩, gutiSize)
  | none => (fillSuci crypto nas.uicc).map fun suci =>
    (.registrationRequest ⟨registrationType, setFgsKsi nas, suci, capability⟩, suciSize)

/-- `nas_itti_kgnb_refresh_req` is sent the key that is derived anew -/
def NrUeNas.refreshKgnb (count : UInt32) : NrUeNas :=
  { nas with security := { nas.security with kgnb := deriveKgnb crypto nas.security.kamf count } }

/-- `generateRegistrationRequest`; it returns no message for the reserved registration type. -/
def generateRegistrationRequest (mem : Nat → UInt8) (isSecurityMode : Bool) :
    Except Fault (NrUeNas × Option (List UInt8)) :=
  match setFgsRegistrationType nas with
  | none => .ok (nas, none)
  | some registrationType => do
    let (cleartext, identity) ← registrationRequest crypto nas registrationType false
    let (full, _) ← registrationRequest crypto nas registrationType true
    let size := 3 + (if nas.securityContainer.isSome then 7 else 0) + 3 + 1 + 1 + identity + 10
    let sizeNct := size + 3
    if isSecurityMode then do
      let octets ← fits sizeNct (← mmMsgEncode full mem sizeNct)
      .ok (nas, some octets)
    else
      match nas.securityContainer with
      | none => do
        let octets ← fits size (← mmMsgEncode cleartext mem size)
        .ok (nas, some octets)
      | some container => do
        let contents ← fits sizeNct (← mmMsgEncode full (fun _ => 0) sizeNct)
        let size := size + contents.length + 2
        let count := nas.security.nasCountUl
        let octets ← encodeProtected 1 count cleartext mem size
        if 0xffffff < count then .error .assertFatal
        else .ok ((nas.refreshKgnb crypto count).countedUl, some (integrityProtect crypto container count octets))

def fillFgstmsi (guti : Guti) : Stmsi := ⟨0, guti.amfsetid, guti.amfpointer, guti.tmsi⟩

def pduSessionStatus (uicc : Uicc) (i : Nat) : Bool := uicc.pduSessionIds.any fun id => id = i

def hasNonCleartextIes (uicc : Uicc) : Bool := uicc.pduSessionIds.any fun id => 0 < id ∧ id < 16

def generateServiceRequest (mem : Nat → UInt8) : Except Fault (NrUeNas × List UInt8) :=
  match nas.guti with
  | none => .error .assertFatal
  | some guti =>
    let plain : ServiceRequest := ⟨setFgsKsi nas, fillFgstmsi guti, none, none⟩
    let size := 3 + 1 + fgstmsiSize
    match nas.securityContainer with
    | none => do
      let octets ← fits size (← mmMsgEncode (.serviceRequest plain) mem size)
      .ok (nas, octets)
    | some container => do
      let count := nas.security.nasCountUl
      let (plain, size) ←
        if hasNonCleartextIes nas.uicc then
          let full := { plain with pduSessionStatus := some (pduSessionStatus nas.uicc) }
          match ← mmMsgEncode (.serviceRequest full) (fun _ => 0) (size + 4) with
          | none => .error .assertFatal
          | some inner =>
            if 0xffffff < count then .error .assertFatal
            else
              let ciphered :=
                crypto.encrypt container.cipheringAlgorithm ⟨container.cipheringContext, count, 1, 0⟩ inner
              .ok ({ plain with container := some ciphered }, size + 7 + inner.length + 3)
        else .ok (plain, size + 7)
      let octets ← encodeProtected 1 count (.serviceRequest plain) mem size
      .ok (nas.countedUl.refreshKgnb crypto count, integrityProtect crypto container count octets)

/-- `generateSecurityModeComplete`; where no Registration Request is made, its container is not initialised. -/
def generateSecurityModeComplete (mem : Nat → UInt8) : Except Fault (NrUeNas × List UInt8) := do
  let (nas, rr) ← generateRegistrationRequest crypto nas mem true
  match rr with
  | none => .error .uninitialised
  | some rr =>
    let size := 3 + 7 + 3 + imeisvSize + rr.length + 2
    let octets ←
      encodeProtected 4 nas.security.nasCountUl (.securityModeComplete (fillImeisv nas.uicc) rr) mem size
    nas.protect crypto octets

/-- `generateSecurityModeReject`; with a security context it writes to memory that it has not allocated. -/
def generateSecurityModeReject (mem : Nat → UInt8) (cause : UInt8) :
    Except Fault (NrUeNas × List UInt8) :=
  match nas.securityContainer with
  | some _ => .error .nullPointer
  | none => do
    let octets ← fits 4 (← mmMsgEncode (.securityModeReject cause) mem 4)
    .ok (nas, octets)

/-- `generateRegistrationComplete`, without a SOR transparent container -/
def generateRegistrationComplete : Except Fault (NrUeNas × List UInt8) := do
  let octets := nasProtectedSecurityHeaderEncode 2 (sqn nas.security.nasCountUl) ++ nasMmMsgEncodeHeader 0 0x43
  let (nas, octets) ← nas.protect crypto octets
  .ok ({ nas with fiveGmmState := .registered }, octets)

def generateDeregistrationRequest : Except Fault (NrUeNas × List UInt8) :=
  match nas.guti with
  | none => .error .assertFatal
  | some guti => do
    let size := 7 + 3 + 1 + gutiSize
    let octets ← encodeProtected 2 nas.security.nasCountUl (.deregistrationRequest guti) (fun _ => 0) size
    let (nas, octets) ← nas.protect crypto octets
    .ok ({ nas with fiveGmmState := .deregisteredInitiated }, octets)

def generatePduSessionEstablishRequest (mem : Nat → UInt8) (req : PduSessionReq) :
    Except Fault (NrUeNas × List UInt8) := do
  let size := 7 + 3 + 1 + (2 + 7) + 3 + (1 + 1 + req.snssai.length) + (1 + 1 + req.dnn.length + 1)
  let octets ← encodeProtected 2 nas.security.nasCountUl (.uplinkNasTransport req) mem size
  nas.protect crypto octets

end Generators

end OaiNr.Nas
