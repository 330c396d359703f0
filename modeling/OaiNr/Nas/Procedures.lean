import OaiNr.Lib.Trace
import OaiNr.Nas.Uplink

/-!
# Protected uplink messages

The procedures that generate a NAS message, the plain message that each of them is to send, and what a receiver with the
same keys finds.
-/

namespace OaiNr.Nas

inductive Procedure where
  | registrationRequest (mem : Nat → UInt8)
  | serviceRequest (mem : Nat → UInt8)
  | securityModeComplete (mem : Nat → UInt8)
  | securityModeReject (mem : Nat → UInt8) (cause : UInt8)
  | registrationComplete
  | deregistrationRequest
  | pduSessionEstablishRequest (mem : Nat → UInt8) (req : PduSessionReq)
  /-- What is received in between, and timers, may give the UE another state. -/
  | received (nas' : NrUeNas)

variable (crypto : Crypto)

variable (nas : NrUeNas)

/-- The security context stays, and only the generators count `nas_count_ul`. -/
def NrUeNas.afterReception (nas' : NrUeNas) : NrUeNas :=
  { nas' with
    securityContainer := nas.securityContainer
    security := { nas'.security with nasCountUl := nas.security.nasCountUl } }

def generate : Procedure → Except Fault (NrUeNas × Option (List UInt8))
  | .registrationRequest mem => generateRegistrationRequest crypto nas mem false
  | .serviceRequest mem => (generateServiceRequest crypto nas mem).map (Prod.map id some)
  | .securityModeComplete mem => (generateSecurityModeComplete crypto nas mem).map (Prod.map id some)
  | .securityModeReject mem cause => (generateSecurityModeReject nas mem cause).map (Prod.map id some)
  | .registrationComplete => (generateRegistrationComplete crypto nas).map (Prod.map id some)
  | .deregistrationRequest => (generateDeregistrationRequest crypto nas).map (Prod.map id some)
  | .pduSessionEstablishRequest mem req =>
    (generatePduSessionEstablishRequest crypto nas mem req).map (Prod.map id some)
  | .received nas' => .ok (nas.afterReception nas', none)

def proceed (p : Procedure) : Except Fault NrUeNas := (generate crypto nas p).map Prod.fst

section Intended

def plainOctets (m : PlainMessage) (mem : Nat → UInt8) : Encoded := mmMsgEncode m mem 0xffff

/-- The message that a procedure is to send, with the elements that may stand in clear, and with all its elements. What
memory holds where an encoder skips octets may be anything. -/
inductive Intends (nas : NrUeNas) : Procedure → List UInt8 → List UInt8 → Prop
  | registrationRequest {mem mem₁ mem₂ registrationType cleartext full size clear octets}
    (htype : setFgsRegistrationType nas = some registrationType)
    (hclear : registrationRequest crypto nas registrationType false = .ok (cleartext, size))
    (hfull : registrationRequest crypto nas registrationType true = .ok (full, size))
    (hclearOctets : plainOctets cleartext mem₁ = .ok (some clear))
    (hoctets : plainOctets full mem₂ = .ok (some octets)) :
    Intends nas (.registrationRequest mem) clear octets
  | serviceRequest {mem guti clear octets} (hguti : nas.guti = some guti)
    (hclear : plainOctets (.serviceRequest ⟨setFgsKsi nas, fillFgstmsi guti, none, none⟩) mem = .ok (some clear))
    (hoctets : plainOctets (.serviceRequest ⟨setFgsKsi nas, fillFgstmsi guti,
      if hasNonCleartextIes nas.uicc then some (pduSessionStatus nas.uicc) else none, none⟩) mem = .ok (some octets)) :
    Intends nas (.serviceRequest mem) clear octets
  | securityModeComplete {mem registrationType full size rr octets}
    (htype : setFgsRegistrationType nas = some registrationType)
    (hfull : registrationRequest crypto nas registrationType true = .ok (full, size))
    (hrr : plainOctets full mem = .ok (some rr))
    (hoctets : plainOctets (.securityModeComplete (fillImeisv nas.uicc) rr) mem = .ok (some octets)) :
    Intends nas (.securityModeComplete mem) octets octets
  | securityModeReject {mem cause octets} (hoctets : plainOctets (.securityModeReject cause) mem = .ok (some octets)) :
    Intends nas (.securityModeReject mem cause) octets octets
  | registrationComplete : Intends nas .registrationComplete [0x7e, 0, 0x43] [0x7e, 0, 0x43]
  | deregistrationRequest {guti octets} (hguti : nas.guti = some guti)
    (hoctets : plainOctets (.deregistrationRequest guti) (fun _ => 0) = .ok (some octets)) :
    Intends nas .deregistrationRequest octets octets
  | pduSessionEstablishRequest {mem req octets}
    (hoctets : plainOctets (.uplinkNasTransport req) mem = .ok (some octets)) :
    Intends nas (.pduSessionEstablishRequest mem req) octets octets

end Intended

section Receiver

variable (container : Container) (count : UInt32)

def decipher (octets : List UInt8) : List UInt8 :=
  crypto.encrypt container.cipheringAlgorithm ⟨container.cipheringContext, count, 1, 0⟩ octets

/-- A message gives the receiver the plain message. An integrity protected one has it in clear, or behind the elements in
clear as the ciphered contents of a NAS message container; any other one is ciphered from octet 7 on. -/
def Recovers (clear full octets : List UInt8) : Prop :=
  if octets[1]? = some 1 then
    if clear = full then octets.drop 7 = full
    else ∃ contents, octets.drop 7 = clear ++ [0x71] ++ be16 contents.length ++ contents ∧
      decipher crypto container count contents = full
  else decipher crypto container count (octets.drop 7) = full

/-- A message is protected with a COUNT. -/
structure WellProtected (clear full octets : List UInt8) : Prop where
  sequenceNumber : octets[6]? = some (sqn count)
  mac : (octets.drop 2).take nasIntegritySize =
    crypto.integrity container.integrityAlgorithm ⟨container.integrityContext, count, 1, 0⟩ (octets.drop 6)
  recovers : Recovers crypto container count clear full octets

end Receiver

/-- With a security context, a procedure does not misuse memory, and a message that it generates is protected with the
COUNT in the state, which is counted, and gives the receiver the intended message. -/
def Protects (p : Procedure) : Prop :=
  ∀ container, nas.securityContainer = some container →
    (∀ fault, generate crypto nas p = .error fault → fault = .assertFatal) ∧
    ∀ nas' octets, generate crypto nas p = .ok (nas', some octets) →
      nas'.security.nasCountUl.toNat = nas.security.nasCountUl.toNat + 1 ∧
        ∃ clear full, Intends crypto nas p clear full ∧
          WellProtected crypto container nas.security.nasCountUl clear full octets

section Conditions

/-- A SUCI is read inside of the strings of the USIM, and its scheme output fits. -/
def IdentityFits : Prop :=
  nas.guti = none → nas.uicc.Readable ∧
    (nas.uicc.protectionScheme = 0 → nas.uicc.msin.length ≤ 127) ∧
    (nas.uicc.protectionScheme = 1 → ∀ bcd, digitStringToBcdValue nas.uicc.msin = some bcd → bcd.length ≤ 23)

def IdentityAsserts : Prop :=
  nas.guti = none ∧
    (nas.uicc.protectionScheme ≠ 0 ∧ nas.uicc.protectionScheme ≠ 1 ∨ digitStringToBcdValue nas.uicc.msin = none)

/-- When the message of a procedure is protected: a Registration Request only if none is made, a Service Request if a PDU
session is configured, a Security Mode Complete if there is a Registration Request to put into it, a Security Mode Reject
never, and all other ones. -/
def Protectable : Procedure → Prop
  | .registrationRequest _ => setFgsRegistrationType nas = none ∨
      IdentityFits nas ∧ (0xffffff < nas.security.nasCountUl ∨ IdentityAsserts nas)
  | .serviceRequest _ => nas.guti = none ∨ hasNonCleartextIes nas.uicc = true
  | .securityModeComplete _ => setFgsRegistrationType nas ≠ none ∧ IdentityFits nas
  | .securityModeReject _ _ => False
  | .registrationComplete | .deregistrationRequest | .pduSessionEstablishRequest _ _ | .received _ => True

end Conditions

def counts (nas : NrUeNas) : List Procedure → List UInt32
  | [] => []
  | p :: ps =>
    match generate crypto nas p with
    | .ok (nas', some _) => nas.security.nasCountUl :: counts nas' ps
    | .ok (nas', none) => counts nas' ps
    | .error _ => []

/-- Every message of a sequence of procedures is protected, and no two with the same COUNT. -/
def UplinkProtected (ps : List Procedure) : Prop :=
  Trace.Throughout (proceed crypto) (Protects crypto) nas ps ∧ (counts crypto nas ps).Nodup

end OaiNr.Nas
