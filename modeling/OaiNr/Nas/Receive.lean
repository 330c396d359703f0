import OaiNr.Nas.Uplink

/-!
# The NAS messages that the UE receives (`nr_nas_msg.c`)

`nas_nrue` takes a message that comes with a confirmed connection or as downlink data, checks its security and calls
the handler of its type. What the decoders of a few messages find is a parameter of the model.
-/

namespace OaiNr.Nas

/-- `byte_array_t`: the octets of a message, and behind them the memory that follows -/
structure Buffer where
  len : Nat
  buf : Nat → UInt8

namespace Buffer

def slice (b : Buffer) (off n : Nat) : List UInt8 := (List.range n).map fun i => b.buf (off + i)

def octets (b : Buffer) : List UInt8 := b.slice 0 b.len

def ofOctets (octets : List UInt8) : Buffer := ⟨octets.length, fun i => octets.getD i 0⟩

end Buffer

section Security

variable (crypto : Crypto)

inductive SecurityState where
  | noSecurityContext
  | unprotected
  | integrityPassed
  | newSecurityContext
  | integrityFailed
  | badInput
  deriving DecidableEq, Repr

/-- The states above `NAS_SECURITY_INTEGRITY_PASSED`, for which `nas_nrue` discards the message -/
def SecurityState.discards : SecurityState → Bool
  | newSecurityContext | integrityFailed | badInput => true
  | _ => false

def getMsgType (b : Buffer) : UInt8 :=
  if b.len < 2 then 0
  else if b.buf 1 = 0 then if b.len < 3 then 0 else b.buf 2
  else if b.len < 10 then 0
  else if b.buf 9 = 0x68 then if b.len < 17 then 0 else b.buf 16
  else b.buf 9

/-- `unprotected_allowed`; it takes octet 4 for the 5GMM cause. -/
def unprotectedAllowed (b : Buffer) (msgType : UInt8) : Bool :=
  if msgType ∈ [0x5b, 0x56, 0x5a, 0x58, 0x46] then true
  else if msgType ∈ [0x44, 0x4d] then b.buf 4 ≠ 76
  else false

def nasSecurityGetMac (b : Buffer) : Option (List UInt8) :=
  if b.len < 8 then none else if b.buf 1 = 0 then none else some (b.slice 2 nasIntegritySize)

def nasSecurityGetSecHdr (b : Buffer) : Option UInt8 :=
  if b.len < 3 then none else if 4 < b.buf 1 &&& 0xf then none else some (b.buf 1 &&& 0xf)

/-- `nas_security_compute_mac` of a downlink message -/
def nasSecurityComputeMac (container : Container) (count : UInt32) (b : Buffer) : List UInt8 :=
  crypto.integrity container.integrityAlgorithm ⟨container.integrityContext, count, 1, 1⟩ (b.slice 6 (b.len - 6))

def nasSecurityDecryptPayload (container : Container) (count : UInt32) (b : Buffer) : Buffer :=
  match nasSecurityGetSecHdr b with
  | none => b
  | some secHdr =>
    if secHdr = 0 ∨ secHdr = 1 then b
    else
      let plain :=
        crypto.encrypt container.cipheringAlgorithm ⟨container.cipheringContext, count, 1, 1⟩ (b.slice 7 (b.len - 7))
      { b with buf := fun i => if 7 ≤ i ∧ i < b.len then plain.getD (i - 7) 0 else b.buf i }

/-- The COUNT that `nas_security_rx_process` estimates from a sequence number -/
def synchronise (count : UInt32) (nasSqn : UInt8) : UInt32 :=
  let target := count &&& 0xff
  if nasSqn.toUInt32 = target then count
  else
    let count := if nasSqn.toUInt32 < target then count + 256 else count
    (count &&& ~~~255) ||| nasSqn.toUInt32

def NrUeNas.setCountDl (nas : NrUeNas) (count : UInt32) : NrUeNas :=
  { nas with security := { nas.security with nasCountDl := count } }

def NrUeNas.deleteContext (nas : NrUeNas) : NrUeNas := { nas with securityContainer := none }

/-- `nas_security_rx_process`; the buffer is deciphered in place. -/
def nasSecurityRxProcess (nas : NrUeNas) (b : Buffer) : Except Fault (SecurityState × NrUeNas × Buffer) :=
  match nas.securityContainer with
  | none => .ok (.noSecurityContext, nas, b)
  | some container =>
    if b.len < 3 then .ok (.badInput, nas, b)
    else if b.buf 1 = 0 then
      .ok (if unprotectedAllowed b (getMsgType b) then .unprotected else .badInput, nas, b)
    else if b.buf 1 = 3 then .ok (.noSecurityContext, nas.deleteContext.setCountDl 0, b)
    else if b.buf 1 = 1 ∨ b.buf 1 = 4 then .ok (.badInput, nas, b)
    else if b.len < 8 then .ok (.badInput, nas, b)
    else
      let count := synchronise nas.security.nasCountDl (b.buf 6)
      if 0xffffff < count then .error .exit
      else if b.slice 2 nasIntegritySize ≠ nasSecurityComputeMac crypto container count b then
        .ok (.integrityFailed, nas.setCountDl count, b)
      else .ok (.integrityPassed, nas.setCountDl (count + 1), nasSecurityDecryptPayload crypto container count b)

end Security

section Handlers

/-- What the decoders of received messages find: the GUTI of a Registration Accept that can be decoded, whether an
Authentication Reject can, the timers of a Service Accept (T3448) and of a Service Reject (T3448 and T3446), and whether
they get through a PDU Session Establishment Accept. -/
structure Decoders where
  registrationAccept : Buffer → Except Fault (Option (Option Guti))
  authenticationReject : Buffer → Except Fault Bool
  serviceAccept : Buffer → Except Fault Int
  serviceReject : Buffer → Except Fault (Int × Int)
  pduSessionAccept : Buffer → Except Fault Unit

def Decoders.none : Decoders where
  registrationAccept _ := .ok .none
  authenticationReject _ := .ok false
  serviceAccept _ := .ok (-1)
  serviceReject _ := .ok (-1, -1)
  pduSessionAccept _ := .ok ()

variable (crypto : Crypto) (decoders : Decoders)

/-- `handle_fgmm_authentication_request`; a failed decoder of the header would return 255. -/
def handleFgmmAuthenticationRequest (nas : NrUeNas) (b : Buffer) : NrUeNas :=
  let ksi := b.buf (if b.len < 3 then 255 else 3) &&& 7
  let keys := deriveUeKeys crypto nas (b.slice 8 16) (b.slice 26 6)
  match nas.ksi with
  | none => { nas with ksi := some ksi, security := keys }
  | some old => if old = ksi then nas else { nas with security := keys }

def selectedAlgorithms (b : Buffer) : Nat × Nat := ((b.buf 10 >>> 4 &&& 0xf).toNat, (b.buf 10 &&& 0xf).toNat)

def NrUeNas.deriveNasKeys (nas : NrUeNas) (b : Buffer) : NrUeNas :=
  { nas with security := { nas.security with
      knasEnc := deriveKnas crypto 1 (selectedAlgorithms b).1 nas.security.kamf
      knasInt := deriveKnas crypto 2 (selectedAlgorithms b).2 nas.security.kamf } }

def NrUeNas.newContainer (nas : NrUeNas) (b : Buffer) : Except Fault Container :=
  let keys := (nas.deriveNasKeys crypto b).security
  streamSecurityContainerInit (selectedAlgorithms b).1 (selectedAlgorithms b).2 keys.knasEnc keys.knasInt

/-- A Security Mode Command is rejected with `Security_mode_rejected_unspecified`. -/
def rejectSecurityMode (nas : NrUeNas) (mem : Nat → UInt8) : Except Fault NrUeNas :=
  (generateSecurityModeReject nas mem 0x18).map Prod.fst

/-- `handle_security_mode_command` from the derivation of the keys on -/
def activateSecurityMode (nas : NrUeNas) (mem : Nat → UInt8) (b : Buffer) (mac : List UInt8) : Except Fault NrUeNas :=
  let derived := nas.deriveNasKeys crypto b
  if (selectedAlgorithms b).2 = 0 then rejectSecurityMode derived.deleteContext mem
  else do
    let container ← nas.newContainer crypto b
    if nasSecurityComputeMac crypto container nas.security.nasCountDl b ≠ mac then
      rejectSecurityMode derived.deleteContext mem
    else
      (generateSecurityModeComplete crypto { derived with securityContainer := some container } mem).map Prod.fst

/-- `handle_security_mode_command`; it goes on behind the rejection of a short command. -/
def handleSecurityModeCommand (nas : NrUeNas) (mem : Nat → UInt8) (b : Buffer) : Except Fault NrUeNas :=
  match nasSecurityGetSecHdr b, nasSecurityGetMac b with
  | some secHdr, some mac =>
    if secHdr ≠ 3 then rejectSecurityMode nas mem
    else if b.len < 10 then do
      let nas ← rejectSecurityMode nas mem
      activateSecurityMode crypto nas mem b mac
    else activateSecurityMode crypto nas mem b mac
  | _, _ => rejectSecurityMode nas mem

/-- `handle_registration_accept` up to the requests for PDU sessions -/
def handleRegistrationAccept (nas : NrUeNas) (b : Buffer) : Except Fault NrUeNas := do
  match ← decoders.registrationAccept b with
  | none => .ok nas
  | some guti =>
    (generateRegistrationComplete crypto { nas with guti := guti.or nas.guti }).map Prod.fst

/-- A Registration Reject ends the process if its cause is below the size of `cause_text_info`. -/
def handleRegistrationReject (nas : NrUeNas) (b : Buffer) : Except Fault NrUeNas :=
  if b.len < 18 then .ok nas else if 42 ≤ b.buf 17 then .ok nas else .error .exit

def handleDownlinkNasTransport (nas : NrUeNas) (b : Buffer) : Except Fault NrUeNas :=
  if b.len < 17 then .ok nas
  else if b.buf 16 = 0xc2 then (decoders.pduSessionAccept b).map fun _ => nas
  else .ok nas

/-- The branches of the switch of `nas_nrue` -/
inductive Handler where
  | identityRequest
  | authenticationRequest
  | authenticationReject
  | securityModeCommand
  | downlinkNasTransport
  | registrationAccept
  | deregistrationAccept
  | pduSessionEstablishmentAccept
  | pduSessionEstablishmentReject
  | registrationReject
  | serviceAccept
  | serviceReject
  deriving DecidableEq, Repr

def handle (mem : Nat → UInt8) (handler : Handler) (nas : NrUeNas) (b : Buffer) : Except Fault NrUeNas :=
  match handler with
  | .identityRequest | .pduSessionEstablishmentReject => .ok nas
  | .authenticationRequest => .ok (handleFgmmAuthenticationRequest crypto nas b)
  | .authenticationReject => (decoders.authenticationReject b).map fun decoded =>
    if decoded then { nas with fiveGmmState := .deregistered } else nas
  | .securityModeCommand => handleSecurityModeCommand crypto nas mem b
  | .downlinkNasTransport => handleDownlinkNasTransport decoders nas b
  | .registrationAccept => handleRegistrationAccept crypto decoders nas b
  | .deregistrationAccept => .ok { nas with fiveGmmState := .deregistered }
  | .pduSessionEstablishmentAccept => (decoders.pduSessionAccept b).map fun _ => nas
  | .registrationReject => handleRegistrationReject nas b
  | .serviceAccept => (decoders.serviceAccept b).map fun t3448 => { nas with t3448 }
  | .serviceReject => (decoders.serviceReject b).map fun timers => { nas with t3448 := timers.1, t3446 := timers.2 }

end Handlers

section Task

inductive Indication where
  | connEstabliCnf
  | downlinkDataInd
  deriving DecidableEq, Repr

def handlers : Indication → List (UInt8 × Handler)
  | .connEstabliCnf =>
    [(0x42, .registrationAccept), (0xc2, .pduSessionEstablishmentAccept), (0x4e, .serviceAccept)]
  | .downlinkDataInd =>
    [(0x5b, .identityRequest), (0x56, .authenticationRequest), (0x58, .authenticationReject),
      (0x5d, .securityModeCommand), (0x68, .downlinkNasTransport), (0x42, .registrationAccept),
      (0x46, .deregistrationAccept), (0xc2, .pduSessionEstablishmentAccept), (0xc3, .pduSessionEstablishmentReject),
      (0x44, .registrationReject), (0x4e, .serviceAccept), (0x4d, .serviceReject)]

structure Received where
  indication : Indication
  buffer : Buffer
  mem : Nat → UInt8

variable (crypto : Crypto) (decoders : Decoders)

/-- `nas_nrue` up to the handler: the handler that the message reaches, if any, and what it works on -/
def dispatch (nas : NrUeNas) (m : Received) : Except Fault (Option Handler × NrUeNas × Buffer) :=
  (nasSecurityRxProcess crypto nas m.buffer).map fun (state, nas, b) =>
    (if state.discards then none else (handlers m.indication).lookup (getMsgType b), nas, b)

/-- `nas_nrue` for a received NAS message -/
def nasNrue (nas : NrUeNas) (m : Received) : Except Fault NrUeNas := do
  let (handler, nas, b) ← dispatch crypto nas m
  match handler with
  | none => .ok nas
  | some handler => handle crypto decoders m.mem handler nas b

end Task

end OaiNr.Nas
