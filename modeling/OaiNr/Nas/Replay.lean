import OaiNr.Nas.Receive

/-!
# Accepted NAS messages

A record of the downlink messages whose message authentication code verified, kept beside the state of the NAS layer:
by `nas_security_rx_process` under the current context, or by `handle_security_mode_command` under a new one.
-/

namespace OaiNr.Nas

/-- An accepted message: the KAMF and the container of the context, COUNT, the octets, and whether it is a Security Mode
Command that set the context up -/
structure Accepted where
  kamf : List UInt8
  container : Container
  count : UInt32
  octets : List UInt8
  command : Bool
  deriving DecidableEq, Repr

def Accepted.knasInt (a : Accepted) : List UInt8 := a.container.integrityContext

/-- The NAS layer with the KAMF that its context was derived from and the messages accepted so far, the oldest first -/
structure Watched where
  nas : NrUeNas
  contextKamf : List UInt8
  accepted : List Accepted

variable (crypto : Crypto) (decoders : Decoders)

def Accepted.mac (a : Accepted) : List UInt8 :=
  crypto.integrity a.container.integrityAlgorithm ⟨a.container.integrityContext, a.count, 1, 1⟩ (a.octets.drop 6)

def rxAccepted (w : Watched) (b : Buffer) : Option Accepted :=
  match w.nas.securityContainer, nasSecurityRxProcess crypto w.nas b with
  | some container, .ok (.integrityPassed, _, _) =>
    some ⟨w.contextKamf, container, synchronise w.nas.security.nasCountDl (b.buf 6), b.octets, false⟩
  | _, _ => none

def commandAccepted (nas : NrUeNas) (b : Buffer) : Option Accepted :=
  match nas.newContainer crypto b with
  | .ok container =>
    if nasSecurityGetSecHdr b = some 3 ∧ (selectedAlgorithms b).2 ≠ 0 ∧
        nasSecurityGetMac b = some (nasSecurityComputeMac crypto container nas.security.nasCountDl b) then
      some ⟨nas.security.kamf, container, nas.security.nasCountDl, b.octets, true⟩
    else none
  | .error _ => none

def commandOf (nas : NrUeNas) (m : Received) : Option Accepted :=
  match dispatch crypto nas m with
  | .ok (some .securityModeCommand, nas, b) => commandAccepted crypto nas b
  | _ => none

def watch (w : Watched) (m : Received) : Except Fault Watched :=
  (nasNrue crypto decoders w.nas m).map fun nas =>
    { nas
      contextKamf := ((commandOf crypto w.nas m).map Accepted.kamf).getD w.contextKamf
      accepted := w.accepted ++ (rxAccepted crypto w m.buffer).toList ++ (commandOf crypto w.nas m).toList }

/-- A Security Mode Command is accepted only under a KAMF and a KNASint that no message was accepted under. While its
COUNT is the expected one, no message is accepted with the sequence number of that COUNT. -/
structure FreshKeys (w : Watched) (m : Received) : Prop where
  counted : (rxAccepted crypto w m.buffer).isSome → ∀ e, w.accepted.getLast? = some e → e.command = true →
    w.nas.security.nasCountDl = e.count → (m.buffer.buf 6).toNat ≠ e.count.toNat % 256
  keys : ∀ a, commandOf crypto w.nas m = some a → ∀ e ∈ w.accepted ++ (rxAccepted crypto w m.buffer).toList,
    e.kamf ≠ a.kamf ∧ e.knasInt ≠ a.knasInt

/-- No two of the messages share a message authentication code, unless key, COUNT and what is protected are the same. -/
def NoCollision (accepted : List Accepted) : Prop :=
  ∀ a ∈ accepted, ∀ e ∈ accepted, a.mac crypto = e.mac crypto →
    a.knasInt = e.knasInt ∧ a.count = e.count ∧ a.octets.drop 6 = e.octets.drop 6

/-- Of two accepted messages, the later one has a higher COUNT under the same KAMF, and under the same KNASint it is
another message. -/
def NoReplay (a e : Accepted) : Prop :=
  (a.kamf = e.kamf → a.count < e.count) ∧ (a.knasInt = e.knasInt → a.octets ≠ e.octets)

end OaiNr.Nas
