import OaiNr.Lib.Trace
import OaiNr.Nas.Lemmas.Authenticity

/-!
# Forged NAS messages
-/

namespace OaiNr.Nas

variable {crypto : Crypto} {decoders : Decoders} {nas : NrUeNas} {container : Container} {b : Buffer}

section Example

def contextNas : NrUeNas where
  fiveGmmState := .registered
  fiveGmmMode := .connected
  uicc := ⟨[50, 48, 56, 57, 57, 48, 48, 48, 48, 55, 52, 56, 55], [], [48, 48, 48, 48], 2, 0, 0, [], [], []⟩
  security := ⟨[], [], [], [], [], [], [], [], 0, 0⟩
  securityContainer := some ⟨.eia2, .eea0, [], []⟩
  guti := none
  isRrcInactive := false
  t3512 := 0
  t3448 := -1
  t3446 := -1
  ksi := some 0
  servingNetworkName := []

def downlink (octets : List UInt8) : Received := ⟨.downlinkDataInd, .ofOctets octets, fun _ => 0⟩

end Example

/-- Over every sequence of received messages: while a security context exists, the handlers that change the state are
reached by authentic messages and by those that are allowed unprotected, and no other message deletes or replaces the
context, exactly if no message comes with the header for a new context that is not authentic, and no plain reject with
cause 76 and another value in the octet behind it. -/
theorem nas_downlink_authenticated_iff (crypto : Crypto) (decoders : Decoders) (nas : NrUeNas) (ms : List Received) :
    Trace.Throughout (nasNrue crypto decoders) (Authenticated crypto decoders) nas ms ↔
      Trace.Throughout (nasNrue crypto decoders) (NoForgedContext crypto) nas ms :=
  Trace.throughout_congr (fun _ _ => authenticated_iff) nas ms

/-- Three octets delete the security context. -/
theorem nas_new_context_header_deletes_context :
    contextNas.securityContainer ≠ none ∧ ¬ Authentic Crypto.plain contextNas (downlink [0x7e, 3, 0]) ∧
      (nasNrue Crypto.plain Decoders.none contextNas (downlink [0x7e, 3, 0])).map NrUeNas.securityContainer = .ok none := by
  refine ⟨nofun, ?_, rfl⟩
  rintro (⟨container, -, hmac⟩ | ⟨-, htype, -⟩)
  · exact nomatch (show none = some _ from hmac)
  · exact absurd htype (by decide)

section Forged

end Forged

end OaiNr.Nas
