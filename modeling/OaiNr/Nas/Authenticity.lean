import OaiNr.Nas.Receive

/-!
# Authentic and forged NAS messages

What the security of the NAS layer means for a received message: when its message authentication code verifies, which
messages may come unprotected, and what a message may do to the security state.
-/

namespace OaiNr.Nas

variable (crypto : Crypto) (decoders : Decoders)

variable (nas : NrUeNas)

/-- The message authentication code verifies under the current context and the COUNT that is estimated. -/
def MacVerifies (b : Buffer) : Prop :=
  ∃ container, nas.securityContainer = some container ∧
    nasSecurityGetMac b =
      some (nasSecurityComputeMac crypto container (synchronise nas.security.nasCountDl (b.buf 6)) b)

/-- The COUNT that a Security Mode Command is checked with; a context that exists is deleted before. -/
def commandCount : UInt32 :=
  if nas.securityContainer.isSome then 0 else nas.security.nasCountDl

/-- A Security Mode Command whose message authentication code verifies under the key that it derives -/
def CommandVerifies (b : Buffer) : Prop :=
  getMsgType b = 0x5d ∧ nasSecurityGetSecHdr b = some 3 ∧ (selectedAlgorithms b).2 ≠ 0 ∧
    ∃ container, nas.newContainer crypto b = .ok container ∧
      nasSecurityGetMac b = some (nasSecurityComputeMac crypto container (commandCount nas) b)

def Authentic (m : Received) : Prop :=
  MacVerifies crypto nas m.buffer ∨ m.indication = .downlinkDataInd ∧ CommandVerifies crypto nas m.buffer

section Unprotected

/-- A plain message that TS 24.501 4.4.4.2 allows. The 5GMM cause of a reject stands behind the plain header. -/
def AllowedUnprotected (b : Buffer) : Prop :=
  b.buf 1 = 0 ∧
    (b.buf 2 ∈ [0x5b, 0x56, 0x5a, 0x58, 0x46] ∨ b.buf 2 ∈ [0x44, 0x4d] ∧ (b.len ≤ 3 ∨ b.buf 3 ≠ 76))

def Handler.ChangesState (handler : Handler) : Prop :=
  handler ≠ .identityRequest ∧ handler ≠ .pduSessionEstablishmentReject

/-- With a security context, a message that reaches a handler is authentic or allowed unprotected, and only an authentic
one changes the context. -/
def Authenticated (m : Received) : Prop :=
  nas.securityContainer ≠ none →
    (∀ handler nas₁ b₁, dispatch crypto nas m = .ok (some handler, nas₁, b₁) → handler.ChangesState →
      AllowedUnprotected m.buffer ∨ Authentic crypto nas m) ∧
    ∀ nas', nasNrue crypto decoders nas m = .ok nas' →
      nas'.securityContainer = nas.securityContainer ∨ Authentic crypto nas m

/-- With a security context, a message with the header for a new context is authentic, and a plain reject does not have
the cause that must be protected with another value at the octet that is checked. -/
def NoForgedContext (m : Received) : Prop :=
  nas.securityContainer ≠ none →
    (3 ≤ m.buffer.len → m.buffer.buf 1 = 3 → Authentic crypto nas m) ∧
    ¬ (m.indication = .downlinkDataInd ∧ 3 < m.buffer.len ∧ m.buffer.buf 1 = 0 ∧ m.buffer.buf 2 ∈ [0x44, 0x4d] ∧
      m.buffer.buf 3 = 76 ∧ m.buffer.buf 4 ≠ 76)

end Unprotected

section Forged

end Forged

end OaiNr.Nas
