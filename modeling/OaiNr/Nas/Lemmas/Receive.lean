import OaiNr.Lib.Fallible
import OaiNr.Nas.Receive
import Mathlib.Data.Nat.Bitwise

/-!
# What a received message does to the security state
-/

namespace OaiNr.Nas

variable {crypto : Crypto} {decoders : Decoders} {nas nas' : NrUeNas} {b : Buffer} {container : Container}

section Count

variable {count : UInt32} {s : UInt8}

theorem toNat_lowOctet (count : UInt32) : (count &&& 0xff).toNat = count.toNat % 256 := by
  rw [UInt32.toNat_and]
  exact Nat.and_two_pow_sub_one_eq_mod count.toNat 8

theorem toNat_clearOctet (count : UInt32) : (count &&& ~~~255).toNat = count.toNat / 256 * 256 := by
  have hmask : (~~~(255 : UInt32)).toNat = (2 ^ 24 - 1) <<< 8 := by decide
  have hclear : count.toNat / 256 * 256 = (count.toNat >>> 8) <<< 8 := by
    rw [Nat.shiftLeft_eq, Nat.shiftRight_eq_div_pow]
  rw [UInt32.toNat_and, hmask, hclear]
  refine Nat.eq_of_testBit_eq fun i => ?_
  rw [Nat.testBit_and, Nat.testBit_shiftLeft, Nat.testBit_shiftLeft, Nat.testBit_shiftRight,
    Nat.testBit_two_pow_sub_one]
  by_cases hi : 8 ≤ i
  · rw [Nat.add_sub_cancel' hi]
    by_cases h32 : i < 32
    · simp [hi, show i - 8 < 24 by omega]
    · have hlt : count.toNat < 2 ^ i :=
        Nat.lt_of_lt_of_le count.toNat_lt (Nat.pow_le_pow_right (by omega) (by omega))
      simp [Nat.testBit_lt_two_pow hlt]
  · simp [hi]

theorem toNat_replaceOctet (count : UInt32) (s : UInt8) :
    ((count &&& ~~~255) ||| s.toUInt32).toNat = count.toNat / 256 * 256 + s.toNat := by
  have h := Nat.two_pow_add_eq_or_of_lt (show s.toNat < 2 ^ 8 from s.toNat_lt) (count.toNat / 256)
  rw [UInt32.toNat_or, toNat_clearOctet, UInt8.toNat_toUInt32, Nat.mul_comm]
  exact h.symm

theorem toUInt32_eq_lowOctet : s.toUInt32 = count &&& 0xff ↔ s.toNat = count.toNat % 256 := by
  rw [← UInt32.toNat_inj, UInt8.toNat_toUInt32, toNat_lowOctet]

theorem toUInt32_lt_lowOctet : s.toUInt32 < count &&& 0xff ↔ s.toNat < count.toNat % 256 := by
  rw [UInt32.lt_iff_toNat_lt, UInt8.toNat_toUInt32, toNat_lowOctet]

theorem synchronise_eq_self : synchronise count s = count ↔ s.toNat = count.toNat % 256 := by
  rw [synchronise, ← toUInt32_eq_lowOctet]
  dsimp only
  split
  · next h => exact iff_of_true rfl h
  · next h =>
    refine iff_of_false (fun heq => h (toUInt32_eq_lowOctet.mpr ?_)) h
    have hlow := congrArg (fun c : UInt32 => c.toNat % 256) heq
    rw [toNat_replaceOctet, Nat.add_comm, Nat.add_mul_mod_self_right, Nat.mod_eq_of_lt s.toNat_lt] at hlow
    exact hlow

theorem toNat_synchronise (hcount : count.toNat ≤ 2 ^ 24) :
    (synchronise count s).toNat = count.toNat + (s.toNat + 256 - count.toNat % 256) % 256 := by
  have hs := s.toNat_lt
  rw [synchronise]
  dsimp only
  split
  · next h =>
    rw [toUInt32_eq_lowOctet] at h
    omega
  · next h =>
    rw [toUInt32_eq_lowOctet] at h
    rw [toNat_replaceOctet]
    split
    · next hlt =>
      rw [toUInt32_lt_lowOctet] at hlt
      rw [UInt32.toNat_add, show (256 : UInt32).toNat = 256 from rfl, Nat.mod_eq_of_lt (by omega)]
      omega
    · next hge =>
      rw [toUInt32_lt_lowOctet] at hge
      omega

theorem le_synchronise (hcount : count.toNat ≤ 2 ^ 24) : count.toNat ≤ (synchronise count s).toNat := by
  rw [toNat_synchronise hcount]
  exact Nat.le_add_right _ _

end Count

section RxProcess

theorem rxProcess_noContext (h : nas.securityContainer = none) :
    nasSecurityRxProcess crypto nas b = .ok (.noSecurityContext, nas, b) := by
  rw [nasSecurityRxProcess, h]

variable (hc : nas.securityContainer = some container)
include hc

theorem rxProcess_short (hlen : b.len < 3) : nasSecurityRxProcess crypto nas b = .ok (.badInput, nas, b) := by
  rw [nasSecurityRxProcess, hc]
  exact if_pos hlen

theorem rxProcess_plain (hlen : 3 ≤ b.len) (hplain : b.buf 1 = 0) : nasSecurityRxProcess crypto nas b =
      .ok (if unprotectedAllowed b (getMsgType b) then .unprotected else .badInput, nas, b) := by
  rw [nasSecurityRxProcess, hc]
  exact (if_neg (by omega)).trans (if_pos hplain)

theorem rxProcess_newContext (hlen : 3 ≤ b.len) (hnew : b.buf 1 = 3) :
    nasSecurityRxProcess crypto nas b = .ok (.noSecurityContext, nas.deleteContext.setCountDl 0, b) := by
  rw [nasSecurityRxProcess, hc]
  dsimp only
  rw [if_neg (by omega), if_neg (by rw [hnew]; decide), if_pos hnew]

theorem rxProcess_unhandled (hlen : 3 ≤ b.len) (hplain : b.buf 1 ≠ 0) (hnew : b.buf 1 ≠ 3)
    (htype : b.buf 1 = 1 ∨ b.buf 1 = 4) : nasSecurityRxProcess crypto nas b = .ok (.badInput, nas, b) := by
  rw [nasSecurityRxProcess, hc]
  dsimp only
  rw [if_neg (by omega), if_neg hplain, if_neg hnew, if_pos htype]

end RxProcess

def Checked (b : Buffer) : Prop := b.buf 1 ≠ 0 ∧ b.buf 1 ≠ 3 ∧ b.buf 1 ≠ 1 ∧ b.buf 1 ≠ 4

section Checked

variable (hc : nas.securityContainer = some container) (htype : Checked b)
include hc htype

theorem rxProcess_tooShort (hlen : b.len < 8) : nasSecurityRxProcess crypto nas b = .ok (.badInput, nas, b) := by
  obtain ⟨h0, h3, h1, h4⟩ := htype
  rw [nasSecurityRxProcess, hc]
  dsimp only
  by_cases h : b.len < 3
  · rw [if_pos h]
  · rw [if_neg h, if_neg h0, if_neg h3, if_neg (by simp [h1, h4]), if_pos hlen]

theorem rxProcess_checked (hlen : 8 ≤ b.len) : nasSecurityRxProcess crypto nas b =
      if 0xffffff < synchronise nas.security.nasCountDl (b.buf 6) then .error .exit else if b.slice 2 nasIntegritySize ≠
          nasSecurityComputeMac crypto container (synchronise nas.security.nasCountDl (b.buf 6)) b then
        .ok (.integrityFailed, nas.setCountDl (synchronise nas.security.nasCountDl (b.buf 6)), b) else
        .ok (.integrityPassed, nas.setCountDl (synchronise nas.security.nasCountDl (b.buf 6) + 1),
          nasSecurityDecryptPayload crypto container (synchronise nas.security.nasCountDl (b.buf 6)) b) := by
  obtain ⟨h0, h3, h1, h4⟩ := htype
  rw [nasSecurityRxProcess, hc]
  dsimp only
  rw [if_neg (by omega), if_neg h0, if_neg h3, if_neg (by simp [h1, h4]), if_neg (by omega)]

end Checked

theorem buffer_cases (b : Buffer) :
    b.len < 3 ∨ (3 ≤ b.len ∧ b.buf 1 = 0) ∨ (3 ≤ b.len ∧ b.buf 1 = 3) ∨
      (3 ≤ b.len ∧ b.buf 1 ≠ 0 ∧ b.buf 1 ≠ 3 ∧ (b.buf 1 = 1 ∨ b.buf 1 = 4)) ∨ (3 ≤ b.len ∧ Checked b) := by
  by_cases hlen : b.len < 3
  · exact .inl hlen
  have hlen : 3 ≤ b.len := by omega
  by_cases h0 : b.buf 1 = 0
  · exact .inr (.inl ⟨hlen, h0⟩)
  by_cases h3 : b.buf 1 = 3
  · exact .inr (.inr (.inl ⟨hlen, h3⟩))
  by_cases h14 : b.buf 1 = 1 ∨ b.buf 1 = 4
  · exact .inr (.inr (.inr (.inl ⟨hlen, h0, h3, h14⟩)))
  · rw [not_or] at h14
    exact .inr (.inr (.inr (.inr ⟨hlen, h0, h3, h14.1, h14.2⟩)))

section Task

variable {m : Received} {state : SecurityState}

theorem dispatch_of_rxProcess (h : nasSecurityRxProcess crypto nas m.buffer = .ok (state, nas', b)) :
    dispatch crypto nas m =
      .ok (if state.discards then none else (handlers m.indication).lookup (getMsgType b), nas', b) := by
  rw [dispatch, h]
  rfl

/-- A message that is not discarded goes to the handler of its type, if there is one. -/
theorem nasNrue_of_handedOn (decoders : Decoders) (hd : state.discards = false)
    (h : nasSecurityRxProcess crypto nas m.buffer = .ok (state, nas', b)) :
    dispatch crypto nas m = .ok ((handlers m.indication).lookup (getMsgType b), nas', b) ∧
      nasNrue crypto decoders nas m =
        ((handlers m.indication).lookup (getMsgType b)).elim (.ok nas') (handle crypto decoders m.mem · nas' b) := by
  have hdispatch := dispatch_of_rxProcess h
  rw [hd, if_neg Bool.false_ne_true] at hdispatch
  refine ⟨hdispatch, ?_⟩
  rw [nasNrue, hdispatch, ok_bind]
  cases (handlers m.indication).lookup (getMsgType b) <;> rfl

theorem nasNrue_of_discards (h : nasSecurityRxProcess crypto nas m.buffer = .ok (state, nas', b))
    (hd : state.discards = true) : nasNrue crypto decoders nas m = .ok nas' := by
  rw [nasNrue, dispatch_of_rxProcess h, if_pos hd, ok_bind]

end Task

section Generators

variable {mem : Nat → UInt8} {octets octets' : List UInt8}

theorem protect_ok (h : nas.protect crypto octets = .ok (nas', octets')) : nas' = nas.countedUl := by
  rw [NrUeNas.protect] at h
  split at h
  · cases h
  · split at h <;> cases h
    rfl

theorem rejectSecurityMode_noContext (h : nas.securityContainer = none) : rejectSecurityMode nas mem = .ok nas := by
  rw [rejectSecurityMode, generateSecurityModeReject, h]
  rfl

theorem rejectSecurityMode_context (h : nas.securityContainer = some container) :
    rejectSecurityMode nas mem = .error .nullPointer := by
  rw [rejectSecurityMode, generateSecurityModeReject, h]
  rfl

theorem rejectSecurityMode_ok (h : rejectSecurityMode nas mem = .ok nas') : nas' = nas := by
  cases hc : nas.securityContainer with
  | none =>
    rw [rejectSecurityMode_noContext hc] at h
    cases h
    rfl
  | some container =>
    rw [rejectSecurityMode_context hc] at h
    cases h

theorem generateRegistrationRequest_securityMode {rr : Option (List UInt8)}
    (h : generateRegistrationRequest crypto nas mem true = .ok (nas', rr)) : nas' = nas := by
  rw [generateRegistrationRequest] at h
  split at h
  · cases h
    rfl
  · obtain ⟨⟨cleartext, identity⟩, -, h⟩ := bind_eq_ok.mp h
    dsimp only at h
    obtain ⟨⟨full, fullIdentity⟩, -, h⟩ := bind_eq_ok.mp h
    dsimp only at h
    rw [if_pos rfl] at h
    obtain ⟨encoded, -, h⟩ := bind_eq_ok.mp h
    obtain ⟨octets, -, h⟩ := bind_eq_ok.mp h
    cases h
    rfl

theorem generateSecurityModeComplete_ok (h : generateSecurityModeComplete crypto nas mem = .ok (nas', octets)) :
    nas' = nas.countedUl := by
  rw [generateSecurityModeComplete] at h
  obtain ⟨⟨nas₁, rr⟩, hrr, hrest⟩ := bind_eq_ok.mp h
  obtain rfl := generateRegistrationRequest_securityMode hrr
  dsimp only at hrest
  split at hrest
  · cases hrest
  · obtain ⟨encoded, -, hprotect⟩ := bind_eq_ok.mp hrest
    exact protect_ok hprotect

theorem generateRegistrationComplete_ok (h : generateRegistrationComplete crypto nas = .ok (nas', octets)) :
    nas' = { nas.countedUl with fiveGmmState := .registered } := by
  rw [generateRegistrationComplete] at h
  obtain ⟨⟨nas₁, octets₁⟩, hprotect, h⟩ := bind_eq_ok.mp h
  obtain rfl := protect_ok hprotect
  cases h
  rfl

end Generators

section Handlers

variable {mem : Nat → UInt8} {handler : Handler}

theorem handle_keeps (h : handle crypto decoders mem handler nas b = .ok nas') (hne : handler ≠ .securityModeCommand) :
    nas'.securityContainer = nas.securityContainer ∧ nas'.security.nasCountDl = nas.security.nasCountDl := by
  cases handler with
  | securityModeCommand => exact absurd rfl hne
  | authenticationRequest =>
    cases h
    rw [handleFgmmAuthenticationRequest]
    generalize b.buf (if b.len < 3 then 255 else 3) &&& 7 = ksi
    split
    · exact ⟨rfl, rfl⟩
    · split <;> exact ⟨rfl, rfl⟩
  | registrationAccept =>
    obtain ⟨decoded, -, h⟩ := bind_eq_ok.mp h
    cases decoded with
    | none =>
      cases h
      exact ⟨rfl, rfl⟩
    | some guti =>
      obtain ⟨⟨nas₁, octets⟩, hcomplete, rfl⟩ := map_eq_ok.mp h
      rw [generateRegistrationComplete_ok hcomplete]
      exact ⟨rfl, rfl⟩
  | authenticationReject =>
    obtain ⟨decoded, -, rfl⟩ := map_eq_ok.mp h
    cases decoded <;> exact ⟨rfl, rfl⟩
  | downlinkNasTransport =>
    rw [handle, handleDownlinkNasTransport] at h
    split at h
    · cases h
      exact ⟨rfl, rfl⟩
    · split at h
      · obtain ⟨-, -, rfl⟩ := map_eq_ok.mp h
        exact ⟨rfl, rfl⟩
      · cases h
        exact ⟨rfl, rfl⟩
  | registrationReject =>
    rw [handle, handleRegistrationReject] at h
    split at h
    · cases h
      exact ⟨rfl, rfl⟩
    · split at h <;> cases h
      exact ⟨rfl, rfl⟩
  | pduSessionEstablishmentAccept =>
    obtain ⟨-, -, rfl⟩ := map_eq_ok.mp h
    exact ⟨rfl, rfl⟩
  | serviceAccept =>
    obtain ⟨t3448, -, rfl⟩ := map_eq_ok.mp h
    exact ⟨rfl, rfl⟩
  | serviceReject =>
    obtain ⟨timers, -, rfl⟩ := map_eq_ok.mp h
    exact ⟨rfl, rfl⟩
  | identityRequest | deregistrationAccept | pduSessionEstablishmentReject =>
    cases h
    exact ⟨rfl, rfl⟩

end Handlers

end OaiNr.Nas
