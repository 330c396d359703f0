import OaiNr.Nas.Lemmas.Generators
import OaiNr.Nas.Theorems.Authenticity

/-!
# Protected uplink messages
-/

namespace OaiNr.Nas

variable {crypto : Crypto} {nas nas' : NrUeNas} {container : Container} {p : Procedure} {octets : List UInt8}
  {message : Option (List UInt8)} {mem : Nat → UInt8}

section Context

def Keeps (nas nas' : NrUeNas) (message : Option (List UInt8)) : Prop :=
  nas'.securityContainer = nas.securityContainer ∧
    (message = none → nas'.security.nasCountUl = nas.security.nasCountUl)

theorem Keeps.sent (h : nas'.securityContainer = nas.securityContainer) : Keeps nas nas' (some octets) :=
  ⟨h, fun hnone => absurd hnone (Option.some_ne_none _)⟩

theorem generateRegistrationRequest_keeps (h : generateRegistrationRequest crypto nas mem false = .ok (nas', message)) :
    Keeps nas nas' message := by
  rw [generateRegistrationRequest] at h
  split at h
  · cases h
    exact ⟨rfl, fun _ => rfl⟩
  · obtain ⟨⟨cleartext, identity⟩, -, h₁⟩ := bind_eq_ok.mp h
    obtain ⟨⟨full, identity'⟩, -, h₂⟩ := bind_eq_ok.mp h₁
    dsimp only at h₂
    rw [if_neg Bool.false_ne_true] at h₂
    split at h₂
    · obtain ⟨encoded, -, h₃⟩ := bind_eq_ok.mp h₂
      obtain ⟨octets, -, h₄⟩ := bind_eq_ok.mp h₃
      cases h₄
      exact .sent rfl
    · obtain ⟨encoded, -, h₃⟩ := bind_eq_ok.mp h₂
      obtain ⟨contents, -, h₄⟩ := bind_eq_ok.mp h₃
      obtain ⟨octets, -, h₅⟩ := bind_eq_ok.mp h₄
      split at h₅ <;> cases h₅
      exact .sent rfl

theorem generateServiceRequest_keeps (h : generateServiceRequest crypto nas mem = .ok (nas', octets)) :
    nas'.securityContainer = nas.securityContainer := by
  rw [generateServiceRequest] at h
  split at h
  · cases h
  · dsimp only at h
    split at h
    · obtain ⟨encoded, -, h₁⟩ := bind_eq_ok.mp h
      obtain ⟨octets, -, h₂⟩ := bind_eq_ok.mp h₁
      cases h₂
      rfl
    · split at h
      · obtain ⟨inner, -, h₁⟩ := bind_eq_ok.mp h
        split at h₁
        · cases h₁
        · split at h₁
          · cases h₁
          · rw [ok_bind] at h₁
            obtain ⟨encoded, -, h₂⟩ := bind_eq_ok.mp h₁
            obtain rfl := congrArg Prod.fst (Except.ok.inj h₂)
            rfl
      · rw [ok_bind] at h
        obtain ⟨encoded, -, h₁⟩ := bind_eq_ok.mp h
        obtain rfl := congrArg Prod.fst (Except.ok.inj h₁)
        rfl

theorem generateDeregistrationRequest_keeps (h : generateDeregistrationRequest crypto nas = .ok (nas', octets)) :
    nas'.securityContainer = nas.securityContainer := by
  rw [generateDeregistrationRequest] at h
  split at h
  · cases h
  · obtain ⟨encoded, -, h₁⟩ := bind_eq_ok.mp h
    obtain ⟨⟨nas₁, octets₁⟩, hprotect, h₂⟩ := bind_eq_ok.mp h₁
    cases h₂
    rw [protect_ok hprotect]
    rfl

theorem generatePduSessionEstablishRequest_keeps {req : PduSessionReq}
    (h : generatePduSessionEstablishRequest crypto nas mem req = .ok (nas', octets)) :
    nas'.securityContainer = nas.securityContainer := by
  rw [generatePduSessionEstablishRequest] at h
  obtain ⟨encoded, -, hprotect⟩ := bind_eq_ok.mp h
  rw [protect_ok hprotect]
  rfl

theorem generate_keeps (h : generate crypto nas p = .ok (nas', message)) : Keeps nas nas' message := by
  cases p with
  | registrationRequest mem => exact generateRegistrationRequest_keeps h
  | serviceRequest mem =>
    obtain ⟨⟨nas₁, octets⟩, hok, hmap⟩ := map_eq_ok.mp h
    cases hmap
    exact .sent (generateServiceRequest_keeps hok)
  | securityModeComplete mem =>
    obtain ⟨⟨nas₁, octets⟩, hok, hmap⟩ := map_eq_ok.mp h
    cases hmap
    rw [generateSecurityModeComplete_ok hok]
    exact .sent rfl
  | securityModeReject mem cause =>
    obtain ⟨⟨nas₁, octets⟩, hok, hmap⟩ := map_eq_ok.mp h
    cases hmap
    rw [generateSecurityModeReject] at hok
    split at hok
    · cases hok
    · cases hok
      exact .sent rfl
  | registrationComplete =>
    obtain ⟨⟨nas₁, octets⟩, hok, hmap⟩ := map_eq_ok.mp h
    cases hmap
    rw [generateRegistrationComplete_ok hok]
    exact .sent rfl
  | deregistrationRequest =>
    obtain ⟨⟨nas₁, octets⟩, hok, hmap⟩ := map_eq_ok.mp h
    cases hmap
    exact .sent (generateDeregistrationRequest_keeps hok)
  | pduSessionEstablishRequest mem req =>
    rw [generate] at h
    obtain ⟨⟨nas₁, octets⟩, hok, hmap⟩ := map_eq_ok.mp h
    cases hmap
    exact .sent (generatePduSessionEstablishRequest_keeps hok)
  | received nas₁ =>
    cases h
    exact ⟨rfl, fun _ => rfl⟩

theorem proceed_securityContainer (h : proceed crypto nas p = .ok nas') :
    nas'.securityContainer = nas.securityContainer := by
  obtain ⟨⟨nas₁, message⟩, hok, rfl⟩ := map_eq_ok.mp h
  exact (generate_keeps hok).1

end Context

section Counts

theorem counts_increase (hc : nas.securityContainer = some container) (ps : List Procedure)
    (h : Trace.Throughout (proceed crypto) (Protects crypto) nas ps) :
    (∀ count ∈ counts crypto nas ps, nas.security.nasCountUl.toNat ≤ count.toNat) ∧
      (counts crypto nas ps).Pairwise fun a b => a.toNat < b.toNat := by
  induction ps generalizing nas with
  | nil => exact ⟨nofun, .nil⟩
  | cons p ps ih =>
    obtain ⟨hp, hrest⟩ := h
    cases hgenerate : generate crypto nas p with
    | error fault =>
      rw [counts, hgenerate]
      exact ⟨nofun, .nil⟩
    | ok result =>
      obtain ⟨nas', message⟩ := result
      have hkeeps := generate_keeps hgenerate
      have hproceed : proceed crypto nas p = .ok nas' := by
        rw [proceed, hgenerate]
        rfl
      obtain ⟨hle, hpairwise⟩ := ih (hkeeps.1.trans hc) (hrest nas' hproceed)
      rw [counts, hgenerate]
      cases message with
      | none =>
        rw [hkeeps.2 rfl] at hle
        exact ⟨hle, hpairwise⟩
      | some octets =>
        have hcount := ((hp container hc).2 nas' octets hgenerate).1
        have hlt : ∀ count ∈ counts crypto nas' ps, nas.security.nasCountUl.toNat < count.toNat := by
          intro count hmem
          have := hle count hmem
          omega
        refine ⟨fun count hmem => ?_, List.pairwise_cons.mpr ⟨hlt, hpairwise⟩⟩
        rcases List.mem_cons.mp hmem with rfl | hmem
        · exact Nat.le_refl _
        · exact Nat.le_of_lt (hlt count hmem)

end Counts

/-- Over every sequence of procedures from a state with a security context: every message is built without misuse of
memory, carries the sequence number of the COUNT that its message authentication code is computed with, gives the
receiver the plain message, and no two have the same COUNT, exactly if the sequence has no Security Mode Reject, a
Registration Request only where none is made, a Service Request only with a PDU session configured, and a Security Mode
Complete only with a Registration Request to put into it. -/
theorem nas_uplink_messages_protected_iff (crypto : Crypto) (nas : NrUeNas) (hc : nas.securityContainer ≠ none)
    (ps : List Procedure) :
    UplinkProtected crypto nas ps ↔ Trace.Throughout (proceed crypto) (Protectable) nas ps := by
  have hiff : Trace.Throughout (proceed crypto) (Protects crypto) nas ps ↔
      Trace.Throughout (proceed crypto) (Protectable) nas ps := by
    refine Trace.throughout_iff (fun nas => nas.securityContainer ≠ none) (fun nas p hc => ?_)
      (fun nas p nas' hc hstep => ?_) hc ps
    · obtain ⟨container, hc⟩ := Option.ne_none_iff_exists'.mp hc
      exact protects_iff hc p
    · rw [proceed_securityContainer hstep]
      exact hc
  refine ⟨fun h => hiff.mp h.1, fun h => ⟨hiff.mpr h, ?_⟩⟩
  obtain ⟨container, hc⟩ := Option.ne_none_iff_exists'.mp hc
  refine (counts_increase hc ps (hiff.mpr h)).2.imp fun hlt heq => ?_
  rw [heq] at hlt
  exact Nat.lt_irrefl _ hlt

/-- A registration: the Security Mode Complete, what the Registration Accept changes, the Registration Complete and the
request of a PDU session -/
theorem nas_registration_messages_protected : contextNas.securityContainer ≠ none ∧
      UplinkProtected Crypto.plain { contextNas with fiveGmmState := .deregistered }
        [.securityModeComplete fun _ => 0, .received { contextNas with t3512 := 10 }, .registrationComplete,
          .pduSessionEstablishRequest (fun _ => 0) ⟨1, 1, 1, 0xffffff, [], Nat.zero_le _⟩] := by
  refine ⟨nofun, (nas_uplink_messages_protected_iff _ _ (by decide) _).mpr ?_⟩
  have hreadable : contextNas.uicc.Readable := by decide
  have hdigits : contextNas.uicc.msin.length ≤ 127 := by decide
  refine ⟨⟨nofun, fun _ => ⟨hreadable, fun _ => hdigits, nofun⟩⟩, fun _ _ => ?_⟩
  exact ⟨trivial, fun _ _ => ⟨trivial, fun _ _ => ⟨trivial, fun _ _ => trivial⟩⟩⟩

/-- With a security context a Security Mode Reject is written through a null pointer. -/
theorem nas_security_mode_reject_null_pointer : contextNas.securityContainer ≠ none ∧
      generate Crypto.plain contextNas (.securityModeReject (fun _ => 0) 0x18) = .error .nullPointer ∧
      ¬ UplinkProtected Crypto.plain contextNas [.securityModeReject (fun _ => 0) 0x18] := by
  have hc : contextNas.securityContainer = some ⟨.eia2, .eea0, [], []⟩ := rfl
  have h : generate Crypto.plain contextNas (.securityModeReject (fun _ => 0) 0x18) = .error .nullPointer := rfl
  exact ⟨nofun, h, fun hprotected => not_protects_of_error hc h (by decide) hprotected.1.1⟩

/-! ## The security header -/

theorem and_low_eq_iff (x : UInt8) : x &&& 0xf = x ↔ x < 16 := by
  rw [← UInt8.toNat_inj, UInt8.toNat_and, UInt8.lt_iff_toNat_lt]
  exact (Nat.and_two_pow_sub_one_eq_mod x.toNat 4).symm ▸ Nat.mod_eq_iff_lt (by decide)

theorem SecurityHeader.decode_encode (h : SecurityHeader) {length : Int} (hlen : 7 ≤ length % 2 ^ 64)
    (tail : List UInt8) : ∃ octets, h.nasProtectedSecurityHeaderEncode length = some octets ∧ octets.length = 7 ∧
      decode5gsSecurityProtectedHeader (octets ++ tail) = some (7, { h with
        securityHeaderType := h.securityHeaderType &&& 0xf
        sequenceNumber := UInt8.ofNat (h.messageAuthenticationCode.toNat / 2 ^ 24) }) := by
  have hv := h.messageAuthenticationCode.toNat_lt
  refine ⟨_, if_neg (by omega), rfl, ?_⟩
  simp only [be32, decode5gsSecurityProtectedHeader, List.cons_append, List.nil_append]
  congr
  rw [← UInt32.toNat_inj]
  simp
  omega

/-- The header is read back if its type has four bits and its sequence number is the first octet of the code. -/
theorem securityHeader_roundTrip_iff (h : SecurityHeader) (length : Int) (tail : List UInt8) :
    (∃ octets, h.nasProtectedSecurityHeaderEncode length = some octets ∧
      decode5gsSecurityProtectedHeader (octets ++ tail) = some (octets.length, h)) ↔
      7 ≤ length % 2 ^ 64 ∧ h.securityHeaderType < 16 ∧
        h.sequenceNumber = UInt8.ofNat (h.messageAuthenticationCode.toNat / 2 ^ 24) := by
  by_cases hlen : 7 ≤ length % 2 ^ 64
  · obtain ⟨octets, hencode, hseven, hdecode⟩ := h.decode_encode hlen tail
    obtain ⟨pd, sht, mac, sqn⟩ := h
    simp [hencode, hdecode, hseven, ← and_low_eq_iff, eq_comm (a := sqn)]
    exact fun _ _ => hlen
  · refine iff_of_false (fun ⟨octets, hencode, _⟩ => ?_) fun h => hlen h.1
    cases (if_pos (not_le.mp hlen)).symm.trans hencode

/-- Sequence number 1 is read back as 0, the first octet of the code. -/
theorem securityHeader_sequenceNumber_lost :
    ((⟨0x7e, 2, 0, 1⟩ : SecurityHeader).nasProtectedSecurityHeaderEncode 7).bind decode5gsSecurityProtectedHeader =
      some (7, ⟨0x7e, 2, 0, 0⟩) := by
  decide

end OaiNr.Nas
