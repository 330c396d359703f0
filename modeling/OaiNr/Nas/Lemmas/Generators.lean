import OaiNr.Nas.Lemmas.Uplink

/-!
# When the messages of the generators are protected
-/

namespace OaiNr.Nas

variable {crypto : Crypto} {nas nas' : NrUeNas} {container : Container} {count : UInt32} {p : Procedure}
  {payload clear full octets : List UInt8} {mem : Nat → UInt8} (hc : nas.securityContainer = some container)

section Receiver

variable {headerType : UInt8}

structure Carries (crypto : Crypto) (container : Container) (count : UInt32) (headerType : UInt8)
    (payload octets : List UInt8) : Prop where
  header : octets[1]? = some (headerType &&& 0xf)
  sequenceNumber : octets[6]? = some (sqn count)
  mac : (octets.drop 2).take nasIntegritySize =
    crypto.integrity container.integrityAlgorithm ⟨container.integrityContext, count, 1, 0⟩ (octets.drop 6)
  payload : octets.drop 7 = payload

theorem eq_four_of_length {l : List UInt8} (h : l.length = nasIntegritySize) : ∃ a b c d, l = [a, b, c, d] := by
  match l, h with
  | [a, b, c, d], _ => exact ⟨a, b, c, d, rfl⟩

theorem carries_integrityProtect : Carries crypto container count headerType payload
      (integrityProtect crypto container count
        (nasProtectedSecurityHeaderEncode headerType (sqn count) ++ payload)) := by
  have hprotect : integrityProtect crypto container count
      (nasProtectedSecurityHeaderEncode headerType (sqn count) ++ payload) =
      [0x7e, headerType &&& 0xf] ++ crypto.integrity container.integrityAlgorithm
        ⟨container.integrityContext, count, 1, 0⟩ (sqn count :: payload) ++ sqn count :: payload := rfl
  obtain ⟨a, b, c, d, hmac⟩ := eq_four_of_length
    (crypto.length_integrity container.integrityAlgorithm ⟨container.integrityContext, count, 1, 0⟩
      (sqn count :: payload))
  rw [hmac] at hprotect
  rw [hprotect]
  exact ⟨rfl, rfl, hmac.symm, rfl⟩

theorem wellProtected_of_ciphered (htype : headerType &&& 0xf ≠ 1) :
    WellProtected crypto container count payload payload (integrityProtect crypto container count
        (cipherPayload crypto container count
          (nasProtectedSecurityHeaderEncode headerType (sqn count) ++ payload))) := by
  have hcipher : cipherPayload crypto container count
      (nasProtectedSecurityHeaderEncode headerType (sqn count) ++ payload) =
      nasProtectedSecurityHeaderEncode headerType (sqn count) ++ crypto.encrypt container.cipheringAlgorithm
        ⟨container.cipheringContext, count, 1, 0⟩ payload := rfl
  rw [hcipher]
  obtain ⟨hheader, hsqn, hmac, hpayload⟩ := carries_integrityProtect
  refine ⟨hsqn, hmac, ?_⟩
  rw [Recovers, hheader, if_neg (fun h => htype (Option.some.inj h)), hpayload]
  exact crypto.encrypt_encrypt _ _ _

theorem wellProtected_of_container (hne : clear ≠ full) {contents : List UInt8}
    (hcontents : contents = crypto.encrypt container.cipheringAlgorithm ⟨container.cipheringContext, count, 1, 0⟩ full) :
    WellProtected crypto container count clear full
      (integrityProtect crypto container count (nasProtectedSecurityHeaderEncode 1 (sqn count) ++
        (clear ++ ([0x71] ++ be16 contents.length ++ contents)))) := by
  obtain ⟨hheader, hsqn, hmac, hpayload⟩ := carries_integrityProtect
  refine ⟨hsqn, hmac, ?_⟩
  rw [Recovers, hheader, if_pos (by decide), if_neg hne, hpayload]
  refine ⟨contents, by simp only [List.append_assoc], ?_⟩
  rw [hcontents]
  exact crypto.encrypt_encrypt _ _ _

theorem not_recovers_of_length (hlength : payload.length ≤ clear.length) (hfull : payload.length < full.length) :
    ¬ Recovers crypto container count clear full
      (integrityProtect crypto container count (nasProtectedSecurityHeaderEncode 1 (sqn count) ++ payload)) := by
  obtain ⟨hheader, -, -, hpayload⟩ := carries_integrityProtect
  rw [Recovers, hheader, if_pos (by decide), hpayload]
  split
  · intro h
    rw [h] at hfull
    exact Nat.lt_irrefl _ hfull
  · rintro ⟨contents, h, -⟩
    rw [h] at hlength
    simp only [List.length_append, List.length_cons] at hlength
    omega

end Receiver

section Outcomes

theorem protects_of_assert (h : generate crypto nas p = .error .assertFatal) : Protects crypto nas p := by
  intro container _
  refine ⟨fun fault hfault => ?_, fun nas' octets hok => ?_⟩
  · rw [h] at hfault
    exact (Except.error.inj hfault).symm
  · rw [h] at hok
    cases hok

theorem not_protects_of_error {fault : Fault} (hc : nas.securityContainer = some container)
    (h : generate crypto nas p = .error fault) (hne : fault ≠ .assertFatal) : ¬ Protects crypto nas p :=
  fun hp => hne ((hp container hc).1 fault h)

theorem protects_of_nothing (h : generate crypto nas p = .ok (nas', none)) : Protects crypto nas p := by
  intro container _
  refine ⟨fun fault hfault => ?_, fun nas' octets hok => ?_⟩
  · rw [h] at hfault
    cases hfault
  · rw [h] at hok
    cases hok

theorem protects_of_message (hc : nas.securityContainer = some container)
    (h : generate crypto nas p = .ok (nas', some octets))
    (hcount : nas'.security.nasCountUl.toNat = nas.security.nasCountUl.toNat + 1)
    (hintends : Intends crypto nas p clear full)
    (hwell : WellProtected crypto container nas.security.nasCountUl clear full octets) : Protects crypto nas p := by
  intro container' hc'
  cases hc.symm.trans hc'
  refine ⟨fun fault hfault => ?_, fun nas'' octets' hok => ?_⟩
  · rw [h] at hfault
    cases hfault
  · rw [h] at hok
    cases hok
    exact ⟨hcount, clear, full, hintends, hwell⟩

theorem toNat_add_one (h : ¬ 0xffffff < count) : (count + 1).toNat = count.toNat + 1 := by
  have hle : count.toNat ≤ 0xffffff := UInt32.not_lt.mp h
  rw [UInt32.toNat_add, Nat.mod_eq_of_lt]
  · rfl
  · exact Nat.lt_of_le_of_lt (Nat.add_le_add_right hle 1) (by decide)

theorem protects_of_protect (headerType : UInt8) (finish : NrUeNas → NrUeNas)
    (hc : nas.securityContainer = some container) (hintends : Intends crypto nas p payload payload)
    (h : generate crypto nas p =
      (nas.protect crypto (nasProtectedSecurityHeaderEncode headerType (sqn nas.security.nasCountUl) ++ payload)).map
        fun r => (finish r.1, some r.2))
    (htype : headerType &&& 0xf ≠ 1) (hfinish : ∀ nas, (finish nas).security = nas.security) :
    Protects crypto nas p := by
  rw [NrUeNas.protect, hc] at h
  dsimp only at h
  split at h
  · exact protects_of_assert h
  · rename_i hcount
    refine protects_of_message hc h ?_ hintends (wellProtected_of_ciphered htype)
    rw [hfinish]
    exact toNat_add_one hcount

end Outcomes

section Ciphered

include hc

theorem protects_registrationComplete :
    Protects crypto nas .registrationComplete := by
  have h : generate crypto nas .registrationComplete = (nas.protect crypto
        (nasProtectedSecurityHeaderEncode 2 (sqn nas.security.nasCountUl) ++ nasMmMsgEncodeHeader 0 0x43)).map
        fun r => ({ r.1 with fiveGmmState := .registered }, some r.2) := by
    rw [generate, generateRegistrationComplete]
    dsimp only
    cases nas.protect crypto _ <;> rfl
  exact protects_of_protect 2 (fun nas => { nas with fiveGmmState := .registered }) hc .registrationComplete h
    (by decide) fun _ => rfl

theorem protects_deregistrationRequest :
    Protects crypto nas .deregistrationRequest := by
  cases hguti : nas.guti with
  | none =>
    refine protects_of_assert ?_
    rw [generate, generateDeregistrationRequest, hguti]
    rfl
  | some guti =>
    have hwrites : Writes (mmMsgEncode (.deregistrationRequest guti) fun _ => 0) 7
        (nasMmMsgEncodeHeader 4 0x45 ++ ([0x10] ++ (be16 11 ++ encodeGuti5gsMobileIdentity guti))) :=
      writes_mmMsgEncode (writes_deregistrationRequest guti)
    have hintends : Intends crypto nas .deregistrationRequest _ _ :=
      .deregistrationRequest hguti (hwrites.plainOctets (by decide))
    have h : generate crypto nas .deregistrationRequest =
        (nas.protect crypto (nasProtectedSecurityHeaderEncode 2 (sqn nas.security.nasCountUl) ++
          (nasMmMsgEncodeHeader 4 0x45 ++ ([0x10] ++ (be16 11 ++ encodeGuti5gsMobileIdentity guti))))).map
          fun r => ({ r.1 with fiveGmmState := .deregisteredInitiated }, some r.2) := by
      rw [generate, generateDeregistrationRequest, hguti]
      dsimp only [gutiSize]
      have hencode : encodeProtected 2 nas.security.nasCountUl (.deregistrationRequest guti) (fun _ => 0) 24 = .ok _ :=
        Writes.encodeProtected hwrites (by decide) (Nat.le_refl _) (by decide)
      rw [hencode, ok_bind]
      cases nas.protect crypto _ <;> rfl
    exact protects_of_protect 2 (fun nas => { nas with fiveGmmState := .deregisteredInitiated }) hc hintends h
      (by decide) fun _ => rfl

omit hc

theorem length_snssai (req : PduSessionReq) : req.snssai.length ≤ 4 := by
  rw [PduSessionReq.snssai]
  split
  · exact Nat.le_refl 4
  · exact Nat.le_add_left 1 3

theorem protects_pduSessionEstablishRequest (hc : nas.securityContainer = some container) (req : PduSessionReq) :
    Protects crypto nas (.pduSessionEstablishRequest mem req) := by
  have hwrites (mem : Nat → UInt8) : Writes (mmMsgEncode (.uplinkNasTransport req) mem) 13
      (nasMmMsgEncodeHeader 0 0x67 ++ transportOctets req) :=
    writes_mmMsgEncode (writes_uplinkNasTransport req)
  have hintends : Intends crypto nas (.pduSessionEstablishRequest mem req) _ _ :=
    .pduSessionEstablishRequest ((hwrites mem).plainOctets (by decide))
  have hlength : (nasMmMsgEncodeHeader 0 0x67 ++ transportOctets req).length =
      3 + (18 + req.snssai.length + req.dnn.length) := by
    rw [List.length_append, length_transportOctets]
    rfl
  have hsnssai := length_snssai req
  have hdnn := req.dnn_le
  have h : generate crypto nas (.pduSessionEstablishRequest mem req) =
      (nas.protect crypto (nasProtectedSecurityHeaderEncode 2 (sqn nas.security.nasCountUl) ++
        (nasMmMsgEncodeHeader 0 0x67 ++ transportOctets req))).map fun r => (r.1, some r.2) := by
    rw [generate, generatePduSessionEstablishRequest]
    rw [(hwrites _).encodeProtected (by omega) (by omega) (by omega), ok_bind]
    rfl
  exact protects_of_protect 2 id hc hintends h (by decide) fun _ => rfl

end Ciphered

section ServiceRequest

def clearRequest (nas : NrUeNas) (guti : Guti) : ServiceRequest := ⟨setFgsKsi nas, fillFgstmsi guti, none, none⟩

variable {guti : Guti}

theorem protects_serviceRequest_noGuti (hguti : nas.guti = none) : Protects crypto nas (.serviceRequest mem) := by
  refine protects_of_assert ?_
  rw [generate, generateServiceRequest, hguti]
  rfl

def clearOctets (nas : NrUeNas) (guti : Guti) : List UInt8 :=
  nasMmMsgEncodeHeader 0 0x4c ++ serviceOctets (clearRequest nas guti)

def fullOctets (nas : NrUeNas) (guti : Guti) : List UInt8 :=
  clearOctets nas guti ++ statusOctets (pduSessionStatus nas.uicc)

theorem writes_clearRequest :
    Writes (mmMsgEncode (.serviceRequest (clearRequest nas guti)) mem) 15 (clearOctets nas guti) :=
  writes_mmMsgEncode (writes_serviceRequest rfl rfl)

theorem writes_fullRequest :
    Writes (mmMsgEncode (.serviceRequest { clearRequest nas guti with
      pduSessionStatus := some (pduSessionStatus nas.uicc) }) mem) 17 (fullOctets nas guti) :=
  writes_mmMsgEncode (writes_serviceRequest_status rfl rfl)

theorem length_fullOctets : (fullOctets nas guti).length = 17 := rfl

def cipheredOctets (crypto : Crypto) (container : Container) (nas : NrUeNas) (guti : Guti) : List UInt8 :=
  crypto.encrypt container.cipheringAlgorithm ⟨container.cipheringContext, nas.security.nasCountUl, 1, 0⟩
    (fullOctets nas guti)

theorem length_cipheredOctets : (cipheredOctets crypto container nas guti).length = 17 := crypto.length_encrypt _ _ _

def containerRequest (crypto : Crypto) (container : Container) (nas : NrUeNas) (guti : Guti) : ServiceRequest :=
  ⟨setFgsKsi nas, fillFgstmsi guti, none, some (cipheredOctets crypto container nas guti)⟩

def containerOctets (crypto : Crypto) (container : Container) (nas : NrUeNas) (guti : Guti) : List UInt8 :=
  clearOctets nas guti ++ ([0x71] ++ be16 (cipheredOctets crypto container nas guti).length ++
    cipheredOctets crypto container nas guti)

theorem length_containerOctets : (containerOctets crypto container nas guti).length = 33 := by
  simp only [containerOctets, List.length_append, show (clearOctets nas guti).length = 13 from rfl,
    length_cipheredOctets, length_be16,
    List.length_cons, List.length_nil]

theorem writes_containerRequest :
    Writes (mmMsgEncode (.serviceRequest (containerRequest crypto container nas guti)) mem) 33
      (containerOctets crypto container nas guti) := by
  have hlength : (cipheredOctets crypto container nas guti).length = 17 := length_cipheredOctets
  have hne : cipheredOctets crypto container nas guti ≠ [] := List.ne_nil_of_length_eq_add_one hlength
  have hbody := @writes_serviceRequest_container (containerRequest crypto container nas guti) _ hne rfl rfl
  have hwrites := @writes_mmMsgEncode _ _ mem (.serviceRequest (containerRequest crypto container nas guti)) hbody
  rw [containerOctets, clearOctets, List.append_assoc]
  exact hwrites.mono (by omega)

include hc

theorem generateServiceRequest_sessions (hguti : nas.guti = some guti)
    (hsessions : hasNonCleartextIes nas.uicc = true) : generateServiceRequest crypto nas mem =
      if 0xffffff < nas.security.nasCountUl then .error .assertFatal
      else .ok (nas.countedUl.refreshKgnb crypto nas.security.nasCountUl,
        integrityProtect crypto container nas.security.nasCountUl
          (nasProtectedSecurityHeaderEncode 1 (sqn nas.security.nasCountUl) ++
            containerOctets crypto container nas guti)) := by
  have hfull : mmMsgEncode (.serviceRequest ⟨setFgsKsi nas, fillFgstmsi guti, some (pduSessionStatus nas.uicc), none⟩)
      (fun _ => 0) 17 = .ok (some (fullOctets nas guti)) := writes_fullRequest 17 (Nat.le_refl _) (by decide)
  have hencode : encodeProtected 1 nas.security.nasCountUl (.serviceRequest (containerRequest crypto container nas guti))
      mem 40 = .ok _ :=
    Writes.encodeProtected writes_containerRequest (by decide) (Nat.le_of_eq (by rw [length_containerOctets])) (by decide)
  rw [generateServiceRequest, hguti]
  dsimp only [fgstmsiSize]
  rw [hc]
  dsimp only
  rw [if_pos hsessions, hfull, ok_bind]
  dsimp only
  split
  · rfl
  · rw [ok_bind]
    dsimp only
    rw [← cipheredOctets, ← containerRequest, length_fullOctets, hencode, ok_bind]

theorem protects_serviceRequest_sessions (hguti : nas.guti = some guti)
    (hsessions : hasNonCleartextIes nas.uicc = true) : Protects crypto nas (.serviceRequest mem) := by
  have hintends : Intends crypto nas (.serviceRequest mem) (clearOctets nas guti) (fullOctets nas guti) := by
    refine .serviceRequest hguti (writes_clearRequest.plainOctets (by decide)) ?_
    rw [if_pos hsessions]
    exact writes_fullRequest.plainOctets (by decide)
  have hne : clearOctets nas guti ≠ fullOctets nas guti := fun h => nomatch congrArg List.length h
  have h : generate crypto nas (.serviceRequest mem) =
      (generateServiceRequest crypto nas mem).map (Prod.map id some) := rfl
  rw [generateServiceRequest_sessions hc hguti hsessions] at h
  split at h
  · exact protects_of_assert h
  · exact protects_of_message hc h (toNat_add_one ‹_›) hintends (wellProtected_of_container hne rfl)

theorem generateServiceRequest_noSessions (hguti : nas.guti = some guti)
    (hsessions : hasNonCleartextIes nas.uicc = false) : generateServiceRequest crypto nas mem =
      .ok (nas.countedUl.refreshKgnb crypto nas.security.nasCountUl,
        integrityProtect crypto container nas.security.nasCountUl
          (nasProtectedSecurityHeaderEncode 1 (sqn nas.security.nasCountUl) ++ (nasMmMsgEncodeHeader 0 0x4c ++
            [((encodeNasKeySetIdentifier (setFgsKsi nas) &&& 0xf) <<< 4) ||| 1, 0xff]))) := by
  have hencode : encodeProtected 1 nas.security.nasCountUl (.serviceRequest (clearRequest nas guti)) mem 20 =
      .ok (nasProtectedSecurityHeaderEncode 1 (sqn nas.security.nasCountUl) ++ (nasMmMsgEncodeHeader 0 0x4c ++
        [((encodeNasKeySetIdentifier (setFgsKsi nas) &&& 0xf) <<< 4) ||| 1, 0xff])) := by
    have hroom : left 20 7 = 13 := rfl
    have hbody := @encodeFgsServiceRequest_short 10 (clearRequest nas guti) (Nat.le_refl _) (by decide) rfl rfl
    rw [encodeProtected, hroom, mmMsgEncode_eq (by decide) (by decide), PlainMessage.encodeBody, hbody]
    rfl
  rw [generateServiceRequest, hguti]
  dsimp only [fgstmsiSize]
  rw [hc]
  dsimp only
  rw [hsessions, if_neg Bool.false_ne_true, ok_bind]
  dsimp only
  rw [← clearRequest, hencode, ok_bind]

theorem not_protects_serviceRequest (hguti : nas.guti = some guti)
    (hsessions : hasNonCleartextIes nas.uicc = false) : ¬ Protects crypto nas (.serviceRequest mem) := by
  intro hprotects
  have h : generate crypto nas (.serviceRequest mem) =
      (generateServiceRequest crypto nas mem).map (Prod.map id some) := rfl
  rw [generateServiceRequest_noSessions hc hguti hsessions] at h
  obtain ⟨-, clear, full, hintends, hwell⟩ := (hprotects container hc).2 _ _ h
  cases hintends with
  | serviceRequest hguti' hclear hfull =>
    cases hguti.symm.trans hguti'
    rw [hsessions, if_neg Bool.false_ne_true] at hfull
    have hplain : plainOctets (.serviceRequest (clearRequest nas guti)) mem = .ok (some (clearOctets nas guti)) :=
      writes_clearRequest.plainOctets (by decide)
    cases hplain.symm.trans hclear
    cases hplain.symm.trans hfull
    refine not_recovers_of_length ?_ ?_ hwell.recovers
    · exact (by decide : 5 ≤ 13)
    · exact (by decide : 5 < 13)

end ServiceRequest

section Identity

inductive Prepared (crypto : Crypto) (nas : NrUeNas) (registrationType : UInt8) : Prop
  | written {identity : MobileIdentity} {size need : Nat} {c : List UInt8}
    (h : ∀ capability, registrationRequest crypto nas registrationType capability =
      .ok (.registrationRequest ⟨registrationType, setFgsKsi nas, identity, capability⟩, size))
    (hwrites : Writes (encodeIdentityContents identity) need c) (hc : c.length ≤ need) (hneed : need < size)
    (hsize : size ≤ suciSize) (hfits : IdentityFits nas) (hasserts : ¬ IdentityAsserts nas)
  | asserted {identity : MobileIdentity} {size need : Nat}
    (h : ∀ capability, registrationRequest crypto nas registrationType capability =
      .ok (.registrationRequest ⟨registrationType, setFgsKsi nas, identity, capability⟩, size))
    (hencode : Asserts (encodeIdentityContents identity) need) (hneed : need < size) (hsize : size ≤ suciSize)
    (hfits : IdentityFits nas) (hasserts : IdentityAsserts nas)
  | unknown (h : ∀ capability, registrationRequest crypto nas registrationType capability = .error .assertFatal)
    (hfits : IdentityFits nas) (hasserts : IdentityAsserts nas)
  | overflow (h : ∀ capability, registrationRequest crypto nas registrationType capability = .error .outOfBounds)
    (hfits : ¬ IdentityFits nas)

inductive Filled (crypto : Crypto) (uicc : Uicc) : Prop
  | plain {suci : Suci} (h : fillSuci crypto uicc = .ok (.suci suci)) (hread : uicc.Readable)
    (hzero : uicc.protectionScheme = 0) (hscheme : suci.protectionschemeId = 0) (houtput : suci.schemeoutput = uicc.msin)
    (hlength : uicc.msin.length ≤ 127)
  | schemeA {suci : Suci} {bcd : List UInt8} (h : fillSuci crypto uicc = .ok (.suci suci)) (hread : uicc.Readable)
    (hone : uicc.protectionScheme = 1) (hscheme : suci.protectionschemeId = 1)
    (hdigits : digitStringToBcdValue uicc.msin = some bcd) (hlength : bcd.length ≤ 23)
    (houtput : suci.schemeoutput.length = 40 + bcd.length)
  | asserts (h : fillSuci crypto uicc = .error .assertFatal) (hread : uicc.Readable) (hzero : uicc.protectionScheme ≠ 0)
    (hdigits : uicc.protectionScheme = 1 → digitStringToBcdValue uicc.msin = none)
  | unreadable (h : fillSuci crypto uicc = .error .outOfBounds) (hread : ¬uicc.Readable)
  | long (h : fillSuci crypto uicc = .error .outOfBounds) (hzero : uicc.protectionScheme = 0)
    (hlength : 127 < uicc.msin.length)
  | longA {bcd : List UInt8} (h : fillSuci crypto uicc = .error .outOfBounds) (hone : uicc.protectionScheme = 1)
    (hdigits : digitStringToBcdValue uicc.msin = some bcd) (hlength : 23 < bcd.length)

theorem fillSuci_cases (crypto : Crypto) (uicc : Uicc) : Filled crypto uicc := by
  by_cases hread : uicc.Readable
  · by_cases hzero : uicc.protectionScheme = 0
    · by_cases hlength : 127 < uicc.msin.length
      · exact .long (by simp [fillSuci, hread, hzero, hlength]) hzero hlength
      · exact .plain (by simp only [fillSuci, hread, hzero, hlength, not_true, if_false, if_true]; rfl) hread hzero rfl rfl
          (Nat.not_lt.mp hlength)
    · by_cases hone : uicc.protectionScheme = 1
      · cases hdigits : digitStringToBcdValue uicc.msin with
        | none => exact .asserts (by simp [fillSuci, hread, hone, hdigits]) hread hzero fun _ => hdigits
        | some bcd =>
          have houtput := crypto.length_suciProfileA bcd
          by_cases hlength : 23 < bcd.length
          · have hlong : 127 < 2 * (crypto.suciProfileA bcd).length := by omega
            exact .longA (by simp [fillSuci, hread, hone, hdigits, hlong]) hone hdigits hlength
          · have hfits : ¬127 < 2 * (crypto.suciProfileA bcd).length := by omega
            exact .schemeA (by simp only [fillSuci, hread, hone, hdigits, hfits, not_true, if_false, if_true]; rfl) hread
              hone rfl hdigits (Nat.not_lt.mp hlength) (by dsimp only; omega)
      · exact .asserts (by simp [fillSuci, hread, hzero, hone]) hread hzero fun h => absurd h hone
  · exact .unreadable (by simp [fillSuci, hread]) hread

theorem prepared_guti {guti : Guti} (hguti : nas.guti = some guti) (registrationType : UInt8) :
    Prepared crypto nas registrationType := by
  have hnone : nas.guti ≠ none := by
    rw [hguti]
    nofun
  have hrequest (capability : Bool) : registrationRequest crypto nas registrationType capability =
      .ok (.registrationRequest ⟨registrationType, setFgsKsi nas, .guti guti, capability⟩, gutiSize) := by
    rw [registrationRequest, hguti]
  exact .written hrequest ((writes_guti guti).mono (Nat.zero_le 11)) (Nat.le_refl 11) (by decide) (by decide)
    (fun h => absurd h hnone) fun h => hnone h.1

theorem prepared (crypto : Crypto) (nas : NrUeNas) (registrationType : UInt8) :
    Prepared crypto nas registrationType := by
  cases hguti : nas.guti with
  | some guti => exact prepared_guti hguti registrationType
  | none =>
    have hrequest (capability : Bool) : registrationRequest crypto nas registrationType capability =
        (fillSuci crypto nas.uicc).map fun suci =>
          (.registrationRequest ⟨registrationType, setFgsKsi nas, suci, capability⟩, suciSize) := by
      rw [registrationRequest, hguti]
    obtain ⟨hfill, hread, hzero, hscheme, houtput, hlength⟩ | ⟨hfill, hread, hone, hscheme, hdigits, hlength, houtput⟩ |
      ⟨hfill, hread, hzero, hdigits⟩ | ⟨hfill, hread⟩ | ⟨hfill, hzero, hlength⟩ | ⟨hfill, hone, hdigits, hlength⟩ :=
      fillSuci_cases crypto nas.uicc
    all_goals rw [hfill] at hrequest
    · have hfits : IdentityFits nas := fun _ => ⟨hread, fun _ => hlength, fun h => by omega⟩
      rw [← houtput] at hlength
      have hneed := Nat.lt_succ_of_le (Nat.add_le_add_left hlength 8)
      cases hdigits : digitStringToBcdValue nas.uicc.msin with
      | none =>
        exact .asserted hrequest (asserts_suci hscheme (houtput ▸ hdigits)) hneed (Nat.le_refl _) hfits
          ⟨hguti, .inr hdigits⟩
      | some output =>
        obtain ⟨c, hwrites, hc⟩ := writes_suci fun _ => by
          rw [houtput, hdigits]
          exact Option.some_ne_none _
        refine .written hrequest hwrites hc hneed (Nat.le_refl _) hfits ?_
        rintro ⟨-, ⟨h, -⟩ | h⟩
        · exact h hzero
        · cases hdigits.symm.trans h
    · have hfits : IdentityFits nas := fun _ => ⟨hread, fun h => by omega, fun _ bcd h => by
        cases hdigits.symm.trans h
        exact hlength⟩
      obtain ⟨c, hwrites, hc⟩ := writes_suci fun h => absurd (hscheme.symm.trans h) (by decide)
      refine .written hrequest hwrites hc (by simp only [suciSize]; omega) (Nat.le_refl _) hfits ?_
      rintro ⟨-, ⟨-, h⟩ | h⟩
      · exact h hone
      · cases hdigits.symm.trans h
    · refine .unknown hrequest (fun _ => ⟨hread, fun h => absurd h hzero, fun hone bcd h => ?_⟩) ⟨hguti, ?_⟩
      · cases (hdigits hone).symm.trans h
      · by_cases hone : nas.uicc.protectionScheme = 1
        · exact .inr (hdigits hone)
        · exact .inl ⟨hzero, hone⟩
    · exact .overflow hrequest fun h => hread (h hguti).1
    · exact .overflow hrequest fun h => absurd ((h hguti).2.1 hzero) (Nat.not_le.mpr hlength)
    · exact .overflow hrequest fun h => absurd ((h hguti).2.2 hone _ hdigits) (Nat.not_le.mpr hlength)

end Identity

section RegistrationRequest

variable {registrationType : UInt8} {identity : MobileIdentity} {need size : Nat} {c : List UInt8}

def request (nas : NrUeNas) (registrationType : UInt8) (identity : MobileIdentity) (capability : Bool) : PlainMessage :=
  .registrationRequest ⟨registrationType, setFgsKsi nas, identity, capability⟩

def plainRequest (nas : NrUeNas) (registrationType : UInt8) (identity : MobileIdentity) (capability : Bool)
    (mem : Nat → UInt8) (c : List UInt8) : List UInt8 :=
  nasMmMsgEncodeHeader 0 0x41 ++
    requestOctets ⟨registrationType, setFgsKsi nas, identity, capability⟩ (fun i => mem (3 + i)) c

theorem length_plainRequest {capability : Bool} : (plainRequest nas registrationType identity capability mem c).length =
      16 + c.length + if capability then 3 else 0 := by
  rw [plainRequest, List.length_append, length_requestOctets]
  dsimp only [nasMmMsgEncodeHeader, List.length_cons, List.length_nil]
  omega

theorem writes_request (h : Writes (encodeIdentityContents identity) need c) (hc : c.length ≤ need) (capability : Bool) :
    Writes (mmMsgEncode (request nas registrationType identity capability) mem) (need + 9)
      (plainRequest nas registrationType identity capability mem c) := by
  have hbody := @writes_registrationRequest need c (fun i => mem (3 + i))
    ⟨registrationType, setFgsKsi nas, identity, capability⟩ h hc
  exact @writes_mmMsgEncode _ _ mem (request nas registrationType identity capability) hbody

theorem asserts_request (h : Asserts (encodeIdentityContents identity) need) (capability : Bool) :
    Asserts (mmMsgEncode (request nas registrationType identity capability) mem) (need + 7) := by
  have hbody := @asserts_registrationRequest need (fun i => mem (3 + i))
    ⟨registrationType, setFgsKsi nas, identity, capability⟩ h
  exact @asserts_mmMsgEncode _ mem (request nas registrationType identity capability) hbody

variable (htype : setFgsRegistrationType nas = some registrationType)
  (h : ∀ capability, registrationRequest crypto nas registrationType capability =
    .ok (request nas registrationType identity capability, size))

include hc htype h

theorem generateRegistrationRequest_eq (isSecurityMode : Bool) :
    generateRegistrationRequest crypto nas mem isSecurityMode =
      (if isSecurityMode then do
        let encoded ← mmMsgEncode (request nas registrationType identity true) mem (3 + 7 + 3 + 1 + 1 + size + 10 + 3)
        let octets ← fits (3 + 7 + 3 + 1 + 1 + size + 10 + 3) encoded
        .ok (nas, some octets)
      else do
        let encoded ←
          mmMsgEncode (request nas registrationType identity true) (fun _ => 0) (3 + 7 + 3 + 1 + 1 + size + 10 + 3)
        let contents ← fits (3 + 7 + 3 + 1 + 1 + size + 10 + 3) encoded
        let octets ← encodeProtected 1 nas.security.nasCountUl (request nas registrationType identity false) mem
          (3 + 7 + 3 + 1 + 1 + size + 10 + contents.length + 2)
        if 0xffffff < nas.security.nasCountUl then .error .assertFatal
        else .ok ((nas.refreshKgnb crypto nas.security.nasCountUl).countedUl,
          some (integrityProtect crypto container nas.security.nasCountUl octets))) := by
  rw [generateRegistrationRequest, htype]
  dsimp only
  rw [h false, ok_bind]
  dsimp only
  rw [h true, ok_bind, hc]
  cases isSecurityMode <;> rfl

theorem generateRegistrationRequest_written (hwrites : Writes (encodeIdentityContents identity) need c)
    (hle : c.length ≤ need) (hneed : need < size) (hsize : size ≤ suciSize) :
    generateRegistrationRequest crypto nas mem true =
      .ok (nas, some (plainRequest nas registrationType identity true mem c)) := by
  have hbound : size ≤ 136 := hsize
  have hlength : (plainRequest nas registrationType identity true mem c).length = 16 + c.length + 3 :=
    length_plainRequest
  rw [generateRegistrationRequest_eq hc htype h, if_pos rfl, writes_request hwrites hle true _ (by omega) (by omega),
    ok_bind, fits_some (by omega), ok_bind]

theorem generateRegistrationRequest_asserted (hasserts : Asserts (encodeIdentityContents identity) need)
    (hneed : need < size) (hsize : size ≤ suciSize) (isSecurityMode : Bool) :
    generateRegistrationRequest crypto nas mem isSecurityMode = .error .assertFatal := by
  have hbound : size ≤ 136 := hsize
  have hencode (mem : Nat → UInt8) : mmMsgEncode (request nas registrationType identity true) mem
      (3 + 7 + 3 + 1 + 1 + size + 10 + 3) = .error .assertFatal :=
    asserts_request hasserts true _ (by omega) (by omega)
  rw [generateRegistrationRequest_eq hc htype h]
  split
  · rw [hencode, error_bind]
  · rw [hencode, error_bind]

theorem generateRegistrationRequest_clear (hwrites : Writes (encodeIdentityContents identity) need c)
    (hle : c.length ≤ need) (hneed : need < size) (hsize : size ≤ suciSize) :
    generateRegistrationRequest crypto nas mem false = if 0xffffff < nas.security.nasCountUl then .error .assertFatal
      else .ok ((nas.refreshKgnb crypto nas.security.nasCountUl).countedUl,
        some (integrityProtect crypto container nas.security.nasCountUl
          (nasProtectedSecurityHeaderEncode 1 (sqn nas.security.nasCountUl) ++
            plainRequest nas registrationType identity false (fun i => mem (7 + i)) c))) := by
  have hbound : size ≤ 136 := hsize
  have hfull : (plainRequest nas registrationType identity true (fun _ => 0) c).length = 16 + c.length + 3 :=
    length_plainRequest
  have hclear : (plainRequest nas registrationType identity false (fun i => mem (7 + i)) c).length = 16 + c.length + 0 :=
    length_plainRequest
  rw [generateRegistrationRequest_eq hc htype h, if_neg Bool.false_ne_true,
    writes_request hwrites hle true _ (by omega) (by omega), ok_bind, fits_some (by omega), ok_bind,
    (writes_request hwrites hle false).encodeProtected (by omega) (by omega) (by omega), ok_bind]

omit htype h in
theorem protects_registrationRequest_iff :
    Protects crypto nas (.registrationRequest mem) ↔ Protectable nas (.registrationRequest mem) := by
  rw [Protectable]
  cases htype : setFgsRegistrationType nas with
  | none =>
    have hgenerate : generate crypto nas (.registrationRequest mem) = .ok (nas, none) := by
      rw [generate, generateRegistrationRequest, htype]
    exact iff_of_true (protects_of_nothing hgenerate) (.inl rfl)
  | some registrationType =>
    have hgenerate : generate crypto nas (.registrationRequest mem) =
      generateRegistrationRequest crypto nas mem false := rfl
    obtain ⟨h, hwrites, hle, hneed, hsize, hfits, hasserts⟩ | ⟨h, hencode, hneed, hsize, hfits, hasserts⟩ |
      ⟨h, hfits, hasserts⟩ | ⟨h, hfits⟩ := prepared crypto nas registrationType
    · rw [generateRegistrationRequest_clear hc htype h hwrites hle hneed hsize] at hgenerate
      split at hgenerate
      · exact iff_of_true (protects_of_assert hgenerate) (.inr ⟨hfits, .inl ‹_›⟩)
      · refine iff_of_false (fun hprotects => ?_) ?_
        · obtain ⟨-, clear, full, hintends, hwell⟩ := (hprotects container hc).2 _ _ hgenerate
          cases hintends with
          | registrationRequest htype' hclear hfull hclearOctets hoctets =>
            cases htype.symm.trans htype'
            cases (h false).symm.trans hclear
            cases (h true).symm.trans hfull
            have hbound : _ ≤ 136 := hsize
            cases ((writes_request hwrites hle false).plainOctets (by omega)).symm.trans hclearOctets
            cases ((writes_request hwrites hle true).plainOctets (by omega)).symm.trans hoctets
            refine not_recovers_of_length ?_ ?_ hwell.recovers
            · exact Nat.le_of_eq (by rw [length_plainRequest, length_plainRequest])
            · rw [length_plainRequest, length_plainRequest]
              exact Nat.lt_add_of_pos_right (by decide)
        · rintro (h | ⟨-, h | h⟩)
          · cases h
          · contradiction
          · exact hasserts h
    · rw [generateRegistrationRequest_asserted hc htype h hencode hneed hsize] at hgenerate
      exact iff_of_true (protects_of_assert hgenerate) (.inr ⟨hfits, .inr hasserts⟩)
    · refine iff_of_true (protects_of_assert ?_) (.inr ⟨hfits, .inr hasserts⟩)
      rw [hgenerate, generateRegistrationRequest, htype]
      dsimp only
      rw [h, error_bind]
    · refine iff_of_false (@not_protects_of_error crypto nas container _ .outOfBounds hc ?_ (by decide)) ?_
      · rw [hgenerate, generateRegistrationRequest, htype]
        dsimp only
        rw [h, error_bind]
      · rintro (h | ⟨h, -⟩)
        · cases h
        · exact hfits h

end RegistrationRequest

section SecurityModeComplete

include hc

theorem protects_securityModeComplete {rr : List UInt8} {registrationType : UInt8} {request : PlainMessage}
    {size : Nat} (htype : setFgsRegistrationType nas = some registrationType)
    (hrequest : registrationRequest crypto nas registrationType true = .ok (request, size))
    (hplain : plainOctets request mem = .ok (some rr))
    (hrr : generateRegistrationRequest crypto nas mem true = .ok (nas, some rr)) (hne : rr ≠ [])
    (hlength : rr.length ≤ 0x1000) : Protects crypto nas (.securityModeComplete mem) := by
  have hwrites (mem : Nat → UInt8) : Writes (mmMsgEncode (.securityModeComplete (fillImeisv nas.uicc) rr) mem)
      (15 + rr.length + 3) _ := writes_mmMsgEncode (writes_securityModeComplete hne (getImeisvDigit nas.uicc))
  have hintends : Intends crypto nas (.securityModeComplete mem) _ _ :=
    .securityModeComplete htype hrequest hplain ((hwrites mem).plainOctets (by omega))
  have h : generate crypto nas (.securityModeComplete mem) =
      (generateSecurityModeComplete crypto nas mem).map (Prod.map id some) := rfl
  rw [generateSecurityModeComplete, hrr, ok_bind] at h
  dsimp only [imeisvSize] at h
  rw [(hwrites _).encodeProtected (by omega) (by simp [encodeImeisv5gsMobileIdentity, nasMmMsgEncodeHeader]; omega)
    (by omega), ok_bind] at h
  exact protects_of_protect 4 id hc hintends h (by decide) fun _ => rfl

theorem protects_securityModeComplete_iff :
    Protects crypto nas (.securityModeComplete mem) ↔ Protectable nas (.securityModeComplete mem) := by
  rw [Protectable]
  have hgenerate : generate crypto nas (.securityModeComplete mem) =
      (generateSecurityModeComplete crypto nas mem).map (Prod.map id some) := rfl
  rw [generateSecurityModeComplete] at hgenerate
  cases htype : setFgsRegistrationType nas with
  | none =>
    refine iff_of_false (@not_protects_of_error crypto nas container _ .uninitialised hc ?_ (by decide)) fun h => h.1 rfl
    rw [hgenerate, generateRegistrationRequest, htype]
    rfl
  | some registrationType =>
    obtain ⟨h, hwrites, hle, hneed, hsize, hfits, -⟩ | ⟨h, hencode, hneed, hsize, hfits, -⟩ | ⟨h, hfits, -⟩ |
      ⟨h, hfits⟩ := prepared crypto nas registrationType
    · have hbound : _ ≤ 136 := hsize
      have hrr := @generateRegistrationRequest_written crypto nas container mem hc _ _ _ _ _ htype h hwrites hle hneed
        hsize
      have hplain := (@writes_request nas mem registrationType _ _ _ hwrites hle true).plainOctets (by omega)
      refine iff_of_true (protects_securityModeComplete hc htype (h true) hplain hrr (List.cons_ne_nil _ _) ?_)
        ⟨nofun, hfits⟩
      rw [length_plainRequest, if_pos rfl]
      omega
    · refine iff_of_true (protects_of_assert ?_) ⟨nofun, hfits⟩
      rw [hgenerate, generateRegistrationRequest_asserted hc htype h hencode hneed hsize]
      rfl
    · refine iff_of_true (protects_of_assert ?_) ⟨nofun, hfits⟩
      rw [hgenerate, generateRegistrationRequest, htype]
      dsimp only
      rw [h, error_bind]
      rfl
    · refine iff_of_false (@not_protects_of_error crypto nas container _ .outOfBounds hc ?_ (by decide)) fun h => hfits h.2
      rw [hgenerate, generateRegistrationRequest, htype]
      dsimp only
      rw [h, error_bind]
      rfl

end SecurityModeComplete

theorem protects_iff (hc : nas.securityContainer = some container) (p : Procedure) :
    Protects crypto nas p ↔ Protectable nas p := by
  cases p with
  | registrationRequest mem => exact protects_registrationRequest_iff hc
  | serviceRequest mem =>
    rw [Protectable]
    cases hguti : nas.guti with
    | none => exact iff_of_true (protects_serviceRequest_noGuti hguti) (.inl rfl)
    | some guti =>
      cases hsessions : hasNonCleartextIes nas.uicc with
      | true => exact iff_of_true (protects_serviceRequest_sessions hc hguti hsessions) (.inr rfl)
      | false => exact iff_of_false (not_protects_serviceRequest hc hguti hsessions) (by simp)
  | securityModeComplete mem => exact protects_securityModeComplete_iff hc
  | securityModeReject mem cause =>
    refine iff_of_false (@not_protects_of_error crypto nas container _ .nullPointer hc ?_ (by decide)) id
    rw [generate, generateSecurityModeReject, hc]
    rfl
  | registrationComplete => exact iff_of_true (protects_registrationComplete hc) trivial
  | deregistrationRequest => exact iff_of_true (protects_deregistrationRequest hc) trivial
  | pduSessionEstablishRequest mem req => exact iff_of_true (protects_pduSessionEstablishRequest hc req) trivial
  | received nas' => exact iff_of_true (protects_of_nothing rfl) trivial

end OaiNr.Nas
