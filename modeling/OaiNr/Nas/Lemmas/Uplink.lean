import OaiNr.Lib.Fallible
import OaiNr.Nas.Procedures

/-!
# What the encoders write where they have room

An encoder that is given enough octets writes the same ones for every length that it is given, or asserts.
-/

namespace OaiNr.Nas

variable {len need size : Nat} {f : Nat → Encoded} {octets c : List UInt8} {mem : Nat → UInt8}

theorem left_eq {encoded : Nat} (h : encoded ≤ len) (hlen : len < 2 ^ 32) : left len encoded = len - encoded := by
  rw [left, show len + 2 ^ 32 - encoded = len - encoded + 2 ^ 32 by omega, Nat.add_mod_right,
    Nat.mod_eq_of_lt (by omega)]

@[simp] theorem length_be16 (n : Nat) : (be16 n).length = 2 := rfl

def Writes (f : Nat → Encoded) (need : Nat) (octets : List UInt8) : Prop :=
  ∀ len, need ≤ len → len < 2 ^ 32 → f len = .ok (some octets)

def Asserts (f : Nat → Encoded) (need : Nat) : Prop :=
  ∀ len, need ≤ len → len < 2 ^ 32 → f len = .error .assertFatal

theorem Writes.mono {need' : Nat} (h : Writes f need octets) (hle : need ≤ need') : Writes f need' octets :=
  fun len hneed hlen => h len (Nat.le_trans hle hneed) hlen

section Identity

variable {identity : MobileIdentity} {iei : Option UInt8}

theorem length_digitStringToBcdValue : ∀ (digits : List UInt8) {octets : List UInt8},
    digitStringToBcdValue digits = some octets → octets.length ≤ digits.length
  | [], _, h => by
    cases h
    exact Nat.le_refl _
  | [_], _, h => by
    rw [digitStringToBcdValue] at h
    split at h
    · cases h
    · cases h
      exact Nat.le_refl _
  | _ :: _ :: rest, _, h => by
    rw [digitStringToBcdValue] at h
    split at h
    · cases h
    · obtain ⟨tail, htail, rfl⟩ := Option.map_eq_some_iff.mp h
      have hle := length_digitStringToBcdValue rest htail
      simp only [List.length_cons]
      omega

theorem writes_guti (guti : Guti) : Writes (encodeIdentityContents (.guti guti)) 0 (encodeGuti5gsMobileIdentity guti) :=
  fun _ _ _ => rfl

theorem writes_imeisv (digit : Nat → UInt8) :
    Writes (encodeIdentityContents (.imeisv digit)) 0 (encodeImeisv5gsMobileIdentity digit) :=
  fun _ _ _ => rfl

def suciHeader (suci : Suci) : List UInt8 :=
  [1, bcd suci.mccdigit2 suci.mccdigit1, bcd suci.mncdigit3 suci.mccdigit3, bcd suci.mncdigit2 suci.mncdigit1,
    bcd suci.routingindicatordigit2 suci.routingindicatordigit1,
    bcd suci.routingindicatordigit4 suci.routingindicatordigit3, suci.protectionschemeId &&& 0xf, suci.homenetworkpki]

theorem asserts_suci {suci : Suci} (hscheme : suci.protectionschemeId = 0)
    (hdigits : digitStringToBcdValue suci.schemeoutput = none) :
    Asserts (encodeIdentityContents (.suci suci)) (8 + suci.schemeoutput.length) := by
  intro len hneed hlen
  rw [encodeIdentityContents, encodeSuci5gsMobileIdentity, if_neg (by omega), if_pos hscheme,
    left_eq (by omega) hlen, if_neg (by omega), hdigits]

theorem writes_suci_digits {suci : Suci} (hscheme : suci.protectionschemeId = 0)
    (hdigits : digitStringToBcdValue suci.schemeoutput = some c) :
    Writes (encodeIdentityContents (.suci suci)) (8 + suci.schemeoutput.length) (suciHeader suci ++ c) := by
  intro len hneed hlen
  rw [encodeIdentityContents, encodeSuci5gsMobileIdentity, if_neg (by omega), if_pos hscheme,
    left_eq (by omega) hlen, if_neg (by omega), hdigits]
  rfl

theorem writes_suci_octets {suci : Suci} (hscheme : suci.protectionschemeId ≠ 0) :
    Writes (encodeIdentityContents (.suci suci)) (8 + suci.schemeoutput.length)
      (suciHeader suci ++ suci.schemeoutput) := by
  intro len hneed hlen
  rw [encodeIdentityContents, encodeSuci5gsMobileIdentity, if_neg (by omega), if_neg hscheme,
    left_eq (by omega) hlen, if_neg (by omega)]
  rfl

theorem writes_suci {suci : Suci}
    (hdigits : suci.protectionschemeId = 0 → digitStringToBcdValue suci.schemeoutput ≠ none) :
    ∃ c, Writes (encodeIdentityContents (.suci suci)) (8 + suci.schemeoutput.length) c ∧
      c.length ≤ 8 + suci.schemeoutput.length := by
  by_cases hscheme : suci.protectionschemeId = 0
  · obtain ⟨output, houtput⟩ := Option.ne_none_iff_exists'.mp (hdigits hscheme)
    refine ⟨_, writes_suci_digits hscheme houtput, ?_⟩
    rw [List.length_append]
    exact Nat.add_le_add_left (length_digitStringToBcdValue _ houtput) _
  · refine ⟨_, writes_suci_octets hscheme, ?_⟩
    rw [List.length_append]
    exact Nat.le_refl _

theorem encode5gsMobileIdentity_eq (hlen : iei.toList.length + 3 ≤ len) (hlt : len < 2 ^ 32) :
    encode5gsMobileIdentity identity iei len =
      (encodeIdentityContents identity (len - (iei.toList.length + 2)) >>= fun contents =>
        .ok (contents.map fun c => iei.toList ++ be16 c.length ++ c)) := by
  rw [encode5gsMobileIdentity, if_neg (by omega), left_eq (by omega) hlt]

theorem writes_identity (h : Writes (encodeIdentityContents identity) need c) :
    Writes (encode5gsMobileIdentity identity iei) (need + iei.toList.length + 3)
      (iei.toList ++ be16 c.length ++ c) := by
  intro len hneed hlen
  rw [encode5gsMobileIdentity_eq (by omega) hlen, h _ (by omega) (by omega)]
  rfl

theorem asserts_identity (h : Asserts (encodeIdentityContents identity) need) :
    Asserts (encode5gsMobileIdentity identity iei) (need + iei.toList.length + 3) := by
  intro len hneed hlen
  rw [encode5gsMobileIdentity_eq (by omega) hlen, h _ (by omega) (by omega)]
  rfl

end Identity

section Bodies

variable {m : RegistrationRequest} {p : PlainMessage}

def requestOctets (m : RegistrationRequest) (mem : Nat → UInt8) (c : List UInt8) : List UInt8 :=
  let capability : List UInt8 := if m.capability then [0x10, 1, 6] else []
  [((encodeNasKeySetIdentifier m.ksi &&& 0xf) <<< 4) ||| ((0x08 ||| (m.registrationType &&& 7)) &&& 0xf)]
    ++ (be16 c.length ++ c) ++ capability
    ++ encodeNrueSecurityCapability fun i => mem (1 + (be16 c.length ++ c).length + capability.length + i)

theorem length_requestOctets : (requestOctets m mem c).length = 13 + c.length + if m.capability then 3 else 0 := by
  cases hcap : m.capability <;> simp [requestOctets, encodeNrueSecurityCapability, hcap] <;> omega

theorem capability_eq {capability : Bool} {encoded : Nat} (hlen : encoded + 3 ≤ len) (hlt : len < 2 ^ 32) :
    (if capability = true then encode5gmmCapability (left len encoded) else some []) =
      some (if capability = true then [0x10, 1, 6] else []) := by
  split
  · rw [left_eq (by omega) hlt, encode5gmmCapability, if_neg (by omega)]
    rfl
  · rfl

theorem writes_registrationRequest (h : Writes (encodeIdentityContents m.identity) need c) (hc : c.length ≤ need) :
    Writes (encodeRegistrationRequest m mem) (need + 6) (requestOctets m mem c) := by
  intro len hneed hlen
  have hidentity : Writes (encode5gsMobileIdentity m.identity none) (need + 3) (be16 c.length ++ c) := writes_identity h
  have hlength : (be16 c.length ++ c).length = 2 + c.length := by rw [List.length_append, length_be16]
  rw [encodeRegistrationRequest, left_eq (by omega) hlen, hidentity _ (by omega) (by omega), ok_bind]
  dsimp only
  rw [capability_eq (by omega) hlen]
  rfl

theorem asserts_registrationRequest (h : Asserts (encodeIdentityContents m.identity) need) :
    Asserts (encodeRegistrationRequest m mem) (need + 4) := by
  intro len hneed hlen
  have hidentity : Asserts (encode5gsMobileIdentity m.identity none) (need + 3) := asserts_identity h
  rw [encodeRegistrationRequest, left_eq (by omega) hlen, hidentity _ (by omega) (by omega)]
  rfl

theorem writes_container {contents : List UInt8} (hne : contents ≠ []) (hlen : contents.length + 3 ≤ len)
    (hlt : len < 2 ^ 32) :
    encodeFgcNasMessageContainer contents len = some ([0x71] ++ be16 contents.length ++ contents) := by
  have hpos := List.length_pos_iff.mpr hne
  rw [encodeFgcNasMessageContainer, if_neg (by omega), left_eq (by omega) hlt, encodeOctetString, if_neg hne,
    if_neg (by omega)]
  rfl

theorem writes_securityModeComplete {contents : List UInt8} (hne : contents ≠ []) (digit : Nat → UInt8) :
    Writes (encodeFgsSecurityModeComplete (.imeisv digit) contents) (15 + contents.length)
      ([0x77] ++ be16 9 ++ encodeImeisv5gsMobileIdentity digit ++ ([0x71] ++ be16 contents.length ++ contents)) := by
  intro len hneed hlen
  have hidentity : Writes (encode5gsMobileIdentity (.imeisv digit) (some 0x77)) 4
      ([0x77] ++ be16 9 ++ encodeImeisv5gsMobileIdentity digit) := writes_identity (writes_imeisv digit)
  rw [encodeFgsSecurityModeComplete, hidentity _ (by omega) hlen, ok_bind]
  dsimp only
  have hlength : ([0x77] ++ be16 9 ++ encodeImeisv5gsMobileIdentity digit).length = 12 := rfl
  rw [hlength, left_eq (by omega) hlen, writes_container hne (by omega) (by omega)]
  rfl

theorem writes_deregistrationRequest (guti : Guti) :
    Writes (encodeFgsDeregistrationRequest guti) 4 ([0x10] ++ (be16 11 ++ encodeGuti5gsMobileIdentity guti)) := by
  intro len hneed hlen
  have hidentity : Writes (encode5gsMobileIdentity (.guti guti) none) 3 (be16 11 ++ encodeGuti5gsMobileIdentity guti) :=
    writes_identity (writes_guti guti)
  rw [encodeFgsDeregistrationRequest, left_eq (by omega) hlen, hidentity _ (by omega) (by omega)]
  rfl

def transportOctets (req : PduSessionReq) : List UInt8 :=
  [1] ++ be16 7 ++ encodePduSessionEstablishmentRequest req ++ [0x12, req.pdusessionId, 0x81]
    ++ [0x22, UInt8.ofNat req.snssai.length] ++ req.snssai
    ++ [0x25, UInt8.ofNat (req.dnn.length + 1)] ++ [UInt8.ofNat req.dnn.length] ++ req.dnn

theorem length_transportOctets (req : PduSessionReq) :
    (transportOctets req).length = 18 + req.snssai.length + req.dnn.length := by
  simp [transportOctets, encodePduSessionEstablishmentRequest]
  omega

theorem writes_uplinkNasTransport (req : PduSessionReq) :
    Writes (fun len => .ok (encodeFgsUplinkNasTransport req len)) 10 (transportOctets req) := by
  intro len hneed hlen
  have hlength : (encodePduSessionEstablishmentRequest req).length = 7 := rfl
  dsimp only
  rw [encodeFgsUplinkNasTransport, left_eq (by omega) hlen, left_eq (by omega) (by omega), encodeOctetString,
    if_neg (by rw [encodePduSessionEstablishmentRequest]; exact List.cons_ne_nil _ _), if_neg (by omega)]
  rfl

section ServiceRequest

variable {m : ServiceRequest}

def serviceOctets (m : ServiceRequest) : List UInt8 :=
  [((encodeNasKeySetIdentifier m.ksi &&& 0xf) <<< 4) ||| 1] ++ be16 7
    ++ ([(0xf0 : UInt8) ||| ((m.stmsi.spare &&& 1) <<< 3) ||| 4]
      ++ be16 (amf m.stmsi.amfsetid m.stmsi.amfpointer).toNat ++ be32 m.stmsi.tmsi)

def statusOctets (psi : Nat → Bool) : List UInt8 := (encodePduSessionIe psi 4).getD []

theorem encodePduSessionIe_eq {psi : Nat → Bool} (hlen : 4 ≤ len) :
    encodePduSessionIe psi len = some (statusOctets psi) := by
  rw [encodePduSessionIe, if_neg (by omega)]
  rfl

theorem encodeFgsServiceRequest_eq (hlen : 12 ≤ len) :
    encodeFgsServiceRequest m len =
      ((match m.pduSessionStatus with
        | some psi => encodePduSessionIe psi (left len 10)
        | none => some []).bind fun status =>
      (match m.container with
        | some contents => encodeFgcNasMessageContainer contents (left len (10 + status.length))
        | none => some []).map fun container => serviceOctets m ++ status ++ container) := by
  rw [encodeFgsServiceRequest, if_neg (by omega), encodeStmsi5gsMobileIdentity, if_neg (by omega)]
  rfl

theorem writes_serviceRequest (hstatus : m.pduSessionStatus = none) (hcontainer : m.container = none) :
    Writes (fun len => .ok (encodeFgsServiceRequest m len)) 12 (serviceOctets m) := by
  intro len hneed hlen
  dsimp only
  rw [encodeFgsServiceRequest_eq hneed, hstatus, hcontainer]
  dsimp only [Option.bind_some, Option.map_some]
  rw [List.append_nil, List.append_nil]

theorem writes_serviceRequest_status {psi : Nat → Bool} (hstatus : m.pduSessionStatus = some psi)
    (hcontainer : m.container = none) :
    Writes (fun len => .ok (encodeFgsServiceRequest m len)) 14 (serviceOctets m ++ statusOctets psi) := by
  intro len hneed hlen
  dsimp only
  rw [encodeFgsServiceRequest_eq (by omega), hstatus, hcontainer]
  dsimp only
  rw [left_eq (by omega) hlen, encodePduSessionIe_eq (by omega)]
  dsimp only [Option.bind_some, Option.map_some]
  rw [List.append_nil]

theorem writes_serviceRequest_container {contents : List UInt8} (hne : contents ≠ [])
    (hstatus : m.pduSessionStatus = none) (hcontainer : m.container = some contents) :
    Writes (fun len => .ok (encodeFgsServiceRequest m len)) (13 + contents.length)
      (serviceOctets m ++ ([0x71] ++ be16 contents.length ++ contents)) := by
  intro len hneed hlen
  have hpos := List.length_pos_iff.mpr hne
  dsimp only
  have hcontents : encodeFgcNasMessageContainer contents (left len 10) =
      some ([0x71] ++ be16 contents.length ++ contents) := by
    rw [left_eq (by omega) hlen]
    exact writes_container hne (by omega) (by omega)
  rw [encodeFgsServiceRequest_eq (by omega), hstatus, hcontainer]
  -- the room and the octets stay abstract while the matches reduce
  generalize left len = room at hcontents ⊢
  generalize serviceOctets m = fixed
  rw [Option.bind_some, List.length_nil, Nat.add_zero]
  dsimp only
  rw [hcontents, Option.map_some, List.append_nil]

theorem encodeFgsServiceRequest_short (hlen : 10 ≤ len) (hshort : len < 12) (hstatus : m.pduSessionStatus = none)
    (hcontainer : m.container = none) :
    encodeFgsServiceRequest m len = some [((encodeNasKeySetIdentifier m.ksi &&& 0xf) <<< 4) ||| 1, 0xff] := by
  rw [encodeFgsServiceRequest, if_neg (by omega), encodeStmsi5gsMobileIdentity, if_pos (by omega), hstatus, hcontainer]
  rfl

end ServiceRequest

end Bodies

section Messages

variable {m : PlainMessage} {headerType : UInt8} {count : UInt32}

theorem mmMsgEncode_eq (hlen : 3 ≤ len) (hlt : len < 2 ^ 32) :
    mmMsgEncode m mem len = (m.encodeBody (fun i => mem (3 + i)) (len - 3) >>= fun body =>
      .ok (body.map (nasMmMsgEncodeHeader m.headerType m.messageType ++ ·))) := by
  rw [mmMsgEncode, if_neg (by omega), left_eq hlen hlt]

theorem writes_mmMsgEncode (h : Writes (m.encodeBody fun i => mem (3 + i)) need octets) :
    Writes (mmMsgEncode m mem) (need + 3) (nasMmMsgEncodeHeader m.headerType m.messageType ++ octets) := by
  intro len hneed hlen
  rw [mmMsgEncode_eq (by omega) hlen, h _ (by omega) (by omega)]
  rfl

theorem asserts_mmMsgEncode (h : Asserts (m.encodeBody fun i => mem (3 + i)) need) :
    Asserts (mmMsgEncode m mem) (need + 3) := by
  intro len hneed hlen
  rw [mmMsgEncode_eq (by omega) hlen, h _ (by omega) (by omega)]
  rfl

theorem Writes.plainOctets (h : Writes (mmMsgEncode m mem) need octets) (hneed : need ≤ 0xffff) :
    plainOctets m mem = .ok (some octets) :=
  h _ hneed (by decide)

theorem fits_some (h : octets.length ≤ size) : fits size (some octets) = .ok octets := by
  rw [fits, if_neg (Nat.not_lt.mpr h)]

theorem Writes.encodeProtected (h : Writes (mmMsgEncode m fun i => mem (7 + i)) need octets) (hneed : need + 7 ≤ size)
    (hsize : octets.length + 7 ≤ size) (hlt : size < 2 ^ 32) : encodeProtected headerType count m mem size =
      .ok (nasProtectedSecurityHeaderEncode headerType (sqn count) ++ octets) := by
  have hlength : (nasProtectedSecurityHeaderEncode headerType (sqn count) ++ octets).length = 7 + octets.length := by
    rw [List.length_append]
    rfl
  rw [Nas.encodeProtected, left_eq (by omega) hlt, h _ (by omega) (by omega), ok_bind, Option.map_some, Nas.fits,
    if_neg (by omega)]

end Messages

end OaiNr.Nas
