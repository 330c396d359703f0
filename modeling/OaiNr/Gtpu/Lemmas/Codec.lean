import OaiNr.Gtpu.Lemmas.Reads

/-!
# Reading what was written
-/

namespace OaiNr.Gtpu

open List

variable {pre xs rest msg : List UInt8} {ext : Extension} {exts : List Extension} {next : ExtensionType} {h : Headers}

section Octets

theorem inPayload_append {i : Nat} (hi : i < xs.length) :
    inPayload (pre ++ (xs ++ rest)) (pre.length + i) = inPayload xs i := by
  rw [inPayload, inPayload, List.getElem?_append_right (Nat.le_add_right _ _), Nat.add_sub_cancel_left,
    List.getElem?_append_left hi]

theorem Extension.words (ext : Extension) (next : ExtensionType) :
    (UInt8.ofNat (((ext.body next).length + 1) / 4)).toNat * 4 = (ext.octets next).length := by
  have hlen := length_body ext next
  have hcontent := length_content_le ext
  rw [UInt8.toNat_ofNat', length_octets]
  omega

theorem Extension.octets_last (ext : Extension) (next : ExtensionType) :
    inPayload (ext.octets next) ((ext.octets next).length - 1) = .ok (serializeGtpuExtensionType next) := by
  obtain ⟨front, hfront⟩ : ∃ front, ext.octets next = front ++ [serializeGtpuExtensionType next] :=
    ⟨_ :: (ext.content ++ List.replicate (3 - (ext.content.length + 1) % 4) 0), rfl⟩
  rw [inPayload, hfront, length_append, length_singleton, Nat.add_sub_cancel, List.getElem?_concat_length]

theorem serializeGtpuExtensionType_ne_zero (haccepted : ext.accepted = true) :
    serializeGtpuExtensionType ext.type ≠ 0 := by
  cases ext with
  | none => cases haccepted
  | _ => simp [Extension.type, serializeGtpuExtensionType, pduSessionContainer, nrRanContainer]

end Octets

section Loop

def Extension.headers (h : Headers) : Extension → Headers
  | .ulPduSessionInformation ext =>
    let b := UInt8.ofNat (ext.qfi % 256).toNat
    { h with qfi := some (b &&& 0x3f).toNat, rqi := b >>> 6 &&& 1 = 1 }
  | _ => h

theorem readContainer_written (haccepted : ext.accepted = true) :
    readContainer (inPayload (pre ++ (ext.octets next ++ rest))) (pre ++ (ext.octets next ++ rest)).length pre.length
      (serializeGtpuExtensionType ext.type) h = .ok (some (ext.headers h)) := by
  have hfour : 4 ≤ (ext.octets next).length := by
    have hlen := length_body ext next
    rw [length_octets]
    omega
  have hread : ∀ i, i < 4 → inPayload (pre ++ (ext.octets next ++ rest)) (pre.length + i) =
      inPayload (ext.octets next) i := fun i hi => inPayload_append (by omega)
  have htotal : (pre ++ (ext.octets next ++ rest)).length = pre.length + ((ext.octets next).length + rest.length) := by
    rw [length_append, length_append]
  cases ext with
  | none => cases haccepted
  | ulPduSessionInformation ext =>
    have htype : serializeGtpuExtensionType (Extension.ulPduSessionInformation ext).type = pduSessionContainer := rfl
    rw [readContainer, if_pos htype, if_neg (by omega), hread 2 (by decide)]
    rfl
  | dlDataDeliveryStatus ext =>
    have hread1 : inPayload ((Extension.dlDataDeliveryStatus ext).octets next) 1 =
        .ok (0x10 ||| flag ext.highestTransmittedNrPdcpSnInd 3) := rfl
    have hpduType : ∀ ind, ¬ ((0x10 ||| flag ind 3) >>> 4 &&& 0xf = 0) := by decide
    have htype : serializeGtpuExtensionType (Extension.dlDataDeliveryStatus ext).type = nrRanContainer := rfl
    rw [readContainer, htype, if_neg (by decide), if_pos rfl, if_neg (by omega), readNrRanContainer,
      hread 1 (by decide), hread1, ok_bind, if_neg (hpduType _)]
    rfl
  | dlUserData ext =>
    have htype : serializeGtpuExtensionType (Extension.dlUserData ext).type = nrRanContainer := rfl
    rw [readContainer, htype, if_neg (by decide), if_pos rfl, if_neg (by omega), readNrRanContainer,
      hread 1 (by decide), hread 2 (by decide)]
    rfl

theorem readExtension_written (haccepted : ext.accepted = true) :
    readExtension (inPayload (pre ++ (ext.octets next ++ rest))) (pre ++ (ext.octets next ++ rest)).length pre.length
        (serializeGtpuExtensionType ext.type) h =
      .ok (some (pre.length + (ext.octets next).length, serializeGtpuExtensionType next, ext.headers h)) := by
  have hpos : 0 < (ext.octets next).length := Nat.succ_pos _
  have hfirst : inPayload (pre ++ (ext.octets next ++ rest)) pre.length =
      .ok (UInt8.ofNat (((ext.body next).length + 1) / 4)) := @inPayload_append pre (ext.octets next) rest 0 hpos
  have hlast : inPayload (pre ++ (ext.octets next ++ rest)) (pre.length + (ext.octets next).length - 1) =
      .ok (serializeGtpuExtensionType next) := by
    rw [Nat.add_sub_assoc hpos, inPayload_append (by omega), Extension.octets_last]
  rw [readExtension, hfirst, ok_bind, readContainer_written haccepted, ok_bind]
  simp only [Extension.words, hlast]
  rw [if_neg (by simp only [length_append]; omega)]
  rfl

theorem extensionLoop_written (haccepted : ∀ ext ∈ exts, ext.accepted = true) {rounds : Nat}
    (hrounds : exts.length ≤ rounds) :
    extensionLoop (inPayload (pre ++ (extensionOctets exts ++ msg))) (pre ++ (extensionOctets exts ++ msg)).length rounds
        pre.length (serializeGtpuExtensionType ((exts.head?.map Extension.type).getD .none)) h =
      .ok (some (pre.length + (extensionOctets exts).length, exts.foldl Extension.headers h)) := by
  induction exts generalizing pre h rounds with
  | nil => cases rounds <;> rfl
  | cons ext exts ih =>
    obtain ⟨hext, hexts⟩ := forall_mem_cons.mp haccepted
    obtain ⟨rounds, rfl⟩ : ∃ n, rounds = n + 1 := Nat.exists_eq_succ_of_ne_zero (by
      rw [length_cons] at hrounds
      omega)
    rw [extensionLoop, extensionOctets, append_assoc]
    show (if serializeGtpuExtensionType ext.type = 0 then _ else _) = _
    rw [if_neg (serializeGtpuExtensionType_ne_zero hext)]
    show readExtension _ _ _ (serializeGtpuExtensionType ext.type) _ >>= _ = _
    rw [readExtension_written hext, ok_bind]
    have hloop := @ih (pre ++ ext.octets ((exts.head?.map Extension.type).getD .none)) (ext.headers h) hexts rounds
      (Nat.le_of_succ_le_succ hrounds)
    rw [append_assoc, @length_append _ pre (ext.octets _)] at hloop
    rw [@length_append _ (ext.octets _) (extensionOctets exts), ← Nat.add_assoc]
    exact hloop

end Loop

section Sent

variable {b b' : ByteArrayProducer} {bearer : Bearer} {msgType : UInt8} {seqNumFlag npduNumFlag : Bool}
  {packet' : List UInt8}

theorem accepted_of_serializeContent (hcontent : serializeContent b ext = .ok (some b')) : ext.accepted = true := by
  cases ext with
  | none => cases hcontent
  | ulPduSessionInformation ext =>
    rw [serializeContent, serializeUlPduSessionInformation] at hcontent
    split at hcontent
    next => cases hcontent
    next hflags => simpa [Extension.accepted] using hflags
  | dlDataDeliveryStatus ext =>
    rw [serializeContent, serializeDlDataDeliveryStatus] at hcontent
    split at hcontent
    next => cases hcontent
    next hflags => simpa [Extension.accepted] using hflags
  | dlUserData ext =>
    rw [serializeContent, serializeDlUserData] at hcontent
    split at hcontent
    next => cases hcontent
    next hflags => simpa [Extension.accepted] using hflags

theorem accepted_of_serializeExtension {outLen : Nat} {bytes : List UInt8}
    (hext : serializeExtension ext next outLen = .ok (some bytes)) : ext.accepted = true := by
  rw [serializeExtension] at hext
  split at hext
  · cases hext
  · obtain ⟨r, hcontent, hfinish⟩ := bind_eq_ok.mp hext
    cases r with
    | none => cases hfinish
    | some b => exact accepted_of_serializeContent hcontent

theorem accepted_of_serializeExtensions {size : Nat} {written bytes : List UInt8}
    (hexts : serializeExtensions size written exts = .ok (some bytes)) : ∀ ext ∈ exts, ext.accepted = true := by
  induction exts generalizing written with
  | nil => exact forall_mem_nil _
  | cons ext exts ih =>
    rw [serializeExtensions] at hexts
    obtain ⟨r, hext, hrest⟩ := bind_eq_ok.mp hexts
    cases r with
    | none => cases hrest
    | some bytes => exact forall_mem_cons.mpr ⟨accepted_of_serializeExtension hext, ih hrest⟩

structure IsSent (bearer : Bearer) (msgType : UInt8) (msg : List UInt8) (seqNumFlag npduNumFlag : Bool)
    (exts : List Extension) (packet' : List UInt8) : Prop where
  accepted : ∀ ext ∈ exts, ext.accepted = true
  msg_length : msg.length + hdrMax < 65536
  rest_length : (headerRest bearer seqNumFlag npduNumFlag exts).length + 8 < hdrMax
  eq : packet' = packet bearer msgType msg seqNumFlag npduNumFlag exts

theorem isSent_of_create
    (hsent : gtpv1uCreateAndSendMsg bearer msgType msg seqNumFlag npduNumFlag exts = .ok (some packet')) :
    IsSent bearer msgType msg seqNumFlag npduNumFlag exts packet' := by
  have hmsg : msg.length + hdrMax < 65536 := by
    refine Nat.not_le.mp fun hle => ?_
    rw [gtpv1uCreateAndSendMsg, if_pos hle] at hsent
    cases hsent
  have haccepted : ∀ ext ∈ exts, ext.accepted = true := by
    rw [gtpv1uCreateAndSendMsg, if_neg (Nat.not_le.mpr hmsg)] at hsent
    obtain ⟨r, hexts, hrest⟩ := bind_eq_ok.mp hsent
    cases r with
    | none => cases hrest
    | some written => exact accepted_of_serializeExtensions hexts
  rw [gtpv1uCreateAndSendMsg_eq haccepted hmsg] at hsent
  split at hsent
  next hrest =>
    cases hsent
    exact ⟨haccepted, hmsg, hrest, rfl⟩
  next => split at hsent <;> cases hsent

end Sent

section Packet

variable {bearer : Bearer} {msgType : UInt8} {seqNumFlag npduNumFlag : Bool} {left : Nat → UInt8}

theorem flagsOctet_valid : validHeader (flagsOctet seqNumFlag npduNumFlag exts) = true := by
  unfold flagsOctet
  cases exts.isEmpty <;> cases seqNumFlag <;> cases npduNumFlag <;> rfl

theorem flagsOctet_hasExtension : hasExtension (flagsOctet seqNumFlag npduNumFlag exts) = !exts.isEmpty := by
  unfold flagsOctet
  cases exts.isEmpty <;> cases seqNumFlag <;> cases npduNumFlag <;> rfl

theorem flagsOctet_hasSeqNum : hasSeqNum (flagsOctet seqNumFlag npduNumFlag exts) = seqNumFlag := by
  unfold flagsOctet
  cases exts.isEmpty <;> cases seqNumFlag <;> cases npduNumFlag <;> rfl

theorem flagsOctet_hasNpduNum : hasNpduNum (flagsOctet seqNumFlag npduNumFlag exts) = npduNumFlag := by
  unfold flagsOctet
  cases exts.isEmpty <;> cases seqNumFlag <;> cases npduNumFlag <;> rfl

theorem length_packet : (packet bearer msgType msg seqNumFlag npduNumFlag exts).length =
    8 + (headerRest bearer seqNumFlag npduNumFlag exts).length + msg.length := by
  rw [packet, length_append, length_append, ← Nat.add_assoc]
  rfl

theorem drop_packet : (packet bearer msgType msg seqNumFlag npduNumFlag exts).drop
    (8 + (headerRest bearer seqNumFlag npduNumFlag exts).length) = msg := by
  rw [packet, ← append_assoc]
  exact drop_left' (length_append)

theorem isMessage_packet (hmsg : msg.length + hdrMax < 65536)
    (hrest : (headerRest bearer seqNumFlag npduNumFlag exts).length + 8 < hdrMax) :
    IsMessage (buffer (packet bearer msgType msg seqNumFlag npduNumFlag exts) left)
      (packet bearer msgType msg seqNumFlag npduNumFlag exts).length msgType := by
  refine ⟨by rw [length_packet]; omega, ?_, rfl⟩
  have hlen : (headerRest bearer seqNumFlag npduNumFlag exts ++ msg).length =
      (headerRest bearer seqNumFlag npduNumFlag exts).length + msg.length := length_append
  have hbe : be16 (buffer (packet bearer msgType msg seqNumFlag npduNumFlag exts) left) 2 =
    (UInt8.ofNat ((headerRest bearer seqNumFlag npduNumFlag exts ++ msg).length / 256)).toNat * 256 +
      (UInt8.ofNat (headerRest bearer seqNumFlag npduNumFlag exts ++ msg).length).toNat := rfl
  rw [hbe, length_packet, UInt8.toNat_ofNat', UInt8.toNat_ofNat', hlen]
  have hsize : hdrMax = 256 := rfl
  omega

theorem be32_packet : be32 (buffer (packet bearer msgType msg seqNumFlag npduNumFlag exts) left) 4 =
    bearer.teidOutgoing.toNat := by
  have hbe : be32 (buffer (packet bearer msgType msg seqNumFlag npduNumFlag exts) left) 4 =
    ((ByteArrayProducer.octet bearer.teidOutgoing 3).toNat * 256 +
      (ByteArrayProducer.octet bearer.teidOutgoing 2).toNat) * 65536 +
    ((ByteArrayProducer.octet bearer.teidOutgoing 1).toNat * 256 +
      (ByteArrayProducer.octet bearer.teidOutgoing 0).toNat) := rfl
  have hlt := bearer.teidOutgoing.toNat_lt
  rw [hbe]
  simp only [ByteArrayProducer.octet, UInt8.toNat_ofNat']
  omega

theorem readHeaders_packet (haccepted : ∀ ext ∈ exts, ext.accepted = true) {rounds : Nat}
    (hrounds : exts.length ≤ rounds) :
    readHeaders (inPayload (packet bearer msgType msg seqNumFlag npduNumFlag exts)) rounds
        (packet bearer msgType msg seqNumFlag npduNumFlag exts).length (flagsOctet seqNumFlag npduNumFlag exts) =
      .ok (some (8 + (headerRest bearer seqNumFlag npduNumFlag exts).length,
        exts.foldl Extension.headers ⟨none, false, 0⟩)) := by
  unfold readHeaders
  rw [flagsOctet_hasExtension, flagsOctet_hasSeqNum, flagsOctet_hasNpduNum]
  cases exts with
  | nil => cases seqNumFlag <;> cases npduNumFlag <;> rfl
  | cons ext exts =>
    have hloop := @extensionLoop_written (msgHeader bearer msgType seqNumFlag npduNumFlag (ext :: exts)
        (headerRest bearer seqNumFlag npduNumFlag (ext :: exts) ++ msg).length ++
        optionalFields bearer seqNumFlag npduNumFlag (ext :: exts)) msg (ext :: exts) ⟨none, false, 0⟩ haccepted rounds
        hrounds
    have hrest : headerRest bearer seqNumFlag npduNumFlag (ext :: exts) =
        optionalFields bearer seqNumFlag npduNumFlag (ext :: exts) ++ extensionOctets (ext :: exts) := by
      cases seqNumFlag <;> cases npduNumFlag <;> rfl
    have hpacket : packet bearer msgType msg seqNumFlag npduNumFlag (ext :: exts) =
        (msgHeader bearer msgType seqNumFlag npduNumFlag (ext :: exts)
        (headerRest bearer seqNumFlag npduNumFlag (ext :: exts) ++ msg).length ++
        optionalFields bearer seqNumFlag npduNumFlag (ext :: exts)) ++ (extensionOctets (ext :: exts) ++ msg) := by
      rw [packet, hrest]
      simp only [append_assoc]
    have hread : inPayload (packet bearer msgType msg seqNumFlag npduNumFlag (ext :: exts)) 11 =
        .ok (serializeGtpuExtensionType ext.type) := by
      rw [hpacket]
      rfl
    have hstart : 8 + (headerRest bearer seqNumFlag npduNumFlag (ext :: exts)).length =
        12 + (extensionOctets (ext :: exts)).length := by
      rw [hrest, length_append, ← Nat.add_assoc]
      rfl
    rw [← hpacket] at hloop
    show inPayload _ 11 >>= _ = _
    rw [hread, ok_bind, hstart]
    exact hloop

def ulQfi : List Extension → Option Int
  | [] => none
  | .ulPduSessionInformation ext :: exts => some ((ulQfi exts).getD ext.qfi)
  | _ :: exts => ulQfi exts

def readQfi (qfi : Int) : Nat := (UInt8.ofNat (qfi % 256).toNat &&& 0x3f).toNat

theorem readQfi_eq (qfi : Int) : readQfi qfi = (qfi % 64).toNat := by
  have hsix : (qfi % 256).toNat % 256 &&& 63 = (qfi % 256).toNat % 256 % 64 :=
    Nat.and_two_pow_sub_one_eq_mod _ 6
  rw [readQfi, UInt8.toNat_and, UInt8.toNat_ofNat']
  exact hsix.trans (by omega)

theorem readQfi_eq_iff (qfi : Int) : (readQfi qfi : Int) = qfi ↔ 0 ≤ qfi ∧ qfi < 64 := by
  rw [readQfi_eq]
  omega

theorem foldl_headers_qfi (exts : List Extension) (h : Headers) :
    (exts.foldl Extension.headers h).qfi = ((ulQfi exts).map readQfi).or h.qfi := by
  induction exts generalizing h with
  | nil => rfl
  | cons ext exts ih =>
    rw [foldl_cons, ih]
    cases ext with
    | ulPduSessionInformation ext =>
      rw [ulQfi]
      cases ulQfi exts <;> rfl
    | _ => rfl

theorem foldl_headers_nrPdcpPduSn (exts : List Extension) (h : Headers) :
    (exts.foldl Extension.headers h).nrPdcpPduSn = h.nrPdcpPduSn := by
  induction exts generalizing h with
  | nil => rfl
  | cons ext exts ih =>
    rw [foldl_cons, ih]
    cases ext <;> rfl

end Packet

end OaiNr.Gtpu
