import OaiNr.Lib.Fallible
import OaiNr.Gtpu.Packet

/-!
# The octets of a packet

What `serialize_extension` writes is the content of the extension header between its length and the type of the next
one, with as many padding octets as make whole words.
-/

namespace OaiNr.Gtpu

open ByteArrayProducer List

section Producer

variable {b : ByteArrayProducer}

def ByteArrayProducer.put (b : ByteArrayProducer) : List UInt8 → Option ByteArrayProducer
  | [] => some b
  | byte :: bytes => (b.putByte byte).bind fun b => b.put bytes

theorem ByteArrayProducer.put_eq (hb : b.bytes.length ≤ b.len) (bytes : List UInt8) :
    b.put bytes = if b.bytes.length + bytes.length ≤ b.len then some ⟨b.len, b.bytes ++ bytes⟩ else none := by
  induction bytes generalizing b with
  | nil =>
    rw [length_nil, Nat.add_zero, if_pos hb, append_nil]
    rfl
  | cons byte bytes ih =>
    rw [ByteArrayProducer.put, ByteArrayProducer.putByte, length_cons]
    by_cases hfull : b.bytes.length = b.len
    · rw [if_pos hfull, if_neg (by omega)]
      rfl
    · have hlen : (b.bytes ++ [byte]).length = b.bytes.length + 1 := length_append
      rw [if_neg hfull]
      show ByteArrayProducer.put ⟨b.len, b.bytes ++ [byte]⟩ bytes = _
      rw [ih (by rw [hlen]; simp only; omega), hlen, append_assoc, singleton_append]
      simp only [Nat.add_assoc, Nat.add_comm 1]

theorem ByteArrayProducer.put_append (bytes bytes' : List UInt8) :
    b.put (bytes ++ bytes') = (b.put bytes).bind fun b => b.put bytes' := by
  induction bytes generalizing b with
  | nil => rfl
  | cons byte bytes ih =>
    rw [cons_append, ByteArrayProducer.put, ByteArrayProducer.put]
    cases b.putByte byte with
    | none => rfl
    | some b' => exact ih

theorem ByteArrayProducer.pad_eq {rounds : Nat} (hrounds : 3 - b.bytes.length % 4 ≤ rounds) :
    b.pad rounds = b.put (List.replicate (3 - b.bytes.length % 4) 0) := by
  induction rounds generalizing b with
  | zero =>
    rw [Nat.le_zero.mp hrounds]
    rfl
  | succ rounds ih =>
    rw [pad]
    by_cases hthree : b.bytes.length % 4 = 3
    · rw [if_neg fun h => h hthree, hthree]
      rfl
    · obtain ⟨n, hn⟩ : ∃ n, 3 - b.bytes.length % 4 = n + 1 := ⟨2 - b.bytes.length % 4, by omega⟩
      rw [if_pos hthree, hn, replicate_succ, ByteArrayProducer.put, ByteArrayProducer.putByte]
      split
      · rfl
      · have hlen : (b.bytes ++ [(0 : UInt8)]).length = b.bytes.length + 1 := length_append
        have hn' : 3 - (b.bytes ++ [(0 : UInt8)]).length % 4 = n := by omega
        show pad rounds ⟨b.len, b.bytes ++ [0]⟩ = ByteArrayProducer.put ⟨b.len, b.bytes ++ [0]⟩ _
        rw [ih (by simp only; omega)]
        simp only [hn']

end Producer

section Extensions

def Extension.content : Extension → List UInt8
  | .none => []
  | .ulPduSessionInformation ext => [0x10, UInt8.ofNat (ext.qfi % 256).toNat]
  | .dlDataDeliveryStatus ext =>
    [0x10 ||| flag ext.highestTransmittedNrPdcpSnInd 3, 0] ++
      [3, 2, 1, 0].map (octet ext.desiredBufferSize) ++
      if ext.highestTransmittedNrPdcpSnInd then
        [2, 1, 0].map (octet ext.highestTransmittedNrPdcpSn) else []
  | .dlUserData ext => [0, 0] ++ [2, 1, 0].map (octet ext.nruSequenceNumber)

/-- `serialize_extension` takes an extension: its type is known, and there is nothing that is still to be done. -/
def Extension.accepted : Extension → Bool
  | .none => false
  | .ulPduSessionInformation ext =>
    !(ext.qmp || ext.dlDelayInd || ext.ulDelayInd || ext.snp || ext.n3n9DelayInd || ext.newIeFlag)
  | .dlDataDeliveryStatus ext =>
    !(ext.highestDeliveredNrPdcpSnInd || ext.finalFrameInd || ext.lostPacketReport || ext.deliveredNrPdcpSnRangeInd ||
      ext.dataRateInd || ext.retransmittedNrPdcpSnInd || ext.deliveredRetransmittedNrPdcpInd || ext.causeReport)
  | .dlUserData ext =>
    !(ext.dlDiscardBlocks || ext.dlFlush || ext.reportPolling || ext.requestOutOfSeqReport || ext.reportDelivered ||
      ext.userDataExistenceFlag || ext.assistanceInfoReportPollingFlag || ext.retransmissionFlag)

def Extension.body (ext : Extension) (next : ExtensionType) : List UInt8 :=
  ext.content ++ List.replicate (3 - (ext.content.length + 1) % 4) 0 ++ [serializeGtpuExtensionType next]

def Extension.octets (ext : Extension) (next : ExtensionType) : List UInt8 :=
  UInt8.ofNat (((ext.body next).length + 1) / 4) :: ext.body next

variable {ext : Extension} {b : ByteArrayProducer}

theorem serializeContent_eq (h : ext.accepted = true) : serializeContent b ext = .ok (b.put ext.content) := by
  cases ext with
  | none => cases h
  | ulPduSessionInformation ext =>
    rcases ext with ⟨qmp, dl, ul, snp, n3n9, newIe, qfi⟩
    simp only [Extension.accepted, Bool.not_eq_true', Bool.or_eq_false_iff] at h
    obtain ⟨⟨⟨⟨⟨rfl, rfl⟩, rfl⟩, rfl⟩, rfl⟩, rfl⟩ := h
    simp [serializeContent, serializeUlPduSessionInformation, Extension.content, ByteArrayProducer.put, flag]
  | dlDataDeliveryStatus ext =>
    rcases ext with ⟨transmitted, delivered, final, lost, range, rate, re, reDelivered, cause, size, sn⟩
    simp only [Extension.accepted, Bool.not_eq_true', Bool.or_eq_false_iff] at h
    obtain ⟨⟨⟨⟨⟨⟨⟨rfl, rfl⟩, rfl⟩, rfl⟩, rfl⟩, rfl⟩, rfl⟩, rfl⟩ := h
    cases transmitted <;>
      simp [serializeContent, serializeDlDataDeliveryStatus, Extension.content, ByteArrayProducer.put,
        putU32Be, ByteArrayProducer.putU24Be, Option.bind_assoc, flag]
  | dlUserData ext =>
    rcases ext with ⟨discard, flush, polling, outOfSeq, report, existence, assistance, re, sn⟩
    simp only [Extension.accepted, Bool.not_eq_true', Bool.or_eq_false_iff] at h
    obtain ⟨⟨⟨⟨⟨⟨⟨rfl, rfl⟩, rfl⟩, rfl⟩, rfl⟩, rfl⟩, rfl⟩, rfl⟩ := h
    simp [serializeContent, serializeDlUserData, Extension.content, ByteArrayProducer.put, ByteArrayProducer.putU24Be,
      flag]

theorem length_content_le (ext : Extension) : ext.content.length ≤ 9 := by
  cases ext with
  | dlDataDeliveryStatus ext =>
    rw [Extension.content]
    split <;> simp
  | _ => simp [Extension.content]

theorem length_body (ext : Extension) (next : ExtensionType) :
    (ext.body next).length = ext.content.length + (3 - (ext.content.length + 1) % 4) + 1 := by
  simp only [Extension.body, length_append, length_replicate, length_singleton]

theorem length_octets (ext : Extension) (next : ExtensionType) : (ext.octets next).length = (ext.body next).length + 1 :=
  rfl

theorem finishExtension_eq {content : List UInt8} {outLen : Nat} (hle : content.length + 1 ≤ outLen)
    (hshort : content.length ≤ 9) (next : ExtensionType) : finishExtension next ⟨outLen, 0 :: content⟩ =
      let body := content ++ List.replicate (3 - (content.length + 1) % 4) 0 ++ [serializeGtpuExtensionType next]
      .ok (if body.length + 1 ≤ outLen then some (UInt8.ofNat ((body.length + 1) / 4) :: body) else none) := by
  have hput : ((ByteArrayProducer.mk outLen (0 :: content)).pad 3).bind
      (fun b => b.putByte (serializeGtpuExtensionType next)) = (ByteArrayProducer.mk outLen (0 :: content)).put
        (List.replicate (3 - (content.length + 1) % 4) 0 ++ [serializeGtpuExtensionType next]) := by
    rw [ByteArrayProducer.pad_eq (Nat.sub_le _ _), ByteArrayProducer.put_append]
    simp [ByteArrayProducer.put]
  rw [finishExtension, hput, @ByteArrayProducer.put_eq ⟨outLen, 0 :: content⟩ hle]
  obtain ⟨rest, hrest⟩ : ∃ rest, List.replicate (3 - (content.length + 1) % 4) 0 ++
    [serializeGtpuExtensionType next] = rest := ⟨_, rfl⟩
  have hlen : rest.length ≤ 4 := by
    rw [← hrest, length_append, length_replicate, length_singleton]
    omega
  simp only [append_assoc, hrest, length_cons, cons_append, length_append]
  by_cases hfits : content.length + rest.length + 1 ≤ outLen
  · rw [if_pos (by omega), if_pos hfits]
    simp only [length_cons, length_append, drop_succ_cons, drop_zero]
    rw [if_neg (by omega)]
  · rw [if_neg (by omega), if_neg hfits]

theorem serializeExtension_eq (h : ext.accepted = true) (next : ExtensionType) (outLen : Nat) :
    serializeExtension ext next outLen =
      .ok (if (ext.octets next).length ≤ outLen then some (ext.octets next) else none) := by
  have hlen := length_body ext next
  rw [serializeExtension, ByteArrayProducer.putByte, length_octets]
  by_cases hzero : outLen = 0
  · rw [if_pos (by rw [hzero]; rfl), if_neg (by omega)]
  · rw [if_neg (by simpa using fun h => hzero h.symm)]
    show (serializeContent ⟨outLen, [0]⟩ ext >>= _) = _
    rw [serializeContent_eq h, ByteArrayProducer.put_eq (by simp only [length_singleton]; omega)]
    simp only [length_singleton, singleton_append]
    by_cases hfits : 1 + ext.content.length ≤ outLen
    · rw [if_pos hfits]
      exact finishExtension_eq (by omega) (length_content_le ext) next
    · rw [if_neg hfits, if_neg (by omega)]
      rfl

def extensionOctets : List Extension → List UInt8
  | [] => []
  | ext :: exts => ext.octets ((exts.head?.map Extension.type).getD .none) ++ extensionOctets exts

theorem serializeExtensions_eq {exts : List Extension} (h : ∀ ext ∈ exts, ext.accepted = true) {size : Nat}
    {written : List UInt8} (hle : written.length ≤ size) :
    serializeExtensions size written exts = .ok (if (written ++ extensionOctets exts).length ≤ size then
      some (written ++ extensionOctets exts) else none) := by
  induction exts generalizing written with
  | nil => rw [serializeExtensions, extensionOctets, append_nil, if_pos hle]
  | cons ext exts ih =>
    obtain ⟨hext, hexts⟩ := forall_mem_cons.mp h
    rw [serializeExtensions, serializeExtension_eq hext, extensionOctets, ok_bind, ← append_assoc]
    generalize ext.octets ((exts.head?.map Extension.type).getD .none) = bytes
    by_cases hfits : bytes.length ≤ size - written.length
    · rw [if_pos hfits]
      exact ih hexts (by rw [length_append]; omega)
    · rw [if_neg hfits, if_neg (by simp only [length_append]; omega)]

end Extensions

section Message

variable {bearer : Bearer} {msgType : UInt8} {msg : List UInt8} {seqNumFlag npduNumFlag : Bool} {exts : List Extension}

def headerRest (bearer : Bearer) (seqNumFlag npduNumFlag : Bool) (exts : List Extension) : List UInt8 :=
  (if npduNumFlag || seqNumFlag || !exts.isEmpty then optionalFields bearer seqNumFlag npduNumFlag exts else []) ++
    extensionOctets exts

def packet (bearer : Bearer) (msgType : UInt8) (msg : List UInt8) (seqNumFlag npduNumFlag : Bool)
    (exts : List Extension) : List UInt8 :=
  let rest := headerRest bearer seqNumFlag npduNumFlag exts ++ msg
  msgHeader bearer msgType seqNumFlag npduNumFlag exts rest.length ++ rest

theorem gtpv1uCreateAndSendMsg_eq (h : ∀ ext ∈ exts, ext.accepted = true) (hmsg : msg.length + hdrMax < 65536) :
    gtpv1uCreateAndSendMsg bearer msgType msg seqNumFlag npduNumFlag exts =
      if (headerRest bearer seqNumFlag npduNumFlag exts).length + 8 < hdrMax then
        .ok (some (packet bearer msgType msg seqNumFlag npduNumFlag exts))
      else if (headerRest bearer seqNumFlag npduNumFlag exts).length + 8 = hdrMax then .error .assertFatal
      else .ok none := by
  rw [gtpv1uCreateAndSendMsg, if_neg (Nat.not_le.mpr hmsg), packet, headerRest]
  generalize hfields : (if npduNumFlag || seqNumFlag || !exts.isEmpty then
    optionalFields bearer seqNumFlag npduNumFlag exts else []) = fields
  have hlen : fields.length ≤ 4 := by
    rw [← hfields]
    split <;> simp [optionalFields]
  have hheader : (msgHeader bearer msgType seqNumFlag npduNumFlag exts 0).length = 8 := rfl
  have hsize : hdrMax = 256 := rfl
  dsimp only
  rw [serializeExtensions_eq h (by rw [length_append, hheader]; omega), ok_bind, append_assoc,
    length_append, hheader]
  generalize fields ++ extensionOctets exts = rest
  by_cases hwritten : 8 + rest.length ≤ msg.length + hdrMax
  · rw [if_pos hwritten]
    simp only [length_append, hheader]
    rcases Nat.lt_trichotomy (rest.length + 8) hdrMax with hlt | heq | hgt
    · rw [if_neg (by omega), if_neg (by omega), if_pos hlt]
      simp [msgHeader]
    · rw [if_neg (by omega), if_pos (by omega), if_neg (by omega), if_pos heq]
    · rw [if_pos (by omega), if_neg (by omega), if_neg (by omega)]
  · rw [if_neg hwritten, if_neg (by omega), if_neg (by omega)]

end Message

end OaiNr.Gtpu
