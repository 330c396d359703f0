import OaiNr.Gtpu.Lemmas.Codec

/-!
# Written packets and TS 29.281

A packet that `gtpv1uCreateAndSendMsg` sends has its fields in network order except for the sequence number, and the
receiver gets the message and the QFI back from it, if the QFI has six bits.
-/

namespace OaiNr.Gtpu

section Specification

def networkOrder (octets v : Nat) : List UInt8 := (List.range octets).reverse.map fun i => UInt8.ofNat (v / 256 ^ i)

def specContent : Extension → List UInt8
  | .none => []
  | .ulPduSessionInformation ext => [0x10, UInt8.ofNat (ext.qfi % 256).toNat]
  | .dlDataDeliveryStatus ext =>
    [0x10 ||| flag ext.highestTransmittedNrPdcpSnInd 3, 0] ++ networkOrder 4 ext.desiredBufferSize.toNat ++
      if ext.highestTransmittedNrPdcpSnInd then networkOrder 3 ext.highestTransmittedNrPdcpSn.toNat else []
  | .dlUserData ext => [0, 0] ++ networkOrder 3 ext.nruSequenceNumber.toNat

/-- TS 29.281, 5.2.1: an extension header has whole words, with its length in the first octet and the type of the next
one in the last. -/
def specExtension (ext : Extension) (next : ExtensionType) : List UInt8 :=
  let words := ((specContent ext).length + 5) / 4
  UInt8.ofNat words :: (specContent ext ++ List.replicate (4 * words - 2 - (specContent ext).length) 0 ++
    [serializeGtpuExtensionType next])

def specExtensions : List Extension → List UInt8
  | [] => []
  | ext :: exts => specExtension ext ((exts.head?.map Extension.type).getD .none) ++ specExtensions exts

def specFields (bearer : Bearer) (seqNumFlag npduNumFlag : Bool) (exts : List Extension) : List UInt8 :=
  if npduNumFlag || seqNumFlag || !exts.isEmpty then
    networkOrder 2 (if seqNumFlag then bearer.seqNum.toNat else 0) ++ [if npduNumFlag then bearer.npduNum else 0,
      serializeGtpuExtensionType ((exts.head?.map Extension.type).getD .none)]
  else []

def specPacket (bearer : Bearer) (msgType : UInt8) (msg : List UInt8) (seqNumFlag npduNumFlag : Bool)
    (exts : List Extension) : List UInt8 :=
  let rest := specFields bearer seqNumFlag npduNumFlag exts ++ specExtensions exts ++ msg
  [flagsOctet seqNumFlag npduNumFlag exts, msgType] ++ networkOrder 2 rest.length ++
    networkOrder 4 bearer.teidOutgoing.toNat ++ rest

def UeidData.Takes (ue : UeidData) (exts : List Extension) : Prop :=
  (ulQfi exts = none → ue.callBack = true) ∧ ((ulQfi exts).isSome → ue.callBackSdap = true)

/-- The message at the end of the packet is handed on, with the QFI of the PDU session container; an empty message is
not handed on. -/
def Recovers (ue : UeidData) (packet' msg : List UInt8) (exts : List Extension) (outs : List Output) : Prop :=
  let start := packet'.length - msg.length
  packet'.drop start = msg ∧
    if msg = [] then outs = []
    else match ulQfi exts with
      | some qfi => ∃ (q : Nat) (rqi : Bool), (q : Int) = qfi ∧ outs = [.sdap ue start msg.length q rqi]
      | none => outs = [.sdu ue start msg.length]

end Specification

variable {bearer : Bearer} {msgType : UInt8} {msg packet' : List UInt8} {seqNumFlag npduNumFlag : Bool}
  {exts : List Extension} {node : Node} {ue : UeidData} {rounds : Nat}

section NetworkOrder

theorem content_eq_spec (ext : Extension) : ext.content = specContent ext := by
  cases ext with
  | dlDataDeliveryStatus ext =>
    rw [Extension.content, specContent]
    cases ext.highestTransmittedNrPdcpSnInd <;> rfl
  | _ => rfl

theorem octets_eq_spec (ext : Extension) (next : ExtensionType) : ext.octets next = specExtension ext next := by
  have hpad : 3 - ((specContent ext).length + 1) % 4 =
      4 * (((specContent ext).length + 5) / 4) - 2 - (specContent ext).length := by omega
  have hwords : ((specContent ext).length + (3 - ((specContent ext).length + 1) % 4) + 1 + 1) / 4 =
      ((specContent ext).length + 5) / 4 := by omega
  rw [Extension.octets, length_body, Extension.body, content_eq_spec, specExtension, hwords, hpad]

theorem extensionOctets_eq_spec (exts : List Extension) : extensionOctets exts = specExtensions exts := by
  induction exts with
  | nil => rfl
  | cons ext exts ih => rw [extensionOctets, specExtensions, octets_eq_spec, ih]

def SameOctets (seqNum : UInt16) : Prop := seqNum.toNat % 256 = seqNum.toNat / 256

theorem octets_swapped_iff (seqNum : UInt16) :
    UInt8.ofNat seqNum.toNat = UInt8.ofNat (seqNum.toNat / 256) ↔ SameOctets seqNum := by
  have hlt := seqNum.toNat_lt
  rw [← UInt8.toNat_inj, UInt8.toNat_ofNat', UInt8.toNat_ofNat', SameOctets]
  omega

theorem networkOrder_two (v : Nat) : networkOrder 2 v = [UInt8.ofNat (v / 256), UInt8.ofNat v] := by
  simp [networkOrder, List.range_succ]

theorem optionalFields_eq_spec_iff : optionalFields bearer seqNumFlag npduNumFlag exts =
      networkOrder 2 (if seqNumFlag then bearer.seqNum.toNat else 0) ++ [if npduNumFlag then bearer.npduNum else 0,
        serializeGtpuExtensionType ((exts.head?.map Extension.type).getD .none)] ↔
      (seqNumFlag = true → SameOctets bearer.seqNum) := by
  rw [optionalFields, networkOrder_two]
  cases seqNumFlag with
  | false => exact iff_of_true (by simp) Bool.false_ne_true.elim
  | true =>
    have hiff := octets_swapped_iff bearer.seqNum
    constructor
    · intro heq _
      exact hiff.mp (List.cons.inj heq).1
    · intro hsame
      have heq := hiff.mpr (hsame rfl)
      simp only [if_true, heq, List.cons_append, List.nil_append]

theorem fields_eq_spec_iff :
    (if npduNumFlag || seqNumFlag || !exts.isEmpty then optionalFields bearer seqNumFlag npduNumFlag exts else []) =
      specFields bearer seqNumFlag npduNumFlag exts ↔ (seqNumFlag = true → SameOctets bearer.seqNum) := by
  rw [specFields]
  split
  next => exact optionalFields_eq_spec_iff
  next hflags =>
    refine iff_of_true rfl fun hseq => absurd ?_ hflags
    rw [hseq, Bool.or_true, Bool.true_or]

theorem packet_eq_spec_iff :
    packet bearer msgType msg seqNumFlag npduNumFlag exts = specPacket bearer msgType msg seqNumFlag npduNumFlag exts ↔
      (seqNumFlag = true → SameOctets bearer.seqNum) := by
  have hheader : ∀ length, msgHeader bearer msgType seqNumFlag npduNumFlag exts length =
      [flagsOctet seqNumFlag npduNumFlag exts, msgType] ++ networkOrder 2 length ++
        networkOrder 4 bearer.teidOutgoing.toNat := by
    intro length
    rw [networkOrder_two]
    rfl
  have hlength : (headerRest bearer seqNumFlag npduNumFlag exts ++ msg).length =
      (specFields bearer seqNumFlag npduNumFlag exts ++ specExtensions exts ++ msg).length := by
    rw [headerRest, specFields, extensionOctets_eq_spec]
    simp only [List.length_append]
    split
    · rw [networkOrder_two]
      rfl
    · rfl
  rw [packet, specPacket, ← hheader, hlength, List.append_cancel_left_eq, List.append_cancel_right_eq, headerRest,
    extensionOctets_eq_spec, List.append_cancel_right_eq]
  exact fields_eq_spec_iff

end NetworkOrder

section Receiver

theorem deliver_of_takes {h : Headers} {len offset : Nat} (hqfi : h.qfi = (ulQfi exts).map readQfi)
    (htakes : ue.Takes exts) (hsize : ((len : Int) - offset).bmod (2 ^ 32) = msg.length) :
    deliver ue len offset h = .ok (if msg = [] then [] else match ulQfi exts with
      | some qfi => [.sdap ue offset msg.length (readQfi qfi) h.rqi]
      | none => [.sdu ue offset msg.length]) := by
  rw [deliver, hsize, hqfi]
  by_cases hmsg : msg = []
  · rw [if_pos hmsg, hmsg]
    rfl
  · have hpos : 0 < (msg.length : Int) := Int.natCast_pos.mpr (List.length_pos_iff.mpr hmsg)
    rw [if_neg hmsg, if_pos hpos]
    cases hul : ulQfi exts with
    | none => simp only [Option.map_none, htakes.1 hul, if_true]
    | some qfi => simp only [Option.map_some, htakes.2 (hul ▸ rfl)]

theorem receive_packet (hsent : IsSent bearer 255 msg seqNumFlag npduNumFlag exts packet')
    (htunnel : node.te2ue bearer.teidOutgoing.toNat = some ue) (htakes : ue.Takes exts)
    (hrounds : exts.length ≤ rounds) :
    ∃ rqi, gtpv1uReceiveHandleMessage (inPayload packet') node rounds packet'.length =
      .ok (if msg = [] then [] else match ulQfi exts with
        | some qfi => [.sdap ue (packet'.length - msg.length) msg.length (readQfi qfi) rqi]
        | none => [.sdu ue (packet'.length - msg.length) msg.length]) := by
  obtain ⟨haccepted, hmsg, hrest, rfl⟩ := hsent
  let mem := buffer (packet bearer 255 msg seqNumFlag npduNumFlag exts) fun _ => 0
  have hgpdu : IsGpdu mem (packet bearer 255 msg seqNumFlag npduNumFlag exts).length node ue :=
    { isMessage_packet hmsg hrest with
      valid := flagsOctet_valid
      tunnel := by rw [be32_packet, htunnel] }
  have hstart : (packet bearer 255 msg seqNumFlag npduNumFlag exts).length - msg.length =
      8 + (headerRest bearer seqNumFlag npduNumFlag exts).length := by
    rw [length_packet, Nat.add_sub_cancel]
  rw [hstart, receive_payload_of_isGpdu hgpdu]
  show ∃ rqi, readHeaders _ _ _ (flagsOctet seqNumFlag npduNumFlag exts) >>= _ = _
  rw [readHeaders_packet haccepted hrounds, ok_bind, finishGpdu]
  have hqfi := foldl_headers_qfi exts ⟨none, false, 0⟩
  have hsn := foldl_headers_nrPdcpPduSn exts ⟨none, false, 0⟩
  generalize exts.foldl Extension.headers ⟨none, false, 0⟩ = h at hqfi hsn
  rw [Option.or_none] at hqfi
  have hreport : reportDelivery node ue h = .ok [] := by
    rw [reportDelivery, hsn]
    exact if_neg (by simp)
  have hsize : (((packet bearer 255 msg seqNumFlag npduNumFlag exts).length : Int) -
      (8 + (headerRest bearer seqNumFlag npduNumFlag exts).length : Nat)).bmod (2 ^ 32) = msg.length := by
    rw [hgpdu.size_eq (.inl (by rw [length_packet]; omega)), length_packet]
    omega
  refine ⟨h.rqi, ?_⟩
  rw [hreport, deliver_of_takes hqfi htakes hsize]
  exact congrArg Except.ok (List.append_nil _)

end Receiver

section EncodeDecode

theorem recovers_iff (hsent : IsSent bearer 255 msg seqNumFlag npduNumFlag exts packet') {rqi : Bool} :
    Recovers ue packet' msg exts (if msg = [] then [] else match ulQfi exts with
        | some qfi => [.sdap ue (packet'.length - msg.length) msg.length (readQfi qfi) rqi]
        | none => [.sdu ue (packet'.length - msg.length) msg.length]) ↔
      (msg ≠ [] → ∀ qfi, ulQfi exts = some qfi → 0 ≤ qfi ∧ qfi < 64) := by
  have hdrop : packet'.drop (packet'.length - msg.length) = msg := by
    rw [hsent.eq, length_packet, Nat.add_sub_cancel, drop_packet]
  rw [Recovers, and_iff_right hdrop]
  by_cases hmsg : msg = []
  · rw [if_pos hmsg, if_pos hmsg]
    exact iff_of_true rfl fun h => absurd hmsg h
  · rw [if_neg hmsg, if_neg hmsg]
    cases hul : ulQfi exts with
    | none => exact iff_of_true rfl fun _ => nofun
    | some qfi =>
      simp only [Option.some.injEq, forall_eq', ne_eq, hmsg, not_false_eq_true, forall_const]
      rw [← readQfi_eq_iff]
      constructor
      · rintro ⟨q, rqi', hq, houts⟩
        cases houts
        exact hq
      · exact fun hq => ⟨readQfi qfi, rqi, hq, rfl⟩

def Decodes (bearer : Bearer) (msg : List UInt8) (exts : List Extension) (packet' : List UInt8) : Prop :=
  ∀ node ue, node.te2ue bearer.teidOutgoing.toNat = some ue → ue.Takes exts → ∀ rounds, exts.length ≤ rounds →
    ∃ outs, gtpv1uReceiveHandleMessage (inPayload packet') node rounds packet'.length = .ok outs ∧
      Recovers ue packet' msg exts outs

theorem decodes_iff (hsent : IsSent bearer 255 msg seqNumFlag npduNumFlag exts packet') :
    Decodes bearer msg exts packet' ↔ (msg ≠ [] → ∀ qfi, ulQfi exts = some qfi → 0 ≤ qfi ∧ qfi < 64) := by
  constructor
  · intro hdecodes
    let ue : UeidData := ⟨0, 0, true, 0, true, 0⟩
    obtain ⟨outs, hreceive, hrecovers⟩ := hdecodes ⟨fun _ => some ue, true, fun _ _ => 0⟩ ue rfl
      ⟨fun _ => rfl, fun _ => rfl⟩ exts.length (Nat.le_refl _)
    obtain ⟨rqi, hreceive'⟩ := @receive_packet bearer msg packet' seqNumFlag npduNumFlag exts
      ⟨fun _ => some ue, true, fun _ _ => 0⟩ ue exts.length hsent rfl ⟨fun _ => rfl, fun _ => rfl⟩ (Nat.le_refl _)
    cases hreceive.symm.trans hreceive'
    exact (recovers_iff hsent).mp hrecovers
  · intro hqfi node ue htunnel htakes rounds hrounds
    obtain ⟨rqi, hreceive⟩ := receive_packet hsent htunnel htakes hrounds
    exact ⟨_, hreceive, (recovers_iff hsent).mpr hqfi⟩

structure IsEchoRequest (request : List UInt8) : Prop extends
    IsMessage (buffer request fun _ => 0) request.length 1 where
  valid : validHeader (buffer request (fun _ => 0) 0) = true
  seqNum : hasSeqNum (buffer request (fun _ => 0) 0) = true
  fields : 10 ≤ request.length

theorem receive_echoRequest {request : List UInt8} (hecho : IsEchoRequest request) :
    ∃ answer, gtpv1uReceiveHandleMessage (inPayload request) node rounds request.length = .ok [.send answer] ∧
      answer[8]? = request[9]? ∧ answer[9]? = request[8]? := by
  let mem := buffer request fun _ => 0
  have hreceive : gtpv1uReceiveHandleMessage (inPayload request) node rounds request.length =
      .ok [.send (packet ⟨UInt32.ofNat (be32 mem 4), UInt16.ofNat (be16 mem 8), 0⟩ 2 [14, 0] true false [])] := by
    rw [receive_payload_of_isMessage hecho.toIsMessage, if_pos rfl,
      gtpv1uHandleEchoReq_payload hecho.header fun _ _ => hecho.fields]
    exact gtpv1uHandleEchoReq_eq hecho.valid hecho.seqNum
  have hseq : (UInt16.ofNat (be16 mem 8)).toNat = (mem 8).toNat * 256 + (mem 9).toNat := by
    have hhi := (mem 8).toNat_lt
    have hlo := (mem 9).toNat_lt
    rw [UInt16.toNat_ofNat']
    show ((mem 8).toNat * 256 + (mem 9).toNat) % 2 ^ 16 = _
    omega
  have hlow : UInt8.ofNat (UInt16.ofNat (be16 mem 8)).toNat = mem 9 := by
    have hlo := (mem 9).toNat_lt
    rw [hseq, ← UInt8.toNat_inj, UInt8.toNat_ofNat']
    omega
  have hhigh : UInt8.ofNat ((UInt16.ofNat (be16 mem 8)).toNat / 256) = mem 8 := by
    have hhi := (mem 8).toNat_lt
    have hlo := (mem 9).toNat_lt
    rw [hseq, ← UInt8.toNat_inj, UInt8.toNat_ofNat']
    omega
  have hrequest : ∀ i, i < request.length → request[i]? = some (mem i) := by
    intro i hi
    show _ = some (request.getD i 0)
    rw [List.getD_eq_getElem?_getD, List.getElem?_eq_getElem hi]
    rfl
  have hten := hecho.fields
  refine ⟨_, hreceive, ?_, ?_⟩
  · rw [hrequest 9 (by omega), ← hlow]
    rfl
  · rw [hrequest 8 (by omega), ← hhigh]
    rfl

/-- What is sent is what TS 29.281 says, and is received as it was meant, exactly if the order of the sequence number's
octets does not matter and the QFI has six bits. The answer to an echo request carries its sequence number exactly if
the order of the octets does not matter there. -/
theorem gtpu_encode_decode_iff (bearer : Bearer) (msgType : UInt8) (msg : List UInt8) (seqNumFlag npduNumFlag : Bool)
    (exts : List Extension) (packet' : List UInt8)
    (hsent : gtpv1uCreateAndSendMsg bearer msgType msg seqNumFlag npduNumFlag exts = .ok (some packet')) :
    ((packet' = specPacket bearer msgType msg seqNumFlag npduNumFlag exts ∧
        (msgType = 255 → Decodes bearer msg exts packet')) ↔ (seqNumFlag = true → SameOctets bearer.seqNum) ∧
        (msgType = 255 → msg ≠ [] → ∀ qfi, ulQfi exts = some qfi → 0 ≤ qfi ∧ qfi < 64)) ∧
    ∀ request node rounds, IsEchoRequest request →
      ∃ answer, gtpv1uReceiveHandleMessage (inPayload request) node rounds request.length = .ok [.send answer] ∧
        ((answer[8]? = request[8]? ∧ answer[9]? = request[9]?) ↔ request[8]? = request[9]?) := by
  have hsent := isSent_of_create hsent
  refine ⟨and_congr ?_ (forall_congr' fun htype => ?_), fun request node rounds hecho => ?_⟩
  · rw [hsent.eq]
    exact packet_eq_spec_iff
  · subst htype
    exact decodes_iff hsent
  · obtain ⟨answer, hreceive, height, hnine⟩ := @receive_echoRequest node rounds request hecho
    refine ⟨answer, hreceive, ?_⟩
    rw [height, hnine]
    exact ⟨fun h => h.2, fun h => ⟨h.symm, h⟩⟩

/-- A G-PDU with a PDU session container and a sequence number whose octets are the same -/
theorem gtpu_encode_decode_same_octets : let bearer : Bearer := ⟨1, 0x0101, 0⟩
    let exts := [Extension.ulPduSessionInformation ⟨false, false, false, false, false, false, 5⟩]
    let sent := packet bearer 255 [42] true false exts
    gtpv1uCreateAndSendMsg bearer 255 [42] true false exts = .ok (some sent) ∧
      sent = specPacket bearer 255 [42] true false exts ∧ (255 = (255 : UInt8) → Decodes bearer [42] exts sent) := by
  intro bearer exts sent
  have haccepted : ∀ ext ∈ exts, ext.accepted = true := List.forall_mem_singleton.mpr rfl
  have hsent : gtpv1uCreateAndSendMsg bearer 255 [42] true false exts = .ok (some sent) := by
    rw [gtpv1uCreateAndSendMsg_eq haccepted (by decide)]
    exact if_pos (by decide)
  refine ⟨hsent, (gtpu_encode_decode_iff bearer 255 [42] true false exts sent hsent).1.mpr ⟨fun _ => ?_, ?_⟩⟩
  · show 257 % 256 = 257 / 256
    decide
  · rintro - - qfi hqfi
    cases hqfi
    decide

/-- The sequence number 1 is sent as 256. -/
theorem gtpu_sequence_number_swapped : let bearer : Bearer := ⟨1, 1, 0⟩
    ∃ sent, gtpv1uCreateAndSendMsg bearer 255 [42] true false [] = .ok (some sent) ∧
      sent ≠ specPacket bearer 255 [42] true false [] ∧ be16 (buffer sent fun _ => 0) 8 = 256 := by
  intro bearer
  have hsent : gtpv1uCreateAndSendMsg bearer 255 [42] true false [] =
      .ok (some (packet bearer 255 [42] true false [])) := by
    rw [gtpv1uCreateAndSendMsg_eq (List.forall_mem_nil _) (by decide)]
    exact if_pos (by decide)
  exact ⟨_, hsent, by decide, by decide⟩

end EncodeDecode

end OaiNr.Gtpu
