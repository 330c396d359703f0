import OaiNr.Gtpu.Lemmas.Extensions
import OaiNr.Gtpu.Lemmas.Packet

/-!
# The messages in the buffer
-/

namespace OaiNr.Gtpu

variable {mem : Nat → UInt8} {node : Node} {ue : UeidData} {len rounds : Nat} {type : UInt8}

section Sending

theorem sent_ok {r : Except Fault (Option (List UInt8))} {packet : List UInt8} (h : r = .ok (some packet)) :
    sent r = .ok [.send packet] := by
  rw [h]
  rfl

theorem echoResponse_eq (bearer : Bearer) :
    gtpv1uCreateAndSendMsg bearer 2 [14, 0] true false [] = .ok (some (packet bearer 2 [14, 0] true false [])) := by
  rw [gtpv1uCreateAndSendMsg_eq (List.forall_mem_nil _) (by decide)]
  exact if_pos (by simp [headerRest, optionalFields, extensionOctets, hdrMax])

theorem statusReport_accepted (space : UInt32) (sn : Nat) : (fillDlDeliveryStatusReport space sn).accepted = true := rfl

theorem statusReport_eq (bearer : Bearer) (space : UInt32) (sn : Nat) :
    gtpv1uCreateAndSendMsg bearer 255 [] false false [fillDlDeliveryStatusReport space sn] =
      .ok (some (packet bearer 255 [] false false [fillDlDeliveryStatusReport space sn])) := by
  have haccepted : ∀ ext ∈ [fillDlDeliveryStatusReport space sn], ext.accepted = true :=
    List.forall_mem_singleton.mpr (statusReport_accepted space sn)
  rw [gtpv1uCreateAndSendMsg_eq haccepted (by decide)]
  refine if_pos ?_
  have hlen := length_body (fillDlDeliveryStatusReport space sn) .none
  have hcontent := length_content_le (fillDlDeliveryStatusReport space sn)
  simp only [headerRest, optionalFields, extensionOctets, List.length_append, List.append_nil, length_octets, hdrMax]
  simp only [List.head?_nil, Option.map_none, Option.getD_none, List.isEmpty_cons, Bool.not_false, Bool.or_true,
    if_true, List.length_cons, List.length_nil]
  omega

theorem reportDelivery_ok (node : Node) (ue : UeidData) (h : Headers) :
    ∃ packets, reportDelivery node ue h = .ok (List.map Output.send packets) ∧
      (packets ≠ [] ↔ ue.callBackSdap = false ∧ 0 < h.nrPdcpPduSn ∧ h.nrPdcpPduSn % 5 = 0) := by
  unfold reportDelivery
  split
  next hreport => exact ⟨[_], sent_ok (statusReport_eq _ _ _), by simpa [and_assoc] using hreport⟩
  next hreport => exact ⟨[], rfl, by simpa [and_assoc] using hreport⟩

end Sending

section Handlers

theorem gtpv1uHandleEchoReq_eq (hvalid : validHeader (mem 0) = true) (hseq : hasSeqNum (mem 0) = true) :
    gtpv1uHandleEchoReq (inBuffer mem) = .ok [.send (packet ⟨UInt32.ofNat (be32 mem 4), UInt16.ofNat (be16 mem 8), 0⟩
      2 [14, 0] true false [])] := by
  have hread : gtpv1uHandleEchoReq (inBuffer mem) = if !validHeader (mem 0) then .ok [] else
      if !hasSeqNum (mem 0) then .ok [] else sent (gtpv1uCreateAndSendMsg
        ⟨UInt32.ofNat (be32 mem 4), UInt16.ofNat (be16 mem 8), 0⟩ 2 [14, 0] true false []) := rfl
  rw [hread, hvalid, hseq]
  exact sent_ok (echoResponse_eq _)

theorem gtpv1uHandleEchoReq_ok (mem : Nat → UInt8) :
    ∃ packets, gtpv1uHandleEchoReq (inBuffer mem) = .ok (List.map Output.send packets) ∧
      (packets ≠ [] → validHeader (mem 0) = true ∧ hasSeqNum (mem 0) = true) := by
  by_cases hvalid : validHeader (mem 0) = true
  · by_cases hseq : hasSeqNum (mem 0) = true
    · exact ⟨[_], gtpv1uHandleEchoReq_eq hvalid hseq, fun _ => ⟨hvalid, hseq⟩⟩
    · refine ⟨[], ?_, fun h => absurd rfl h⟩
      rw [gtpv1uHandleEchoReq, inBuffer, ok_bind, hvalid, Bool.eq_false_iff.mpr hseq]
      rfl
  · refine ⟨[], ?_, fun h => absurd rfl h⟩
    rw [gtpv1uHandleEchoReq, inBuffer, ok_bind, Bool.eq_false_iff.mpr hvalid]
    rfl

theorem readBe32_inBuffer (mem : Nat → UInt8) (i : Nat) : readBe32 (inBuffer mem) i = .ok (be32 mem i) := rfl

theorem gtpv1uHandleEndMarker_cases (node : Node) (hmsg : IsMessage mem len 254) :
    gtpv1uHandleEndMarker (inBuffer mem) node = .ok [] ∨ ∃ ue, IsEndMarker mem len node ue ∧
      gtpv1uHandleEndMarker (inBuffer mem) node = if ue.callBack then .ok [.endMarker ue] else .error .nullCallback := by
  rw [gtpv1uHandleEndMarker, inBuffer, ok_bind, readBe32_inBuffer, ok_bind]
  split
  · exact .inl rfl
  next hvalid =>
    split
    · exact .inl rfl
    next hinst =>
      split
      · exact .inl rfl
      next ue htunnel =>
        exact .inr ⟨ue,
          { hmsg with valid := by simpa using hvalid, hasInstance := by simpa using hinst, tunnel := htunnel }, rfl⟩

/-- What `Gtpv1uHandleGpdu` does behind the headers -/
def finishGpdu (node : Node) (ue : UeidData) (len : Nat) : Option (Nat × Headers) → Except Fault (List Output)
  | none => .ok []
  | some (offset, h) => do
    let outs ← deliver ue len offset h
    let reports ← reportDelivery node ue h
    return outs ++ reports

theorem finishGpdu_some (node : Node) (ue : UeidData) (len offset : Nat) (h : Headers) :
    ∃ packets, finishGpdu node ue len (some (offset, h)) =
        (deliver ue len offset h).map (· ++ List.map Output.send packets) ∧
      (packets ≠ [] ↔ ue.callBackSdap = false ∧ 0 < h.nrPdcpPduSn ∧ h.nrPdcpPduSn % 5 = 0) := by
  obtain ⟨packets, hreport, hsent⟩ := reportDelivery_ok node ue h
  refine ⟨packets, ?_, hsent⟩
  rw [finishGpdu, hreport]
  cases deliver ue len offset h <;> rfl

theorem deliver_cases (ue : UeidData) (len offset : Nat) (h : Headers) :
    let size := ((len : Int) - offset).bmod (2 ^ 32)
    (¬ 0 < size ∧ deliver ue len offset h = .ok []) ∨
    (0 < size ∧ ∃ qfi, h.qfi = some qfi ∧ ue.callBackSdap = true ∧
      deliver ue len offset h = .ok [.sdap ue offset size qfi h.rqi]) ∨
    (0 < size ∧ h.qfi.isSome ∧ ue.callBackSdap = false ∧ deliver ue len offset h = .error .assertFatal) ∨
    (0 < size ∧ h.qfi = none ∧
      deliver ue len offset h = if ue.callBack then .ok [.sdu ue offset size] else .error .nullCallback) := by
  intro size
  rw [deliver]
  by_cases hsize : 0 < size
  · rw [if_pos hsize]
    cases hqfi : h.qfi with
    | some qfi =>
      cases hsdap : ue.callBackSdap with
      | true => exact .inr (.inl ⟨hsize, qfi, rfl, rfl, rfl⟩)
      | false => exact .inr (.inr (.inl ⟨hsize, rfl, rfl, rfl⟩))
    | none => exact .inr (.inr (.inr ⟨hsize, rfl, rfl⟩))
  · exact .inl ⟨hsize, if_neg hsize⟩

theorem deliver_ne_endless (ue : UeidData) (len offset : Nat) (h : Headers) :
    deliver ue len offset h ≠ .error .endless := by
  rcases deliver_cases ue len offset h with ⟨-, hd⟩ | ⟨-, qfi, -, -, hd⟩ | ⟨-, -, -, hd⟩ | ⟨-, -, hd⟩ <;> rw [hd]
  · nofun
  · nofun
  · nofun
  · split <;> nofun

theorem finishGpdu_ne_endless (node : Node) (ue : UeidData) (len : Nat) (r : Option (Nat × Headers)) :
    finishGpdu node ue len r ≠ .error .endless := by
  cases r with
  | none => nofun
  | some r =>
    obtain ⟨packets, hfinish, -⟩ := finishGpdu_some node ue len r.1 r.2
    rw [hfinish]
    exact fun h => deliver_ne_endless ue len r.1 r.2 (map_eq_error.mp h)

end Handlers

section Dispatch

theorem receive_of_isMessage (h : IsMessage mem len type) : gtpv1uReceiveHandleMessage (inBuffer mem) node rounds len =
      if type = 1 then gtpv1uHandleEchoReq (inBuffer mem) else if type = 26 then gtpv1uHandleError (inBuffer mem)
      else if type = 254 then gtpv1uHandleEndMarker (inBuffer mem) node
      else if type = 255 then gtpv1uHandleGpdu (inBuffer mem) node rounds len else .ok [] := by
  obtain ⟨hlen, hlength, rfl⟩ := h
  rw [gtpv1uReceiveHandleMessage, if_neg (Nat.not_lt.mpr hlen)]
  exact if_neg fun h => h hlength

theorem receive_of_not_isMessage (h : ¬ IsMessage mem len (mem 1)) :
    gtpv1uReceiveHandleMessage (inBuffer mem) node rounds len = .ok [] := by
  rw [gtpv1uReceiveHandleMessage]
  by_cases hlen : len < 8
  · exact if_pos hlen
  · rw [if_neg hlen]
    exact if_pos fun hlength => h ⟨Nat.not_lt.mp hlen, hlength, rfl⟩

theorem gtpv1uHandleGpdu_read : gtpv1uHandleGpdu (inBuffer mem) node rounds len =
    if !validHeader (mem 0) then .ok [] else
      match node.te2ue (be32 mem 4) with
      | none => .ok []
      | some ue => readHeaders (inBuffer mem) rounds len (mem 0) >>= finishGpdu node ue len := rfl

theorem gtpv1uHandleGpdu_eq (hvalid : validHeader (mem 0) = true) (htunnel : node.te2ue (be32 mem 4) = some ue) :
    gtpv1uHandleGpdu (inBuffer mem) node rounds len =
      readHeaders (inBuffer mem) rounds len (mem 0) >>= finishGpdu node ue len := by
  rw [gtpv1uHandleGpdu_read, hvalid, htunnel]
  rfl

theorem gtpv1uHandleGpdu_ok (h : ∀ ue, validHeader (mem 0) = true → node.te2ue (be32 mem 4) ≠ some ue) :
    gtpv1uHandleGpdu (inBuffer mem) node rounds len = .ok [] := by
  rw [gtpv1uHandleGpdu_read]
  cases hvalid : validHeader (mem 0) with
  | false => rfl
  | true =>
    cases htunnel : node.te2ue (be32 mem 4) with
    | none => rfl
    | some ue => exact absurd htunnel (h ue hvalid)

theorem receive_of_isGpdu (h : IsGpdu mem len node ue) : gtpv1uReceiveHandleMessage (inBuffer mem) node rounds len =
      readHeaders (inBuffer mem) rounds len (mem 0) >>= finishGpdu node ue len := by
  rw [receive_of_isMessage h.toIsMessage, ← gtpv1uHandleGpdu_eq h.valid h.tunnel]
  rfl

theorem IsGpdu.size_eq {offset : Nat} (hgpdu : IsGpdu mem len node ue) (hoffset : offset ≤ len ∨ offset = 12) :
    ((len : Int) - offset).bmod (2 ^ 32) = len - offset := by
  have hhi := (mem 2).toNat_lt
  have hlo := (mem 3).toNat_lt
  have hlength : (mem 2).toNat * 256 + (mem 3).toNat + 8 = len := hgpdu.length
  have hbound : len < 2 ^ 17 := by omega
  clear hlength hhi hlo hgpdu
  refine Int.bmod_eq_of_le ?_ ?_ <;> omega

theorem readHeaders_of_hasExtension {flags : UInt8} (h : hasExtension flags = true) :
    readHeaders (inBuffer mem) rounds len flags =
      extensionLoop (inBuffer mem) len rounds 12 (typeAt mem 12) ⟨none, false, 0⟩ := by
  rw [readHeaders, h]
  rfl

def messageStart (flags : UInt8) : Nat := if hasExtension flags || hasSeqNum flags || hasNpduNum flags then 12 else 8

theorem readHeaders_of_not_hasExtension {flags : UInt8} (h : hasExtension flags = false) :
    readHeaders (inBuffer mem) rounds len flags = .ok (some (messageStart flags, ⟨none, false, 0⟩)) := by
  rw [readHeaders, messageStart, h]
  rfl

theorem receive_cases (mem : Nat → UInt8) (node : Node) (len : Nat) :
    (∃ r, (∀ rounds, gtpv1uReceiveHandleMessage (inBuffer mem) node rounds len = r) ∧
      (¬ ∃ ue, IsGpdu mem len node ue) ∧ ((∃ packets, r = .ok (List.map Output.send packets) ∧
          (packets ≠ [] → IsMessage mem len 1 ∧ validHeader (mem 0) = true ∧ hasSeqNum (mem 0) = true)) ∨
        ∃ ue, IsEndMarker mem len node ue ∧ r = if ue.callBack then .ok [.endMarker ue] else .error .nullCallback)) ∨
    (∃ ue, IsGpdu mem len node ue ∧ hasExtension (mem 0) = false) ∨
    ∃ ue, IsGpdu mem len node ue ∧ hasExtension (mem 0) = true := by
  by_cases hgpdu : ∃ ue, IsGpdu mem len node ue
  · obtain ⟨ue, hgpdu⟩ := hgpdu
    cases hext : hasExtension (mem 0) with
    | false => exact .inr (.inl ⟨ue, hgpdu, rfl⟩)
    | true => exact .inr (.inr ⟨ue, hgpdu, rfl⟩)
  · refine .inl ?_
    by_cases hmsg : IsMessage mem len (mem 1)
    · have hreceive := fun rounds => @receive_of_isMessage mem node len rounds _ hmsg
      by_cases h1 : mem 1 = 1
      · simp only [h1, if_true] at hreceive
        obtain ⟨packets, hok, hsent⟩ := gtpv1uHandleEchoReq_ok mem
        exact ⟨_, hreceive, hgpdu, .inl ⟨packets, hok, fun hne => ⟨h1 ▸ hmsg, hsent hne⟩⟩⟩
      simp only [if_neg h1] at hreceive
      by_cases h26 : mem 1 = 26
      · simp only [h26, if_true] at hreceive
        exact ⟨_, hreceive, hgpdu, .inl ⟨[], rfl, fun h => absurd rfl h⟩⟩
      simp only [if_neg h26] at hreceive
      by_cases h254 : mem 1 = 254
      · simp only [h254, if_true] at hreceive
        refine ⟨_, hreceive, hgpdu, ?_⟩
        rcases gtpv1uHandleEndMarker_cases node (h254 ▸ hmsg) with h | h
        · exact .inl ⟨[], h, fun h => absurd rfl h⟩
        · exact .inr h
      simp only [if_neg h254] at hreceive
      by_cases h255 : mem 1 = 255
      · refine ⟨.ok [], fun rounds => ?_, hgpdu, .inl ⟨[], rfl, fun h => absurd rfl h⟩⟩
        rw [hreceive, if_pos h255]
        refine gtpv1uHandleGpdu_ok fun ue hvalid htunnel => hgpdu ⟨ue, ?_⟩
        exact { hmsg with type := h255, valid := hvalid, tunnel := htunnel }
      · simp only [if_neg h255] at hreceive
        exact ⟨_, hreceive, hgpdu, .inl ⟨[], rfl, fun h => absurd rfl h⟩⟩
    · exact ⟨.ok [], fun rounds => receive_of_not_isMessage hmsg, hgpdu, .inl ⟨[], rfl, fun h => absurd rfl h⟩⟩

end Dispatch

end OaiNr.Gtpu
