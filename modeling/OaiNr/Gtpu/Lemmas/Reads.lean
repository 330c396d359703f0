import OaiNr.Gtpu.Lemmas.Messages

/-!
# Reads of the packet and of the buffer
-/

namespace OaiNr.Gtpu

section Payload

variable {payload : List UInt8} {left : Nat → UInt8} {node : Node} {ue : UeidData} {rounds : Nat} {type : UInt8}

theorem inPayload_lt (left : Nat → UInt8) {i : Nat} (hi : i < payload.length) :
    inPayload payload i = .ok (buffer payload left i) := by
  rw [inPayload, buffer, List.getD_eq_getElem?_getD, List.getElem?_eq_getElem hi]
  rfl

theorem inPayload_ge {i : Nat} (hi : payload.length ≤ i) : inPayload payload i = .error .outsidePayload := by
  rw [inPayload, List.getElem?_eq_none hi]

theorem readBe16_lt (left : Nat → UInt8) {i : Nat} (hi : i + 1 < payload.length) :
    readBe16 (inPayload payload) i = .ok (be16 (buffer payload left) i) := by
  rw [readBe16, inPayload_lt left (by omega), inPayload_lt left hi]
  rfl

def Reading {α : Type} (x : Except Fault α) : Prop := x = .error .outsidePayload ∨ ∃ a, x = .ok a

theorem Reading.bind {α β : Type} {x : Except Fault α} {f : α → Except Fault β} (hx : Reading x)
    (hf : ∀ a, Reading (f a)) : Reading (x >>= f) := by
  rcases hx with rfl | ⟨a, rfl⟩
  · exact .inl rfl
  · exact hf a

theorem Reading.bind_outside {α β : Type} {x : Except Fault α} {f : α → Except Fault β} (hx : Reading x)
    (hf : ∀ a, f a = .error .outsidePayload) : x >>= f = .error .outsidePayload := by
  rcases hx with rfl | ⟨a, rfl⟩
  · rfl
  · exact hf a

theorem inPayload_reading (payload : List UInt8) (i : Nat) : Reading (inPayload payload i) := by
  rw [inPayload]
  cases payload[i]? with
  | none => exact .inl rfl
  | some b => exact .inr ⟨b, rfl⟩

theorem readBe16_reading (payload : List UInt8) (i : Nat) : Reading (readBe16 (inPayload payload) i) :=
  (inPayload_reading payload i).bind fun _ => (inPayload_reading payload (i + 1)).bind fun _ => .inr ⟨_, rfl⟩

theorem readBe32_reading (payload : List UInt8) (i : Nat) : Reading (readBe32 (inPayload payload) i) :=
  (readBe16_reading payload i).bind fun _ => (readBe16_reading payload (i + 2)).bind fun _ => .inr ⟨_, rfl⟩

theorem readBe16_ge {i : Nat} (hi : payload.length ≤ i + 1) : readBe16 (inPayload payload) i = .error .outsidePayload :=
  (inPayload_reading payload i).bind_outside fun _ => by rw [inPayload_ge hi, error_bind]

theorem readBe32_lt (left : Nat → UInt8) {i : Nat} (hi : i + 3 < payload.length) :
    readBe32 (inPayload payload) i = .ok (be32 (buffer payload left) i) := by
  rw [readBe32, readBe16_lt left (by omega), readBe16_lt left (by omega)]
  rfl

theorem receive_payload_of_isMessage (hmsg : IsMessage (buffer payload left) payload.length type) :
    gtpv1uReceiveHandleMessage (inPayload payload) node rounds payload.length =
      if type = 1 then gtpv1uHandleEchoReq (inPayload payload)
      else if type = 26 then gtpv1uHandleError (inPayload payload)
      else if type = 254 then gtpv1uHandleEndMarker (inPayload payload) node
      else if type = 255 then gtpv1uHandleGpdu (inPayload payload) node rounds payload.length else .ok [] := by
  obtain ⟨hlen, hlength, rfl⟩ := hmsg
  rw [gtpv1uReceiveHandleMessage, if_neg (Nat.not_lt.mpr hlen), readBe16_lt left (by omega), ok_bind,
    if_neg fun h => h hlength, inPayload_lt left (by omega), ok_bind]

theorem receive_payload_of_not_isMessage
    (hmsg : ¬ IsMessage (buffer payload left) payload.length (buffer payload left 1)) :
    gtpv1uReceiveHandleMessage (inPayload payload) node rounds payload.length = .ok [] := by
  rw [gtpv1uReceiveHandleMessage]
  by_cases hlen : payload.length < 8
  · rw [if_pos hlen]
  · rw [if_neg hlen, readBe16_lt left (by omega), ok_bind]
    exact if_pos fun hlength => hmsg ⟨Nat.not_lt.mp hlen, hlength, rfl⟩

theorem receive_payload_of_isGpdu (hgpdu : IsGpdu (buffer payload left) payload.length node ue) :
    gtpv1uReceiveHandleMessage (inPayload payload) node rounds payload.length =
      readHeaders (inPayload payload) rounds payload.length (buffer payload left 0) >>=
        finishGpdu node ue payload.length := by
  have hlen := hgpdu.header
  rw [receive_payload_of_isMessage hgpdu.toIsMessage]
  show gtpv1uHandleGpdu (inPayload payload) node rounds payload.length = _
  rw [gtpv1uHandleGpdu, inPayload_lt left (by omega), ok_bind, hgpdu.valid, readBe32_lt left (by omega), ok_bind,
    hgpdu.tunnel]
  rfl

theorem gtpv1uHandleEchoReq_payload (hlen : 8 ≤ payload.length) (hseq : validHeader (buffer payload left 0) = true →
      hasSeqNum (buffer payload left 0) = true → 10 ≤ payload.length) :
    gtpv1uHandleEchoReq (inPayload payload) = gtpv1uHandleEchoReq (inBuffer (buffer payload left)) := by
  unfold gtpv1uHandleEchoReq
  rw [inPayload_lt left (by omega), inBuffer, ok_bind, ok_bind]
  refine ite_congr rfl (fun _ => rfl) fun hvalid => ite_congr rfl (fun _ => rfl) fun hflag => ?_
  have hten := hseq (by simpa using hvalid) (by simpa using hflag)
  rw [readBe16_lt left (by omega), readBe32_lt left (by omega)]
  rfl

end Payload

end OaiNr.Gtpu
