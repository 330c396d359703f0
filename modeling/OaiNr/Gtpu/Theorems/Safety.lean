import OaiNr.Gtpu.Lemmas.Reads

/-!
# Safety of the receiver
-/

namespace OaiNr.Gtpu

open Relation (ReflTransGen)

section Specification

def Output.Within (len : Nat) : Output → Prop
  | .sdap _ start size _ _ => 0 ≤ size ∧ start + size ≤ len
  | .sdu _ start size => 0 ≤ size ∧ start + size ≤ len
  | .endMarker _ => True
  | .send _ => True

/-- Nothing fails, apart from a loop that does not end. -/
def Safe (len : Nat) : Except Fault (List Output) → Prop
  | .ok outs => ∀ out ∈ outs, out.Within len
  | .error e => e = .endless

variable (mem : Nat → UInt8) (len : Nat)

def NrRanFits (offset : Nat) : Prop :=
  offset + 1 < len ∧ (mem (offset + 1) >>> 4 &&& 0xf = 0 → offset + 2 < len ∧
    (mem (offset + 2) >>> 3 &&& 1 = 1 → offset + additionalOffset (mem (offset + 1)) + 2 < len))

/-- The octets that are read of an extension header at `offset` are in the packet. A PDU session container that ends
before the octet of the QFI is refused, unless it ends right before it. -/
def Fits (offset : Nat) : Prop :=
  offset < len ∧ (typeAt mem offset = pduSessionContainer → offset + 2 ≠ len) ∧
    (typeAt mem offset = nrRanContainer → NrRanFits mem len offset)

structure WellFormed (env : Env) : Prop where
  /-- An echo request has the sequence number that it says it has, and comes from an IPv4 address. -/
  echo : IsMessage mem len 1 → validHeader (mem 0) = true → hasSeqNum (mem 0) = true → 10 ≤ len ∧ env.ipv4 = true
  /-- An error indication has its two mandatory parts. -/
  error : IsMessage mem len 26 → 16 ≤ len
  endMarker : ∀ ue, IsEndMarker mem len env.node ue → ue.callBack = true
  /-- A G-PDU with extension headers has the optional fields. -/
  fields : ∀ ue, IsGpdu mem len env.node ue → hasExtension (mem 0) = true → 12 ≤ len
  /-- Its extension headers are in the packet. -/
  fits : ∀ ue, IsGpdu mem len env.node ue → hasExtension (mem 0) = true →
    ∀ offset, Chain mem len offset → typeAt mem offset ≠ 0 → Fits mem len offset
  /-- A G-PDU with a QFI and a message comes on a tunnel that has SDAP. -/
  sdap : ∀ ue, IsGpdu mem len env.node ue → hasExtension (mem 0) = true →
    ∀ offset offset', Chain mem len offset → typeAt mem offset = pduSessionContainer → Chain mem len offset' →
      typeAt mem offset' = 0 → offset' < len → ue.callBackSdap = true
  /-- One with a message and no QFI comes on a tunnel that has a callback. -/
  plain : ∀ ue, IsGpdu mem len env.node ue → hasExtension (mem 0) = false → messageStart (mem 0) < len → ue.callBack = true
  callBack : ∀ ue, IsGpdu mem len env.node ue → hasExtension (mem 0) = true →
    (∀ offset, Chain mem len offset → typeAt mem offset ≠ pduSessionContainer) →
      ∀ offset, Chain mem len offset → typeAt mem offset = 0 → offset < len → ue.callBack = true
  /-- One whose delivery is to be reported comes from an IPv4 address, and RLC tells the room that it has. -/
  report : ∀ ue, IsGpdu mem len env.node ue → hasExtension (mem 0) = true → ue.callBackSdap = false →
    ∀ offset sn, Reported mem len offset sn → typeAt mem offset = 0 → 0 < sn → sn % 5 = 0 →
      env.ipv4 = true ∧ ∃ space, nrRlcGetAvailableTxSpace ue.ueId (ue.incomingRbId + 3) env.rlc = .ok space

end Specification

variable {payload : List UInt8} {left : Nat → UInt8} {node : Node} {env : Env} {ue : UeidData} {offset rounds : Nat}
  {h : Headers}

section Extensions

theorem readNrRanContainer_fits (hfits : NrRanFits (buffer payload left) payload.length offset) :
    readNrRanContainer (inPayload payload) offset h = readNrRanContainer (inBuffer (buffer payload left)) offset h := by
  obtain ⟨hone, hrest⟩ := hfits
  unfold readNrRanContainer
  rw [inPayload_lt left hone, inBuffer, ok_bind, ok_bind]
  split
  next htype =>
    obtain ⟨htwo, hrest⟩ := hrest htype
    rw [inPayload_lt left htwo, inBuffer, ok_bind, ok_bind]
    split
    next hreport =>
      have hthree := hrest hreport
      rw [inPayload_lt left (by omega), inPayload_lt left (by omega), inPayload_lt left (by omega)]
      rfl
    next => rfl
  next => rfl

theorem readNrRanContainer_outside (hfits : ¬ NrRanFits (buffer payload left) payload.length offset) :
    readNrRanContainer (inPayload payload) offset h = .error .outsidePayload := by
  unfold readNrRanContainer
  by_cases hone : offset + 1 < payload.length
  · have hrest : ¬ _ := fun hrest => hfits ⟨hone, hrest⟩
    obtain ⟨htype, hrest⟩ := Classical.not_imp.mp hrest
    rw [inPayload_lt left hone, ok_bind, if_pos htype]
    by_cases htwo : offset + 2 < payload.length
    · have hreport : ¬ _ := fun hreport => hrest ⟨htwo, hreport⟩
      obtain ⟨hreport, hthree⟩ := Classical.not_imp.mp hreport
      rw [inPayload_lt left htwo, ok_bind, if_pos hreport]
      refine (inPayload_reading _ _).bind_outside fun _ => (inPayload_reading _ _).bind_outside fun _ => ?_
      rw [inPayload_ge (Nat.not_lt.mp hthree), error_bind]
    · rw [inPayload_ge (Nat.not_lt.mp htwo)]
      rfl
  · rw [inPayload_ge (Nat.not_lt.mp hone)]
    rfl

theorem readExtension_fits (hfits : Fits (buffer payload left) payload.length offset) :
    readExtension (inPayload payload) payload.length offset (typeAt (buffer payload left) offset) h =
      readExtension (inBuffer (buffer payload left)) payload.length offset (typeAt (buffer payload left) offset) h := by
  obtain ⟨hoffset, hpdu, hran⟩ := hfits
  have hcontainer : readContainer (inPayload payload) payload.length offset (typeAt (buffer payload left) offset) h =
      readContainer (inBuffer (buffer payload left)) payload.length offset (typeAt (buffer payload left) offset) h := by
    unfold readContainer
    split
    next htype =>
      have hne := hpdu htype
      split
      next => rfl
      next hle =>
        rw [inPayload_lt left (by omega)]
        rfl
    next =>
      split
      next htype => rw [readNrRanContainer_fits (hran htype)]
      next => rfl
  unfold readExtension
  rw [inPayload_lt left hoffset, hcontainer, inBuffer, ok_bind, ok_bind]
  congr 1
  funext r
  cases r with
  | none => rfl
  | some h' =>
    refine ite_congr rfl (fun _ => rfl) fun hle => ?_
    rw [inPayload_lt left (by omega)]
    rfl

theorem readExtension_outside (hfits : ¬ Fits (buffer payload left) payload.length offset) :
    readExtension (inPayload payload) payload.length offset (typeAt (buffer payload left) offset) h =
      .error .outsidePayload := by
  unfold readExtension
  by_cases hoffset : offset < payload.length
  · suffices hcontainer : readContainer (inPayload payload) payload.length offset
        (typeAt (buffer payload left) offset) h = .error .outsidePayload by
      rw [inPayload_lt left hoffset, hcontainer]
      rfl
    unfold readContainer
    by_cases hpdu : typeAt (buffer payload left) offset = pduSessionContainer
    · -- the header is no NR RAN container, so that it is the QFI that is outside
      have hran : typeAt (buffer payload left) offset ≠ nrRanContainer := by
        rw [hpdu]
        decide
      have hend : offset + 2 = payload.length := Decidable.byContradiction fun hne =>
        hfits ⟨hoffset, fun _ => hne, fun htype => absurd htype hran⟩
      rw [if_pos hpdu, if_neg (by omega), inPayload_ge (by omega)]
      rfl
    · have hran : ¬ _ := fun hran => hfits ⟨hoffset, fun htype => absurd htype hpdu, hran⟩
      obtain ⟨htype, hran⟩ := Classical.not_imp.mp hran
      rw [if_neg hpdu, if_pos htype, if_neg (by omega), readNrRanContainer_outside hran]
      rfl
  · rw [inPayload_ge (Nat.not_lt.mp hoffset)]
    rfl

theorem extensionLoop_fits (hfits : ∀ p, ReflTransGen (Next (buffer payload left) payload.length) offset p →
      typeAt (buffer payload left) p ≠ 0 → Fits (buffer payload left) payload.length p) :
    extensionLoop (inPayload payload) payload.length rounds offset (typeAt (buffer payload left) offset) h =
      extensionLoop (inBuffer (buffer payload left)) payload.length rounds offset
        (typeAt (buffer payload left) offset) h := by
  induction rounds generalizing offset h with
  | zero => rfl
  | succ rounds ih =>
    unfold extensionLoop
    by_cases htype : typeAt (buffer payload left) offset = 0
    · rw [if_pos htype, if_pos htype]
    · rw [if_neg htype, if_neg htype, readExtension_fits (hfits offset .refl htype)]
      by_cases hnext : ∃ offset', Next (buffer payload left) payload.length offset offset'
      · obtain ⟨offset', hnext⟩ := hnext
        obtain ⟨h', hread, -⟩ := readExtension_next (h := h) hnext
        rw [hread, ok_bind, ok_bind]
        exact ih fun p hp => hfits p (.head hnext hp)
      · rw [readExtension_malformed (not_exists.mp hnext) htype]
        rfl

theorem extensionLoop_outside {p : Nat} (hreach : ReflTransGen (Next (buffer payload left) payload.length) offset p)
    (htype : typeAt (buffer payload left) p ≠ 0) (hfits : ¬ Fits (buffer payload left) payload.length p) :
    ∃ rounds, extensionLoop (inPayload payload) payload.length rounds offset (typeAt (buffer payload left) offset) h =
      .error .outsidePayload := by
  induction hreach using ReflTransGen.head_induction_on generalizing h with
  | refl =>
    refine ⟨1, ?_⟩
    rw [extensionLoop, if_neg htype, readExtension_outside hfits]
    rfl
  | head hnext _ ih =>
    rename_i q q' _
    by_cases hq : Fits (buffer payload left) payload.length q
    · obtain ⟨h', hread, -⟩ := readExtension_next (h := h) hnext
      obtain ⟨rounds, hloop⟩ := @ih h'
      refine ⟨rounds + 1, ?_⟩
      rw [extensionLoop, if_neg hnext.1, readExtension_fits hq, hread]
      exact hloop
    · refine ⟨1, ?_⟩
      rw [extensionLoop, if_neg hnext.1, readExtension_outside hq]
      rfl

end Extensions

section Messages

theorem gtpv1uHandleEchoReq_outside (hlen : 8 ≤ payload.length) (hvalid : validHeader (buffer payload left 0) = true)
    (hseq : hasSeqNum (buffer payload left 0) = true) (hten : payload.length < 10) :
    gtpv1uHandleEchoReq (inPayload payload) = .error .outsidePayload := by
  rw [gtpv1uHandleEchoReq, inPayload_lt left (by omega), ok_bind, hvalid, hseq, readBe16_ge (by omega)]
  rfl

theorem gtpv1uHandleError_payload (hlen : 16 ≤ payload.length) : gtpv1uHandleError (inPayload payload) = .ok [] := by
  let left : Nat → UInt8 := fun _ => 0
  rw [gtpv1uHandleError, readBe32_lt left (by omega), inPayload_lt left (by omega), readBe32_lt left (by omega),
    inPayload_lt left (by omega), readBe16_lt left (by omega)]
  rfl

theorem gtpv1uHandleError_outside (hlen : payload.length < 16) :
    gtpv1uHandleError (inPayload payload) = .error .outsidePayload := by
  refine (readBe32_reading _ 4).bind_outside fun _ => (inPayload_reading _ 8).bind_outside fun _ =>
    (readBe32_reading _ 9).bind_outside fun _ => (inPayload_reading _ 13).bind_outside fun _ => ?_
  rw [readBe16_ge (by omega), error_bind]

theorem readHeaders_payload (hlen : hasExtension (buffer payload left 0) = true → 12 ≤ payload.length)
    (hfits : hasExtension (buffer payload left 0) = true → ∀ p, Chain (buffer payload left) payload.length p →
      typeAt (buffer payload left) p ≠ 0 → Fits (buffer payload left) payload.length p) :
    readHeaders (inPayload payload) rounds payload.length (buffer payload left 0) =
      readHeaders (inBuffer (buffer payload left)) rounds payload.length (buffer payload left 0) := by
  cases hext : hasExtension (buffer payload left 0) with
  | false =>
    unfold readHeaders
    rw [hext]
    rfl
  | true =>
    have htwelve := hlen hext
    rw [readHeaders_of_hasExtension hext, readHeaders, hext]
    show inPayload payload 11 >>= _ = _
    rw [inPayload_lt left (by omega), ok_bind]
    exact extensionLoop_fits (hfits hext)

theorem readHeaders_outside (hext : hasExtension (buffer payload left 0) = true) (hlen : payload.length < 12) :
    readHeaders (inPayload payload) rounds payload.length (buffer payload left 0) = .error .outsidePayload := by
  rw [readHeaders, hext]
  show inPayload payload 11 >>= _ = _
  rw [inPayload_ge (by omega), error_bind]

theorem gtpv1uHandleEndMarker_payload (hlen : 8 ≤ payload.length) :
    gtpv1uHandleEndMarker (inPayload payload) node = gtpv1uHandleEndMarker (inBuffer (buffer payload left)) node := by
  unfold gtpv1uHandleEndMarker
  rw [inPayload_lt left (by omega), readBe32_lt left (by omega)]
  rfl

theorem receive_payload_of_wellFormed (hwf : WellFormed (buffer payload left) payload.length env) :
    gtpv1uReceiveHandleMessage (inPayload payload) env.node rounds payload.length =
      gtpv1uReceiveHandleMessage (inBuffer (buffer payload left)) env.node rounds payload.length := by
  by_cases hmsg : IsMessage (buffer payload left) payload.length (buffer payload left 1)
  · have hlen := hmsg.header
    rw [receive_payload_of_isMessage hmsg, receive_of_isMessage hmsg]
    refine ite_congr rfl (fun htype => ?_) fun _ => ite_congr rfl (fun htype => ?_) fun _ =>
      ite_congr rfl (fun htype => ?_) fun _ => ite_congr rfl (fun htype => ?_) fun _ => rfl
    · exact gtpv1uHandleEchoReq_payload hlen fun hvalid hseq => (hwf.echo (htype ▸ hmsg) hvalid hseq).1
    · exact gtpv1uHandleError_payload (hwf.error (htype ▸ hmsg))
    · exact gtpv1uHandleEndMarker_payload hlen
    · unfold gtpv1uHandleGpdu
      rw [inPayload_lt left (by omega), readBe32_lt left (by omega), readBe32_inBuffer, inBuffer, ok_bind, ok_bind,
        ok_bind, ok_bind]
      refine ite_congr rfl (fun _ => rfl) fun hvalid => ?_
      cases htunnel : env.node.te2ue (be32 (buffer payload left) 4) with
      | none => rfl
      | some ue =>
        have hgpdu : IsGpdu (buffer payload left) payload.length env.node ue :=
          { hmsg with type := htype, valid := by simpa using hvalid, tunnel := htunnel }
        rw [← readHeaders_payload (hwf.fields ue hgpdu) (hwf.fits ue hgpdu)]
  · rw [receive_payload_of_not_isMessage hmsg, receive_of_not_isMessage hmsg]

end Messages

section Safety

variable {mem : Nat → UInt8} {len : Nat}

theorem within_send (packets : List (List UInt8)) : ∀ out ∈ packets.map Output.send, out.Within len := by
  intro out hout
  obtain ⟨packet, -, rfl⟩ := List.mem_map.mp hout
  exact trivial

theorem finishGpdu_safe (hgpdu : IsGpdu mem len node ue) (hoffset : offset ≤ len ∨ offset = 12)
    (hsdap : h.qfi.isSome → offset < len → ue.callBackSdap = true)
    (hcall : h.qfi = none → offset < len → ue.callBack = true) :
    Safe len (finishGpdu node ue len (some (offset, h))) := by
  obtain ⟨packets, hfinish, -⟩ := finishGpdu_some node ue len offset h
  have hsize := hgpdu.size_eq hoffset
  rw [hfinish]
  rcases deliver_cases ue len offset h with ⟨-, hd⟩ | ⟨hpos, qfi, -, -, hd⟩ | ⟨hpos, hqfi, hnone, -⟩ | ⟨hpos, hnone, hd⟩
  · rw [hd]
    exact within_send packets
  · rw [hd, hsize] at *
    refine List.forall_mem_cons.mpr ⟨⟨by omega, by omega⟩, within_send packets⟩
  · rw [hsize] at hpos
    rw [hsdap hqfi (by omega)] at hnone
    cases hnone
  · rw [hsize] at hpos hd
    rw [hd, hcall hnone (by omega)]
    exact List.forall_mem_cons.mpr ⟨⟨by omega, by omega⟩, within_send packets⟩

theorem reach_le {p : Nat} (hreach : ReflTransGen (Next mem len) offset p) : p ≤ len ∨ p = offset := by
  cases hreach with
  | refl => exact .inr rfl
  | tail _ hnext => exact .inl hnext.2.2.2

theorem messageStart_le (hlen : 8 ≤ len) : messageStart (mem 0) ≤ len ∨ messageStart (mem 0) = 12 := by
  rw [messageStart]
  split
  · exact .inr rfl
  · exact .inl hlen

theorem receive_safe (hwf : WellFormed mem len env) :
    Safe len (gtpv1uReceiveHandleMessage (inBuffer mem) env.node rounds len) := by
  rcases receive_cases mem env.node len with ⟨r, hreceive, -, hr⟩ | ⟨ue, hgpdu, hext⟩ | ⟨ue, hgpdu, hext⟩
  · rw [hreceive]
    rcases hr with ⟨packets, rfl, -⟩ | ⟨ue, hmarker, rfl⟩
    · exact within_send packets
    · rw [hwf.endMarker ue hmarker]
      exact List.forall_mem_singleton.mpr trivial
  · rw [receive_of_isGpdu hgpdu, readHeaders_of_not_hasExtension hext, ok_bind]
    exact finishGpdu_safe hgpdu (messageStart_le hgpdu.header) nofun fun _ => hwf.plain ue hgpdu hext
  · rw [receive_of_isGpdu hgpdu, readHeaders_of_hasExtension hext]
    cases hloop : extensionLoop (inBuffer mem) len rounds 12 (typeAt mem 12) ⟨none, false, 0⟩ with
    | error e => exact extensionLoop_error hloop
    | ok r =>
      cases r with
      | none => exact List.forall_mem_nil _
      | some r =>
        obtain ⟨hreach, hend, hqfi, -⟩ := extensionLoop_result hloop
        refine finishGpdu_safe hgpdu (reach_le hreach) (fun hsome hlt => ?_) fun hnone hlt => ?_
        · obtain hnone | ⟨p, hp, hpdu⟩ := hqfi.mp hsome
          · cases hnone
          · exact hwf.sdap ue hgpdu hext p r.1 hp hpdu hreach hend hlt
        · refine hwf.callBack ue hgpdu hext (fun p hp hpdu => ?_) r.1 hreach hend hlt
          have hsome := hqfi.mpr (.inr ⟨p, hp, hpdu⟩)
          rw [hnone] at hsome
          cases hsome

theorem any_isSend {outs : List Output} (packets : List (List UInt8)) (h : outs.any Output.isSend = false) :
    (outs ++ packets.map Output.send).any Output.isSend = true ↔ packets ≠ [] := by
  cases packets <;> simp [h, Output.isSend]

theorem deliver_isSend {outs : List Output} (hd : deliver ue len offset h = .ok outs) : outs.any Output.isSend = false := by
  rcases deliver_cases ue len offset h with ⟨-, h'⟩ | ⟨-, qfi, -, -, h'⟩ | ⟨-, -, -, h'⟩ | ⟨-, -, h'⟩ <;> rw [h'] at hd
  · cases hd
    rfl
  · cases hd
    rfl
  · cases hd
  · split at hd <;> cases hd
    rfl

/-- A packet is sent for an echo request, or to report a delivery. -/
theorem receive_sends {outs : List Output} (hok : gtpv1uReceiveHandleMessage (inBuffer mem) node rounds len = .ok outs)
    (hsend : outs.any Output.isSend = true) :
    (IsMessage mem len 1 ∧ validHeader (mem 0) = true ∧ hasSeqNum (mem 0) = true) ∨
    ∃ ue offset sn, IsGpdu mem len node ue ∧ hasExtension (mem 0) = true ∧ ue.callBackSdap = false ∧
      Reported mem len offset sn ∧ typeAt mem offset = 0 ∧ 0 < sn ∧ sn % 5 = 0 := by
  have hfinish : ∀ ue offset h, finishGpdu node ue len (some (offset, h)) = .ok outs →
      ue.callBackSdap = false ∧ 0 < h.nrPdcpPduSn ∧ h.nrPdcpPduSn % 5 = 0 := by
    intro ue offset h hok
    obtain ⟨packets, hfinish, hsent⟩ := finishGpdu_some node ue len offset h
    rw [hfinish] at hok
    obtain ⟨delivered, hd, rfl⟩ := map_eq_ok.mp hok
    exact hsent.mp ((any_isSend packets (deliver_isSend hd)).mp hsend)
  rcases receive_cases mem node len with ⟨r, hreceive, -, hr⟩ | ⟨ue, hgpdu, hext⟩ | ⟨ue, hgpdu, hext⟩
  · rw [hreceive] at hok
    rcases hr with ⟨packets, rfl, hecho⟩ | ⟨ue, -, rfl⟩
    · cases hok
      exact .inl (hecho ((@any_isSend [] packets rfl).mp hsend))
    · split at hok <;> cases hok
      cases hsend
  · rw [receive_of_isGpdu hgpdu, readHeaders_of_not_hasExtension hext, ok_bind] at hok
    exact absurd (hfinish ue _ _ hok).2.1 (by simp)
  · rw [receive_of_isGpdu hgpdu, readHeaders_of_hasExtension hext] at hok
    obtain ⟨r, hloop, hok⟩ := bind_eq_ok.mp hok
    cases r with
    | none =>
      cases hok
      cases hsend
    | some r =>
      obtain ⟨-, hend, -, hreported⟩ := extensionLoop_result hloop
      obtain ⟨hsdap, hpos, hfive⟩ := hfinish ue r.1 r.2 hok
      exact .inr ⟨ue, r.1, _, hgpdu, hext, hsdap, hreported .start, hend, hpos, hfive⟩

theorem askRlc_eq (hgpdu : IsGpdu (buffer payload left) payload.length env.node ue) : env.askRlc (inPayload payload) =
    (nrRlcGetAvailableTxSpace ue.ueId (ue.incomingRbId + 3) env.rlc).map fun _ => () := by
  have hlen := hgpdu.header
  have htunnel : env.te2ue (be32 (buffer payload left) 4) = some ue := hgpdu.tunnel
  rw [Env.askRlc, inPayload_lt left (by omega), ok_bind, if_pos hgpdu.type, readBe32_lt left (by omega), ok_bind, htunnel]

theorem nrRlcGetAvailableTxSpace_ne_endless (ueId channel : Nat) (rlc : Rlc) :
    nrRlcGetAvailableTxSpace ueId channel rlc ≠ .error .endless := by
  have helement : ∀ entities id, element entities id ≠ .error .endless := by
    intro entities id
    rw [element]
    split
    · nofun
    · split <;> nofun
  cases rlc with
  | cuup => nofun
  | manager ue =>
    rw [nrRlcGetAvailableTxSpace, Ne, bind_eq_error]
    rintro (herror | ⟨_, -, hok⟩)
    · rw [getRlcEntityFromLcid] at herror
      split at herror
      · cases herror
      · split at herror
        · cases herror
        · cases herror
        · split at herror
          · cases herror
          · exact helement _ _ herror
        · exact helement _ _ herror
    · cases hok

theorem readHeaders_outside_of_not_fits (hext : hasExtension (buffer payload left 0) = true)
    (hlen : 12 ≤ payload.length) (hchain : Chain (buffer payload left) payload.length offset)
    (htype : typeAt (buffer payload left) offset ≠ 0) (hfits : ¬ Fits (buffer payload left) payload.length offset) :
    ∃ rounds, readHeaders (inPayload payload) rounds payload.length (buffer payload left 0) =
      .error .outsidePayload := by
  obtain ⟨rounds, hloop⟩ := extensionLoop_outside (h := ⟨none, false, 0⟩) hchain htype hfits
  refine ⟨rounds, ?_⟩
  rw [readHeaders, hext]
  show inPayload payload 11 >>= _ = _
  rw [inPayload_lt left (by omega), ok_bind]
  exact hloop

theorem finishGpdu_error (hgpdu : IsGpdu mem len node ue) (hlt : offset < len)
    (hmissing : h.qfi.isSome ∧ ue.callBackSdap = false ∨ h.qfi = none ∧ ue.callBack = false) :
    ∃ e, e ≠ .endless ∧ finishGpdu node ue len (some (offset, h)) = .error e := by
  obtain ⟨packets, hfinish, -⟩ := finishGpdu_some node ue len offset h
  have hsize := hgpdu.size_eq (.inl (Nat.le_of_lt hlt))
  rcases deliver_cases ue len offset h with ⟨hpos, -⟩ | ⟨-, qfi, hqfi, hsome, -⟩ | ⟨-, -, -, hd⟩ | ⟨-, hnone, hd⟩
  · rw [hsize] at hpos
    omega
  · rcases hmissing with ⟨-, hno⟩ | ⟨hnone, -⟩
    · exact absurd (hsome.symm.trans hno) (by decide)
    · exact absurd (hqfi.symm.trans hnone) nofun
  · exact ⟨.assertFatal, nofun, by rw [hfinish, hd]; rfl⟩
  · have hno : ue.callBack = false := (hmissing.resolve_left fun h => by simp [hnone] at h).2
    exact ⟨.nullCallback, nofun, by rw [hfinish, hd, hno]; rfl⟩

/-- A packet that is sent needs an IPv4 address, and the room of the channel where it reports a delivery. -/
theorem send_safe_iff {outs : List Output} (hsend : outs.any Output.isSend = true)
    (hne : env.askRlc (inPayload payload) ≠ .error .endless) : Safe len (env.send (inPayload payload) outs) ↔
      env.ipv4 = true ∧ env.askRlc (inPayload payload) = .ok () ∧ ∀ out ∈ outs, out.Within len := by
  rw [Env.send, if_pos hsend]
  cases hask : env.askRlc (inPayload payload) with
  | error e => exact iff_of_false (fun h => hne (hask.trans (congrArg _ h))) nofun
  | ok u =>
    cases hip : env.ipv4 with
    | true => exact ⟨fun h => ⟨rfl, rfl, h⟩, fun h => h.2.2⟩
    | false => exact iff_of_false nofun nofun

theorem askRlc_gpdu_iff (hgpdu : IsGpdu (buffer payload left) payload.length env.node ue) :
    env.askRlc (inPayload payload) ≠ .error .endless ∧ (env.askRlc (inPayload payload) = .ok () ↔
      ∃ space, nrRlcGetAvailableTxSpace ue.ueId (ue.incomingRbId + 3) env.rlc = .ok space) := by
  rw [askRlc_eq hgpdu]
  have hne := nrRlcGetAvailableTxSpace_ne_endless ue.ueId (ue.incomingRbId + 3) env.rlc
  cases hspace : nrRlcGetAvailableTxSpace ue.ueId (ue.incomingRbId + 3) env.rlc with
  | error e => exact ⟨fun h => hne (hspace.trans (map_eq_error.mp h)), iff_of_false nofun nofun⟩
  | ok space => exact ⟨nofun, iff_of_true rfl ⟨space, rfl⟩⟩

theorem askRlc_echo (hmsg : IsMessage (buffer payload left) payload.length 1) :
    env.askRlc (inPayload payload) = .ok () := by
  have hlen := hmsg.header
  rw [Env.askRlc, inPayload_lt left (by omega), ok_bind, if_neg (by rw [hmsg.type]; decide)]

theorem receive_of_echo (hmsg : IsMessage (buffer payload left) payload.length 1)
    (hvalid : validHeader (buffer payload left 0) = true) (hseq : hasSeqNum (buffer payload left 0) = true)
    (hten : 10 ≤ payload.length) :
    ∃ packet, gtpv1uReceiveHandleMessage (inPayload payload) node rounds payload.length = .ok [.send packet] := by
  rw [receive_payload_of_isMessage hmsg, if_pos rfl, gtpv1uHandleEchoReq_payload hmsg.header fun _ _ => hten]
  exact ⟨_, gtpv1uHandleEchoReq_eq hvalid hseq⟩

section Necessity

variable (hsafe : ∀ rounds, Safe payload.length (env.receive (inPayload payload) rounds payload.length))

include hsafe

theorem endless_of_safe {e : Fault}
    (heq : gtpv1uReceiveHandleMessage (inPayload payload) env.node rounds payload.length = .error e) : e = .endless := by
  have := hsafe rounds
  rwa [Env.receive, heq, error_bind] at this

theorem ne_outside_of_safe :
    gtpv1uReceiveHandleMessage (inPayload payload) env.node rounds payload.length ≠ .error .outsidePayload :=
  fun heq => nomatch endless_of_safe hsafe heq

theorem fields_of_safe (hgpdu : IsGpdu (buffer payload left) payload.length env.node ue)
    (hext : hasExtension (buffer payload left 0) = true) : 12 ≤ payload.length := by
  refine Nat.not_lt.mp fun hlt => @ne_outside_of_safe payload env 0 hsafe ?_
  rw [receive_payload_of_isGpdu hgpdu, readHeaders_outside hext hlt, error_bind]

theorem fits_of_safe (hgpdu : IsGpdu (buffer payload left) payload.length env.node ue)
    (hext : hasExtension (buffer payload left 0) = true) (hchain : Chain (buffer payload left) payload.length offset)
    (htype : typeAt (buffer payload left) offset ≠ 0) : Fits (buffer payload left) payload.length offset := by
  refine Classical.byContradiction fun hfits => ?_
  obtain ⟨rounds, hread⟩ :=
    readHeaders_outside_of_not_fits hext (fields_of_safe hsafe hgpdu hext) hchain htype hfits
  exact @ne_outside_of_safe payload env rounds hsafe (by rw [receive_payload_of_isGpdu hgpdu, hread, error_bind])

theorem receive_of_safe (hgpdu : IsGpdu (buffer payload left) payload.length env.node ue) :
    gtpv1uReceiveHandleMessage (inPayload payload) env.node rounds payload.length =
      readHeaders (inBuffer (buffer payload left)) rounds payload.length (buffer payload left 0) >>=
        finishGpdu env.node ue payload.length := by
  rw [receive_payload_of_isGpdu hgpdu, readHeaders_payload (fields_of_safe hsafe hgpdu)
    fun hext _ => fits_of_safe hsafe hgpdu hext]

/-- Once the headers are read, the tunnel has the callback that is then called. -/
theorem delivers_of_safe (hgpdu : IsGpdu (buffer payload left) payload.length env.node ue)
    (hlt : offset < payload.length) (hread : readHeaders (inBuffer (buffer payload left)) rounds payload.length
      (buffer payload left 0) = .ok (some (offset, h))) :
    (h.qfi.isSome → ue.callBackSdap = true) ∧ (h.qfi = none → ue.callBack = true) := by
  have hfails : ¬ (h.qfi.isSome ∧ ue.callBackSdap = false ∨ h.qfi = none ∧ ue.callBack = false) := by
    intro hmissing
    obtain ⟨e, hne, hfinish⟩ := finishGpdu_error hgpdu hlt hmissing
    exact hne (@endless_of_safe payload env rounds hsafe e
      (by rw [receive_of_safe hsafe hgpdu, hread, ok_bind, hfinish]))
  exact ⟨fun hsome => Bool.of_not_eq_false fun hno => hfails (.inl ⟨hsome, hno⟩),
    fun hnone => Bool.of_not_eq_false fun hno => hfails (.inr ⟨hnone, hno⟩)⟩

theorem echo_of_safe (hmsg : IsMessage (buffer payload left) payload.length 1)
    (hvalid : validHeader (buffer payload left 0) = true) (hseq : hasSeqNum (buffer payload left 0) = true) :
    10 ≤ payload.length ∧ env.ipv4 = true := by
  have hten : 10 ≤ payload.length := by
    refine Nat.not_lt.mp fun hlt => @ne_outside_of_safe payload env 0 hsafe ?_
    rw [receive_payload_of_isMessage hmsg]
    exact gtpv1uHandleEchoReq_outside hmsg.header hvalid hseq hlt
  obtain ⟨packet, hok⟩ := @receive_of_echo payload left env.node 0 hmsg hvalid hseq hten
  have hsend := hsafe 0
  rw [Env.receive, hok, ok_bind] at hsend
  exact ⟨hten, ((send_safe_iff rfl (by rw [askRlc_echo hmsg]; nofun)).mp hsend).1⟩

theorem endMarker_of_safe (hmarker : IsEndMarker (buffer payload left) payload.length env.node ue) :
    ue.callBack = true := by
  refine Bool.of_not_eq_false fun hno => nomatch @endless_of_safe payload env 0 hsafe .nullCallback ?_
  rw [receive_payload_of_isMessage hmarker.toIsMessage]
  show gtpv1uHandleEndMarker (inPayload payload) env.node = _
  rw [@gtpv1uHandleEndMarker_payload payload left env.node hmarker.header, gtpv1uHandleEndMarker, inBuffer, ok_bind,
    hmarker.valid, hmarker.hasInstance, readBe32_inBuffer, ok_bind, hmarker.tunnel]
  simp [hno]

theorem report_of_safe {sn : Nat} (hgpdu : IsGpdu (buffer payload left) payload.length env.node ue)
    (hext : hasExtension (buffer payload left 0) = true) (hsdap : ue.callBackSdap = false)
    (hreported : Reported (buffer payload left) payload.length offset sn)
    (hend : typeAt (buffer payload left) offset = 0) (hpos : 0 < sn) (hfive : sn % 5 = 0) :
    env.ipv4 = true ∧ ∃ space, nrRlcGetAvailableTxSpace ue.ueId (ue.incomingRbId + 3) env.rlc = .ok space := by
  obtain ⟨steps, h, rfl, hloop⟩ := hreported.loop
  have hread := hloop 0
  rw [extensionLoop_end hend, ← readHeaders_of_hasExtension hext] at hread
  obtain ⟨packets, hfinish, hsent⟩ := finishGpdu_some env.node ue payload.length offset h
  have hreceive := @receive_of_safe payload left env ue (0 + steps) hsafe hgpdu
  rw [hread, ok_bind, hfinish] at hreceive
  obtain ⟨hne, hask⟩ := askRlc_gpdu_iff hgpdu
  cases hd : deliver ue payload.length offset h with
  | error e =>
    rw [hd] at hreceive
    exact absurd (hd.trans (congrArg _ (endless_of_safe hsafe hreceive))) (deliver_ne_endless ue payload.length offset h)
  | ok outs =>
    have hsend := (any_isSend packets (deliver_isSend hd)).mpr (hsent.mpr ⟨hsdap, hpos, hfive⟩)
    have hsafe' := hsafe (0 + steps)
    rw [Env.receive, hreceive, hd] at hsafe'
    obtain ⟨hip, hok, -⟩ := (send_safe_iff hsend hne).mp hsafe'
    exact ⟨hip, hask.mp hok⟩

end Necessity

theorem readHeaders_reaches (hext : hasExtension (mem 0) = true) (hchain : Chain mem len offset)
    (hend : typeAt mem offset = 0) : ∃ rounds h, readHeaders (inBuffer mem) rounds len (mem 0) = .ok (some (offset, h)) ∧
      (h.qfi.isSome ↔ ∃ p, Chain mem len p ∧ typeAt mem p = pduSessionContainer) := by
  obtain ⟨rounds, h', hloop⟩ := extensionLoop_reaches (h := ⟨none, false, 0⟩) hchain hend
  exact ⟨rounds, h', by rw [readHeaders_of_hasExtension hext, hloop],
    (extensionLoop_result hloop).2.2.1.trans (or_iff_right Bool.false_ne_true)⟩

/-- For every packet, all tunnel tables and all states of RLC, the receiver is safe exactly if the packet is
well-formed. -/
theorem gtpu_receiver_safe_iff (payload : List UInt8) (env : Env) :
    (∀ rounds, Safe payload.length (env.receive (inPayload payload) rounds payload.length)) ↔
      WellFormed (buffer payload fun _ => 0) payload.length env := by
  constructor
  · intro hsafe
    refine ⟨echo_of_safe hsafe, fun hmsg => ?_, fun ue => endMarker_of_safe hsafe, fun ue => fields_of_safe hsafe,
      fun ue hgpdu hext offset => fits_of_safe hsafe hgpdu hext, ?_, ?_, ?_,
      fun ue hgpdu hext hsdap offset sn => report_of_safe hsafe hgpdu hext hsdap⟩
    · refine Nat.not_lt.mp fun hlt => @ne_outside_of_safe payload env 0 hsafe ?_
      rw [receive_payload_of_isMessage hmsg]
      exact gtpv1uHandleError_outside hlt
    · intro ue hgpdu hext offset offset' hchain hpdu hchain' hend hlt
      obtain ⟨rounds, h, hread, hqfi⟩ := readHeaders_reaches hext hchain' hend
      exact (delivers_of_safe hsafe hgpdu hlt hread).1 (hqfi.mpr ⟨offset, hchain, hpdu⟩)
    · intro ue hgpdu hext hlt
      have hread := @readHeaders_of_not_hasExtension (buffer payload fun _ => 0) payload.length 0 _ hext
      exact (delivers_of_safe hsafe hgpdu hlt hread).2 rfl
    · intro ue hgpdu hext hpdu offset hchain hend hlt
      obtain ⟨rounds, h, hread, hqfi⟩ := readHeaders_reaches hext hchain hend
      refine (delivers_of_safe hsafe hgpdu hlt hread).2 (Option.not_isSome_iff_eq_none.mp fun hsome => ?_)
      obtain ⟨p, hp, htype⟩ := hqfi.mp hsome
      exact hpdu p hp htype
  · intro hwf rounds
    have hbase : Safe payload.length (gtpv1uReceiveHandleMessage (inBuffer (buffer payload fun _ => 0)) env.node rounds
      payload.length) := receive_safe hwf
    rw [Env.receive, receive_payload_of_wellFormed hwf]
    cases hok : gtpv1uReceiveHandleMessage (inBuffer (buffer payload fun _ => 0)) env.node rounds payload.length with
    | error e => rwa [hok] at hbase
    | ok outs =>
      rw [hok] at hbase
      rw [ok_bind]
      cases hsend : outs.any Output.isSend with
      | false =>
        rw [Env.send, hsend]
        exact hbase
      | true =>
        rcases receive_sends hok hsend with ⟨hmsg, hvalid, hseq⟩ |
          ⟨ue, offset, sn, hgpdu, hext, hsdap, hreported, hend, hpos, hfive⟩
        · rw [send_safe_iff hsend (by rw [askRlc_echo hmsg]; nofun)]
          exact ⟨(hwf.echo hmsg hvalid hseq).2, askRlc_echo hmsg, hbase⟩
        · obtain ⟨hne, hask⟩ := askRlc_gpdu_iff hgpdu
          obtain ⟨hip, hspace⟩ := hwf.report ue hgpdu hext hsdap offset sn hreported hend hpos hfive
          exact (send_safe_iff hsend hne).mpr ⟨hip, hask.mpr hspace, hbase⟩

/-- An echo request of eight octets that says it has a sequence number -/
theorem gtpu_echo_request_read_outside : let payload : List UInt8 := [0x32, 1, 0, 0, 0, 0, 0, 0]
    let env : Env := ⟨fun _ => none, true, .cuup, true⟩
    env.receive (inPayload payload) 0 payload.length = .error .outsidePayload := by
  intro payload env
  have hmsg : IsMessage (buffer payload fun _ => 0) payload.length 1 := ⟨by decide, by decide, by decide⟩
  have hvalid : validHeader (buffer payload (fun _ => 0) 0) = true := by decide
  have hseq : hasSeqNum (buffer payload (fun _ => 0) 0) = true := by decide
  rw [Env.receive, receive_payload_of_isMessage hmsg, if_pos rfl,
    gtpv1uHandleEchoReq_outside hmsg.header hvalid hseq (by decide), error_bind]

end Safety

end OaiNr.Gtpu
