import OaiNr.Nas.Lemmas.Replay

/-!
# Replayed NAS messages
-/

namespace OaiNr.Nas

theorem Counted.start {crypto : Crypto} {nas : NrUeNas} (kamf : List UInt8)
    (h : nas.security.nasCountDl.toNat ≤ 2 ^ 24) : Counted crypto ⟨nas, kamf, []⟩ where
  verified _ ha := nomatch ha
  ordered := .nil
  current _ _ _ ha := nomatch ha
  below _ _ ha := nomatch ha
  bound := h

/-- Over every sequence of received messages in which each accepted Security Mode Command comes with a KAMF and a KNASint
that were not used before, and is not followed by an accepted message with its sequence number while its COUNT is the
expected one: if no two accepted messages share a message authentication code by accident, no message is accepted twice
under one KNASint, and COUNT grows strictly under one KAMF. -/
theorem nas_accepted_messages_not_replayed (crypto : Crypto) (decoders : Decoders) (nas : NrUeNas) (kamf : List UInt8)
    (ms : List Received) (w : Watched) (hstart : nas.security.nasCountDl ≤ 0x1000000)
    (hrun : ms.foldlM (watch crypto decoders) ⟨nas, kamf, []⟩ = .ok w)
    (hfresh : Trace.Throughout (watch crypto decoders) (FreshKeys crypto) ⟨nas, kamf, []⟩ ms)
    (hcollision : NoCollision crypto w.accepted) : w.accepted.Pairwise NoReplay := by
  have hcounted := (Counted.start kamf (UInt32.le_iff_toNat_le.mp hstart)).run hrun hfresh
  refine hcounted.ordered.imp_of_mem fun {a e} ha he ⟨hcount, hkey⟩ => ⟨hcount, fun hsame hoctets => ?_⟩
  -- the same octets carry the same code, so COUNT would be the same
  have hmac : a.mac crypto = e.mac crypto := by
    rw [← hcounted.verified a ha, ← hcounted.verified e he, hoctets]
  have heq := (hcollision a ha e he hmac).2.1
  exact absurd (heq ▸ hcount (hkey hsame)) (UInt32.lt_irrefl _)

section Example

def Crypto.counting : Crypto :=
  { Crypto.plain with
    integrity _ c _ := be32 c.count
    f2345 _ _ _ := ⟨[], [], []⟩
    length_integrity _ _ _ := rfl }

def authenticatedNas : NrUeNas where
  fiveGmmState := .registeredInitiated
  fiveGmmMode := .connected
  uicc := ⟨[], [], [], 2, 0, 0, [], [], []⟩
  security := ⟨[], [], [1], [], [], [], [], [], 0, 0⟩
  securityContainer := none
  guti := some ⟨0, 0, 0, 0, 0, 0, 0, 0, 0, 0, 0⟩
  isRrcInactive := false
  t3512 := 0
  t3448 := -1
  t3446 := -1
  ksi := some 0
  servingNetworkName := []

def securityModeCommand : Received :=
  ⟨.downlinkDataInd, .ofOctets [0x7e, 3, 0, 0, 0, 0, 0, 0x7e, 0, 0x5d, 2], fun _ => 0⟩

def nextMessage : Received := ⟨.downlinkDataInd, .ofOctets [0x7e, 2, 0, 0, 0, 1, 1, 0x7e, 0, 0x54], fun _ => 0⟩

def commandContainer : Container := ⟨.eia2, .eea0, List.replicate 16 0, List.replicate 16 0⟩

def acceptedCommand : Accepted := ⟨[1], commandContainer, 0, [0x7e, 3, 0, 0, 0, 0, 0, 0x7e, 0, 0x5d, 2], true⟩

def acceptedNext : Accepted := ⟨[1], commandContainer, 1, [0x7e, 2, 0, 0, 0, 1, 1, 0x7e, 0, 0x54], false⟩

def protectedNas (countUl countDl : UInt32) : NrUeNas :=
  { authenticatedNas with
    security := ⟨[], [], [1], List.replicate 16 0, List.replicate 16 0, [], [], [], countUl, countDl⟩
    securityContainer := some commandContainer }

theorem watch_securityModeCommand : watch Crypto.counting Decoders.none ⟨authenticatedNas, [], []⟩ securityModeCommand =
      .ok ⟨protectedNas 1 0, [1], [acceptedCommand]⟩ := by
  rfl

theorem watch_nextMessage : watch Crypto.counting Decoders.none ⟨protectedNas 1 0, [1], [acceptedCommand]⟩ nextMessage =
      .ok ⟨protectedNas 1 2, [1], [acceptedCommand, acceptedNext]⟩ := by
  rfl

theorem watch_securityModeCommand_again :
    watch Crypto.counting Decoders.none ⟨protectedNas 1 0, [1], [acceptedCommand]⟩ securityModeCommand =
      .ok ⟨protectedNas 2 0, [1], [acceptedCommand, acceptedCommand]⟩ := by
  rfl

end Example

/-- A Security Mode Command and the next message -/
theorem nas_command_and_next_message_accepted :
    ∃ w, [securityModeCommand, nextMessage].foldlM (watch Crypto.counting Decoders.none) ⟨authenticatedNas, [], []⟩ =
        .ok w ∧ w.accepted = [acceptedCommand, acceptedNext] ∧ w.accepted.Pairwise NoReplay := by
  have hrun : [securityModeCommand, nextMessage].foldlM (watch Crypto.counting Decoders.none) ⟨authenticatedNas, [], []⟩ =
      .ok ⟨protectedNas 1 2, [1], [acceptedCommand, acceptedNext]⟩ := by
    rw [List.foldlM_cons, watch_securityModeCommand, ok_bind, List.foldlM_cons, watch_nextMessage]
    rfl
  refine ⟨_, hrun, rfl, nas_accepted_messages_not_replayed _ _ _ _ _ _ (by decide) hrun ⟨⟨?_, ?_⟩, ?_⟩ ?_⟩
  · exact fun _ e he => nomatch (show none = some e from he)
  · exact fun a _ e he => nomatch (show e ∈ [] from he)
  · intro w₁ hok
    rw [watch_securityModeCommand] at hok
    cases hok
    refine ⟨⟨?_, ?_⟩, fun _ _ => trivial⟩
    · intro _ e he _ _
      obtain rfl := Option.some.inj (show some acceptedCommand = some e from he)
      decide
    · exact fun a ha => nomatch (show none = some a from ha)
  · unfold NoCollision
    decide

/-- A Security Mode Command that is sent again is accepted again, with the same COUNT. -/
theorem nas_security_mode_command_replayed :
    ∃ w, [securityModeCommand, securityModeCommand].foldlM (watch Crypto.counting Decoders.none)
        ⟨authenticatedNas, [], []⟩ = .ok w ∧
      NoCollision Crypto.counting w.accepted ∧ w.accepted = [acceptedCommand, acceptedCommand] ∧
      ¬ w.accepted.Pairwise NoReplay := by
  refine ⟨⟨protectedNas 2 0, [1], [acceptedCommand, acceptedCommand]⟩, ?_, ?_, rfl, ?_⟩
  · rw [List.foldlM_cons, watch_securityModeCommand, ok_bind, List.foldlM_cons, watch_securityModeCommand_again]
    rfl
  · unfold NoCollision
    decide
  · intro h
    exact (List.pairwise_pair.mp h).2 rfl rfl

end OaiNr.Nas
