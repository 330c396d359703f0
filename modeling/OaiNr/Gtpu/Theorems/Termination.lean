import OaiNr.Gtpu.Lemmas.Messages

/-!
# The receiver ends

The loop over the extension headers goes on by the length that a header gives itself.
-/

namespace OaiNr.Gtpu

variable {mem : Nat → UInt8} {node : Node} {len rounds : Nat}

theorem receive_endless_iff : gtpv1uReceiveHandleMessage (inBuffer mem) node rounds len = .error .endless ↔
      (∃ ue, IsGpdu mem len node ue) ∧ hasExtension (mem 0) = true ∧
        extensionLoop (inBuffer mem) len rounds 12 (typeAt mem 12) ⟨none, false, 0⟩ = .error .endless := by
  rcases receive_cases mem node len with ⟨r, hreceive, hgpdu, hr⟩ | ⟨ue, hgpdu, hext⟩ | ⟨ue, hgpdu, hext⟩
  · rw [hreceive]
    refine iff_of_false ?_ fun h => hgpdu h.1
    rcases hr with ⟨packets, rfl, -⟩ | ⟨ue, -, rfl⟩
    · nofun
    · split <;> nofun
  · rw [receive_of_isGpdu hgpdu, readHeaders_of_not_hasExtension hext, ok_bind, hext]
    exact iff_of_false (finishGpdu_ne_endless _ _ _ _) fun h => nomatch h.2.1
  · rw [receive_of_isGpdu hgpdu, readHeaders_of_hasExtension hext, bind_eq_error]
    constructor
    · rintro (hloop | ⟨r, -, hfinish⟩)
      · exact ⟨⟨ue, hgpdu⟩, hext, hloop⟩
      · exact absurd hfinish (finishGpdu_ne_endless _ _ _ _)
    · exact fun h => .inl h.2.2

theorem extensionLoop_of_stalls (h : Stalls mem len) (headers : Headers) :
    extensionLoop (inBuffer mem) len rounds 12 (typeAt mem 12) headers = .error .endless := by
  obtain ⟨offset, hchain, hnext⟩ := h
  exact extensionLoop_endless hchain (fun _ _ => extensionLoop_stalls hnext) rounds headers

def NeverEnds (mem : Nat → UInt8) (node : Node) (len : Nat) : Prop :=
  (∃ ue, IsGpdu mem len node ue) ∧ hasExtension (mem 0) = true ∧ Stalls mem len

theorem receive_of_neverEnds (h : NeverEnds mem node len) (rounds : Nat) :
    gtpv1uReceiveHandleMessage (inBuffer mem) node rounds len = .error .endless :=
  receive_endless_iff.mpr ⟨h.1, h.2.1, extensionLoop_of_stalls h.2.2 _⟩

theorem receive_ends (h : ¬ NeverEnds mem node len) :
    gtpv1uReceiveHandleMessage (inBuffer mem) node (len / 4) len ≠ .error .endless := by
  rw [Ne, receive_endless_iff]
  rintro ⟨⟨ue, hgpdu⟩, hext, hloop⟩
  have hlen := hgpdu.header
  refine extensionLoop_ends (fun offset hchain hnext => ?_) (by omega) hloop
  exact h ⟨⟨ue, hgpdu⟩, hext, offset, hchain, hnext⟩

/-- For every packet and whatever is left behind it in the buffer, the words of the packet are enough rounds exactly if
the packet is not one that never ends, and for such a packet no number of rounds is. -/
theorem gtpu_receiver_ends_iff (payload : List UInt8) (left : Nat → UInt8) (node : Node) :
    let run := fun rounds => gtpv1uReceiveHandleMessage (inBuffer (buffer payload left)) node rounds payload.length
    (run (payload.length / 4) ≠ .error .endless ↔ ¬ NeverEnds (buffer payload left) node payload.length) ∧
      (NeverEnds (buffer payload left) node payload.length → ∀ rounds, run rounds = .error .endless) := by
  refine ⟨⟨fun hends hnever => hends (receive_of_neverEnds hnever _), receive_ends⟩, fun hnever rounds => ?_⟩
  exact receive_of_neverEnds hnever rounds

/-- An extension header of type `0xC0` with a length of zero, at the start of the chain, is its own successor. -/
theorem gtpu_extension_without_length_never_ends :
    let payload : List UInt8 := [0x34, 255, 0, 8, 0, 0, 0, 1, 0, 0, 0, 0xC0, 0, 0, 0, 0]
    let node : Node := ⟨fun teid => if teid = 1 then some ⟨1, 1, true, 1, true, 1⟩ else none, true, fun _ _ => 0⟩
    ¬ ∃ rounds, gtpv1uReceiveHandleMessage (inBuffer (buffer payload fun _ => 0)) node rounds payload.length ≠
      .error .endless := by
  rintro payload node ⟨rounds, hends⟩
  have hmsg : IsGpdu (buffer payload fun _ => 0) payload.length node ⟨1, 1, true, 1, true, 1⟩ :=
    { header := by decide, length := by decide, type := by decide, valid := by decide, tunnel := by decide }
  have hnext : Next (buffer payload fun _ => 0) payload.length 12 12 :=
    ⟨by decide, ⟨by decide, by decide⟩, by decide, by decide⟩
  exact hends (receive_of_neverEnds ⟨⟨_, hmsg⟩, by decide, 12, .refl, hnext⟩ rounds)

end OaiNr.Gtpu
