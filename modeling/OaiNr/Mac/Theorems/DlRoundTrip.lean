import OaiNr.Mac.Lemmas.UeDlsch

/-!
# From the gNB to the UE in one MAC PDU
-/

namespace OaiNr.Mac

/-- The steps that a walk should take over a PDU: one for each subPDU, at its length. Padding ends the
walk. -/
def DlMacPdu.steps (p : DlMacPdu) : List (Nat × Nat) :=
  ceSteps p.ces ++ (sduSteps p.sdus ++ fillingSteps p.filling)

structure InStep (g : DlGrant) (ue : UeMac) (sdus : List Sdu) : Prop where
  tag : ∀ ta, g.ce.taUpdate = some ta → g.tagId % 4 = ue.tagId
  csiIm : ∀ c, g.ce.csiIm = some c → c.header.toNat = c.body.length
  takes : ∀ d ∈ sdus, ue.Takes d
  few : sdus.length < maxNumDataInd

variable {g : DlGrant} {ue : UeMac} {rlc : RlcSource} {s : rlc.State} {p : DlMacPdu}

theorem generateDlMacPdu_rest (h : g.generateDlMacPdu rlc s = .ok p) :
    UeMac.IsFilling p.filling ∧ sduSteps p.sdus ++ fillingSteps p.filling ≠ [] ∧
      ∀ d ∈ p.sdus, d.1 < nrMaxNumLcid ∧ d.2 ≠ [] := by
  have hspace : 0 < g.space p.ces := Nat.sub_pos_of_lt (DlGrant.generateDlMacPdu_writes h).2
  obtain ⟨_, hfilling, hmux⟩ | ⟨_, hsdus, hfilling⟩ := DlGrant.generateDlMacPdu_sdus h
  · refine ⟨hfilling ▸ isFilling_padding _, ?_, fun d hd => ?_⟩
    · cases hs : p.sdus with
      | nil =>
        have hne := padding_ne_nil hspace
        simp [hfilling, hs, sduSteps, fillingSteps, hne]
      | cons d sdus => simp [sduSteps]
    · have ht := (multiplex_spec hmux).2 d hd
      exact ⟨ht.lt, ht.nonempty⟩
  · obtain ⟨hfill, hne⟩ := g.fillEmpty_spec hspace
    refine ⟨hfilling ▸ hfill, ?_, by simp [hsdus]⟩
    simp [hfilling, fillingSteps, hne]

/-- The UE steps over each subPDU at its exact length and hands RLC the data that the gNB multiplexed,
exactly where the two agree on the timing advance group, the activation of CSI-RS and CSI-IM resource
sets begins with its own length less one, each SDU has a length of 16 bits and is not of a suspended
channel, and there are fewer SDUs than the UE has entries for. -/
theorem dl_round_trip_iff (h : g.generateDlMacPdu rlc s = .ok p) :
    ue.processMacPdu p.octets = .ok ⟨p.steps, p.sdus⟩ ↔ InStep g ue p.sdus := by
  obtain ⟨ta, mid, im, hces, hmid, hta, him⟩ :=
    writeCeDlschPdu_cases (DlGrant.generateDlMacPdu_writes h).1
  obtain ⟨hfilling, hsome, hsdus⟩ := generateDlMacPdu_rest h
  have hoctets : p.octets = cesOctets ta ++ (cesOctets mid ++ (cesOctets im ++ (sdusOctets p.sdus ++ p.filling))) := by
    simp [DlMacPdu.octets, hces, cesOctets]
  have hsteps : p.steps = ceSteps ta ++
      (ceSteps mid ++ (ceSteps im ++ (sduSteps p.sdus ++ fillingSteps p.filling))) := by
    simp [DlMacPdu.steps, hces, ceSteps]
  -- one stage of the walk after the other, each with what is left for the next
  obtain ⟨_, hfuel, hta⟩ := ue.walk_ifScheduled hta ⟨[], []⟩
    (ceSteps mid ++ (ceSteps im ++ (sduSteps p.sdus ++ fillingSteps p.filling))) p.sdus
    (fun a c fuel hc => ⟨by obtain ⟨b, rfl⟩ := UeMac.taCommand_eq hc; simp [SubPdu.fixed],
      UeMac.walk_ta_iff hc (by simp [hsome])⟩) (Nat.lt_succ_self _)
  obtain ⟨_, hfuel, hmid⟩ := UeMac.walk_ces (hmid ue) hfuel ⟨ceSteps ta, []⟩
  obtain ⟨_, hfuel, him⟩ := ue.walk_ifScheduled him ⟨ceSteps ta ++ ceSteps mid, []⟩
    (sduSteps p.sdus ++ fillingSteps p.filling) p.sdus
    (fun a c fuel hc => ⟨by simp [UeMac.csiRsCsiIm_eq hc, SubPdu.fixed], UeMac.walk_csiIm_iff hc⟩) hfuel
  have hrest := ue.walk_sdus_iff (fun d hd => (hsdus d hd).1) (fun d hd => (hsdus d hd).2)
    hfilling (r := ⟨ceSteps ta ++ ceSteps mid ++ ceSteps im, []⟩) (show 0 < maxNumDataInd by decide) hfuel
  simp only [List.nil_append, List.append_assoc] at hta hmid him hrest
  rw [UeMac.processMacPdu, hoctets, hsteps, hta, hmid, him, hrest]
  simp only [List.length_nil, Nat.zero_add]
  exact ⟨fun h => ⟨h.1, h.2.1, h.2.2.1, h.2.2.2⟩, fun i => ⟨i.tag, i.csiIm, i.takes, i.few⟩⟩

def taGrant : DlGrant where
  tagId := 1
  ce := ⟨some 31, none, none, none, none, none, none⟩
  tbs := 20
  numTotalBytes := 15
  lcConfig := [4]
  lcidAlloc _ _ := 15
  phyTestOrDoRa := false
  random _ := 0

/-- A timing advance command and an SDU of 15 octets go to a UE with the channel configured. -/
theorem dl_round_trip_with_ta : ∃ p, taGrant.generateDlMacPdu (greedyRlc 4) () = .ok p ∧
    UeMac.processMacPdu ⟨1, [(4, false)], none, false⟩ p.octets = .ok ⟨p.steps, p.sdus⟩ := by
  obtain ⟨p, hp, hsdus⟩ := map_eq_ok.mp (show (taGrant.generateDlMacPdu (greedyRlc 4) ()).map
    DlMacPdu.sdus = .ok [(4, List.replicate 15 0)] by decide)
  refine ⟨p, hp, (dl_round_trip_iff hp).mpr ⟨fun _ _ => rfl, fun _ h => (by cases h), ?_, ?_⟩⟩
  · rw [hsdus]
    intro d hd
    cases List.mem_singleton.mp hd
    exact ⟨by simp, fun _ => rfl⟩
  · rw [hsdus]
    decide

def csiImGrant : DlGrant :=
  { taGrant with ce := ⟨none, none, none, none, none, none, some ⟨true, 0, 0, true, 0, 0, 1, fun _ => 0⟩⟩ }

/-- The first octet of the control element is 128, so the UE takes the whole block for it, and the data
is lost. -/
theorem csi_im_hides_data : (csiImGrant.generateDlMacPdu (greedyRlc 4) ()).map (fun p =>
      (p.sdus, p.steps, UeMac.processMacPdu ⟨1, [(4, false)], none, false⟩ p.octets)) =
    .ok ([(4, List.replicate 12 0)], [(0x37, 5), (4, 15)], .ok ⟨[(0x37, 130)], []⟩) := by
  decide

end OaiNr.Mac
