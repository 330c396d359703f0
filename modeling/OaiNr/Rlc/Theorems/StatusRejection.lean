import OaiNr.Rlc.Lemmas.TxInv

/-!
# Rejection of malformed status PDUs
-/

namespace OaiNr.Rlc.Am

/-- A well-formed status PDU: it can be decoded, CPT is 0, the ACK is in the window, the NACKs
increase and are not beyond the ACK. -/
structure ValidStatus (e : Am) (buffer : List UInt8) : Prop where
  complete : e.Complete buffer
  cpt : e.cptOf buffer = 0
  ack : e.modulusTx (e.ackSnOf buffer) ≤ e.modulusTx e.txNext
  increasing : (e.nacksOf buffer).Pairwise e.NackLt
  nacks : ∀ n ∈ e.nacksOf buffer, e.modulusTx n.sn ≤ e.modulusTx (e.ackSnOf buffer)

structure OnlyDisordered (e : Am) (buffer : List UInt8) : Prop where
  complete : e.Complete buffer
  cpt : e.cptOf buffer = 0
  ack : e.modulusTx (e.ackSnOf buffer) ≤ e.modulusTx e.txNext
  disordered : ¬(e.nacksOf buffer).Pairwise e.NackLt
  nacks : ∀ n ∈ e.nacksOf buffer, e.modulusTx n.sn ≤ e.modulusTx (e.ackSnOf buffer)

structure SameWindow (e e' : Am) : Prop where
  length : e'.snFieldLength = e.snFieldLength
  modulus : e'.snModulus = e.snModulus
  ack : e'.txNextAck = e.txNextAck
  next : e'.txNext = e.txNext

variable {c : AmConfig} {e e' : Am} {buffer : List UInt8}

theorem SameWindow.modulusTx (h : e.SameWindow e') (a : Int) : e'.modulusTx a = e.modulusTx a := by
  rw [Am.modulusTx, Am.modulusTx, h.modulus, h.ack]

theorem SameWindow.nackLt (h : e.SameWindow e') (n k : Nack) : e'.NackLt n k ↔ e.NackLt n k := by
  rw [NackLt, NackLt, h.modulusTx, h.modulusTx]

theorem validStatus_or_onlyDisordered (hv : e.validateControlPdu buffer = true) :
    e.ValidStatus buffer ∨ e.OnlyDisordered buffer := by
  obtain ⟨h1, h2, h3, h4⟩ := validateControlPdu_iff.mp hv
  by_cases h : (e.nacksOf buffer).Pairwise e.NackLt
  · exact .inl ⟨h1, h2, h3, h, h4⟩
  · exact .inr ⟨h1, h2, h3, h, h4⟩

theorem OnlyDisordered.validate (h : e.OnlyDisordered buffer) : e.validateControlPdu buffer = true :=
  validateControlPdu_iff.mpr ⟨h.complete, h.cpt, h.ack, h.nacks⟩

theorem OnlyDisordered.congr (hw : e.SameWindow e') (h : e.OnlyDisordered buffer) : e'.OnlyDisordered buffer := by
  have hn : e'.nacksOf buffer = e.nacksOf buffer := nacksOf_congr hw.length hw.modulus
  refine ⟨(complete_congr hw.length).mpr h.complete, (cptOf_congr hw.length).trans h.cpt, ?_, ?_, ?_⟩
  · rw [hw.modulusTx, hw.modulusTx, ackSnOf_congr hw.length, hw.next]
    exact h.ack
  · rw [hn]
    exact fun hp => h.disordered (hp.imp fun {a b} hab => (hw.nackLt a b).mp hab)
  · rw [hn]
    intro n hmem
    rw [hw.modulusTx, hw.modulusTx, ackSnOf_congr hw.length]
    exact h.nacks n hmem

theorem SameWindow.symm (h : e.SameWindow e') : e'.SameWindow e :=
  ⟨h.length.symm, h.modulus.symm, h.ack.symm, h.next.symm⟩

theorem OnlyDisordered.stopsPoll (h : e.OnlyDisordered buffer)
    (hlen : e.snFieldLength = 12 ∨ e.snFieldLength = 18) (hmod : e.snModulus = 2 ^ e.snFieldLength)
    (hk : e.SnOk e.txNextAck) (hp : e.pollSn = e.txNextAck) :
    e.snCompareTx e.pollSn (e.ackSnOf buffer) < 0 ∨ ∃ b ∈ e.nackBlocks buffer, e.NacksPoll b := by
  have hm : 4096 ≤ e.snModulus := by
    rw [hmod]
    rcases hlen with hl | hl <;> rw [hl] <;> decide
  have hz : e.modulusTx e.txNextAck = 0 := by
    rw [modulusTx_eq hk hk, Serial.offset_self]
  by_cases hd : 0 < e.modulusTx (e.ackSnOf buffer)
  · left
    rw [snCompareTx, hp, hz]
    omega
  · right
    -- all NACKs are for `tx_next_ack`, and there is one
    have hne : e.nacksOf buffer ≠ [] := fun hnil => h.disordered (by rw [hnil]; exact List.Pairwise.nil)
    obtain ⟨n, hmem⟩ := List.exists_mem_of_ne_nil _ hne
    obtain ⟨b, hb, hn⟩ := List.mem_flatMap.mp hmem
    obtain ⟨hsn, hr0, hr8⟩ := nackBlocks_range h.complete hb
    have hrange : 0 < b.range := by
      simp only [expand, List.mem_map, List.mem_range] at hn
      obtain ⟨i, hi, -⟩ := hn
      omega
    have hbok : e.SnOk b.nackSn := by
      rw [SnOk, hmod]
      exact hsn
    have hfirst : e.modulusTx b.nackSn ≤ e.modulusTx (e.ackSnOf buffer) := by
      obtain ⟨k, hk, hsn⟩ := expand_head hbok hrange
      rw [← hsn]
      exact h.nacks k (List.mem_flatMap.mpr ⟨b, hb, hk⟩)
    have h0 := modulusTx_nonneg hk hbok
    have heq : b.nackSn = e.txNextAck := modulusTx_inj hk hbok hk (by omega)
    refine ⟨b, hb, ?_⟩
    have hafter : e.SnOk ((e.txNextAck + b.range) % e.snModulus) :=
      ⟨Int.emod_nonneg _ (by omega), Int.emod_lt_of_pos _ (by omega)⟩
    have hlast : e.modulusTx ((e.txNextAck + b.range) % e.snModulus) = b.range := by
      rw [modulusTx_eq hk hafter]
      exact Serial.offset_add_emod hr0 (by omega)
    rw [NacksPoll, snCompareTx, snCompareTx, hp, heq, hlast, hz]
    omega

theorem OnlyDisordered.changes (hn : Numbered e) (h : e.OnlyDisordered buffer)
    (hp : e.pollSn = e.txNextAck) (ht : e.tPollRetransmitStart ≠ 0) : e.processControlPdu buffer ≠ e := by
  intro heq
  have htimer := e.applyStatus_timer (e.ackSnOf buffer) (e.nackBlocks buffer)
  rw [processControlPdu, if_pos h.validate] at heq
  rw [if_pos (h.stopsPoll hn.length hn.modulus hn.ack hp), heq] at htimer
  exact ht htimer

/-- A status PDU that is not valid changes no entity with this window, if and only if there is more
wrong with it than the order of its NACKs. -/
theorem rejects_iff_not_onlyDisordered (h : Reachable c e) :
    (∀ e', e.SameWindow e' → ¬e'.ValidStatus buffer → e'.processControlPdu buffer = e') ↔ ¬e.OnlyDisordered buffer := by
  constructor
  · intro hall hd
    have hn := (reaches_txInv h).numbered
    let e' : Am := { e with tPollRetransmitStart := 1, pollSn := e.txNextAck }
    have hw : e.SameWindow e' := ⟨rfl, rfl, rfl, rfl⟩
    have hn' : Numbered e' :=
      ⟨hn.length, hn.modulus, hn.window, hn.next, hn.ack, hn.ack, hn.le, hn.sdus, hn.sent⟩
    have hd' := hd.congr hw
    have hone : (1 : Int) ≠ 0 := by decide
    exact hd'.changes hn' rfl hone (hall e' hw fun hv => hd'.disordered hv.increasing)
  · intro hd e' hw hv
    rw [processControlPdu, if_neg]
    intro hval
    exact hd (((validStatus_or_onlyDisordered hval).resolve_left hv).congr hw.symm)

def twoSent : List Op :=
  [.recvSdu [1] 7, .recvSdu [2] 8, .generatePdu (List.replicate 3 0), .generatePdu (List.replicate 3 0)]

/-- After two PDUs, a status PDU that acknowledges three changes nothing. -/
theorem rejects_ack_beyond : ∃ e, (newNrRlcEntityAm .test1).execAll 1 twoSent = .ok e ∧
    e.waitList.map e.snOf = [0, 1] ∧ e.ackSnOf [0x00, 0x03, 0x00] = 3 ∧ ¬e.ValidStatus [0x00, 0x03, 0x00] ∧
      e.processControlPdu [0x00, 0x03, 0x00] = e := by
  have hrun : ((newNrRlcEntityAm .test1).execAll 1 twoSent).map (fun e =>
      decide (e.waitList.map e.snOf = [0, 1] ∧ e.ackSnOf [0x00, 0x03, 0x00] = 3 ∧
        ¬e.modulusTx (e.ackSnOf [0x00, 0x03, 0x00]) ≤ e.modulusTx e.txNext)) = .ok true := by decide
  obtain ⟨e, he, h⟩ := map_eq_ok.mp hrun
  obtain ⟨hwait, hack, hbeyond⟩ := of_decide_eq_true h
  have hv : ¬e.ValidStatus [0x00, 0x03, 0x00] := fun hv => hbeyond hv.ack
  have hd : ¬e.OnlyDisordered [0x00, 0x03, 0x00] := fun hd => hbeyond hd.ack
  have hreach : Reachable .test1 e := Reaches.new.execAll (fun _ _ _ => trivial) he
  exact ⟨e, he, hwait, hack, hv, (rejects_iff_not_onlyDisordered hreach).mpr hd e ⟨rfl, rfl, rfl, rfl⟩ hv⟩

/-- A status PDU that says SDU 1 is missing and then SDU 0 is accepted: it frees SDU 0, which is
missing, and reports its delivery. -/
theorem disordered_status_accepted : ∃ e, (newNrRlcEntityAm .test1).execAll 1 twoSent = .ok e ∧
    ∃ buffer, ¬e.ValidStatus buffer ∧ e.ackSnOf buffer = 2 ∧
      e.nacksOf buffer = [⟨1, 0, -1⟩, ⟨0, 0, -1⟩] ∧ e.calls = [] ∧
      (e.processControlPdu buffer).calls = [.sduSuccessfulDelivery 7] ∧
      e.waitList.map e.snOf = [0, 1] ∧ (e.processControlPdu buffer).waitList = [] := by
  let buffer : List UInt8 := [0x00, 0x02, 0x80, 0x00, 0x18, 0x00, 0x00]
  have hrun : ((newNrRlcEntityAm .test1).execAll 1 twoSent).map (fun e =>
      decide (¬(e.nacksOf buffer).Pairwise e.NackLt ∧ e.ackSnOf buffer = 2 ∧
        e.nacksOf buffer = [⟨1, 0, -1⟩, ⟨0, 0, -1⟩] ∧ e.calls = [] ∧
        (e.processControlPdu buffer).calls = [.sduSuccessfulDelivery 7] ∧
        e.waitList.map e.snOf = [0, 1] ∧ (e.processControlPdu buffer).waitList = [])) = .ok true := by
    decide
  obtain ⟨e, he, h⟩ := map_eq_ok.mp hrun
  obtain ⟨h1, h2⟩ := of_decide_eq_true h
  exact ⟨e, he, buffer, fun hv => h1 hv.increasing, h2⟩

end OaiNr.Rlc.Am
