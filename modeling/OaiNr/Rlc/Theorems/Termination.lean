import OaiNr.Rlc.Lemmas.DataPdu
import OaiNr.Rlc.Lemmas.RxRun

/-!
# When the loops of the receiver end

The ring has `window_size` slots, so the SN a whole window above `rx_next` shares the slot of `rx_next`.
-/

namespace OaiNr.Rlc

open OaiNr.Serial

namespace Am

variable {c : AmConfig} {e e' : Am} {fuel fuel' : Nat} {x sn so : Int} {isFirst isLast : Bool}
  {data buffer : List UInt8}

/-! ## More fuel does not change the outcome -/

theorem skipDelivered_mono (h : e.skipDelivered fuel x = .ok sn) (hle : fuel ≤ fuel') :
    e.skipDelivered fuel' x = .ok sn := by
  rw [skipDelivered, withFuel_eq_ok] at h ⊢
  exact Loop.run_mono h hle

theorem freeDelivered_mono {s : RxManager × Int × Int} (h : e.freeDelivered fuel = .ok s)
    (hle : fuel ≤ fuel') : e.freeDelivered fuel' = .ok s := by
  rw [freeDelivered, withFuel_eq_ok] at h ⊢
  exact Loop.run_mono h hle

theorem updateHighestStatus_mono (h : e.updateHighestStatus fuel x = .ok e') (hle : fuel ≤ fuel') :
    e.updateHighestStatus fuel' x = .ok e' := by
  rw [updateHighestStatus] at h ⊢
  split at h
  · rename_i hx
    split at h
    · cases h
    · rename_i sn hsn
      rw [if_pos hx, skipDelivered_mono hsn hle]
      exact h
  · rename_i hx
    rw [if_neg hx]
    exact h

theorem updateRxNext_mono (h : e.updateRxNext fuel x = .ok e') (hle : fuel ≤ fuel') :
    e.updateRxNext fuel' x = .ok e' := by
  rw [updateRxNext] at h ⊢
  split at h
  · rename_i hx
    split at h
    · cases h
    · rename_i hf
      rw [if_pos hx, freeDelivered_mono hf hle]
      exact h
  · rename_i hx
    rw [if_neg hx]
    exact h

/-! ## The single loops -/

theorem exists_skipDelivered (h0 : 0 ≤ x) (h1 : x < e.snModulus) : (∃ fuel sn, e.skipDelivered fuel x = .ok sn) ↔
      ∃ j : Nat, e.sduDelivered ((x + j) % e.snModulus) = false := by
  have hrun := Loop.exists_run_iff (fun sn => e.sduDelivered sn) (fun sn => (sn + 1) % e.snModulus) x
  simp only [iterate_succ_emod h0 h1, Bool.not_eq_true] at hrun
  rw [← hrun]
  simp only [skipDelivered, withFuel_eq_ok, Option.ne_none_iff_exists']

theorem exists_skipDelivered_of (h0 : 0 ≤ x) (h1 : x < e.snModulus) (hs0 : 0 ≤ sn)
    (hs1 : sn < e.snModulus) (hsn : e.sduDelivered sn = false) : ∃ fuel sn, e.skipDelivered fuel x = .ok sn := by
  have hd : 0 ≤ offset e.snModulus x sn := offset_nonneg (by omega)
  refine (exists_skipDelivered h0 h1).mpr ⟨(offset e.snModulus x sn).toNat, ?_⟩
  rw [Int.toNat_of_nonneg hd, add_offset_emod hs0 hs1]
  exact hsn

theorem exists_scanRxPdu {lastSn : Int} (hx0 : 0 ≤ x) (hx1 : x < e.snModulus) (hl0 : 0 ≤ lastSn)
    (hl1 : lastSn < e.snModulus) : ∃ fuel l, e.scanRxPdu fuel lastSn x = .ok l := by
  have hd : 0 ≤ offset e.snModulus x lastSn := offset_nonneg (by omega)
  have hend : ∃ j, ¬((fun sn => (sn + 1) % e.snModulus)^[j] x ≠ lastSn ∧
      e.rx.getPduFromSn ((fun sn => (sn + 1) % e.snModulus)^[j] x) = []) := by
    refine ⟨(offset e.snModulus x lastSn).toNat, fun hc => hc.1 ?_⟩
    rw [iterate_succ_emod hx0 hx1, Int.toNat_of_nonneg hd, add_offset_emod hl0 hl1]
  obtain ⟨fuel, hrun⟩ := (Loop.exists_run_iff (fun sn => sn ≠ lastSn ∧ e.rx.getPduFromSn sn = []) _ _).mpr hend
  obtain ⟨sn, hsn⟩ := Option.ne_none_iff_exists'.mp hrun
  exact ⟨fuel, _, by rw [scanRxPdu, hsn]; rfl⟩

theorem exists_checkTReassembly (h : e.rxState.Inv) : ∃ fuel e', e.checkTReassembly fuel = .ok e' := by
  by_cases hexp : e.TReassemblyExpired
  · obtain ⟨-, -, t3, t4⟩ := h.trigger hexp.1
    have hz : e.rxState.d e.rxNext = 0 := offset_self
    have hnext : e.sduDelivered e.rxNext = false := by
      rw [sduDelivered_eq h.toGeometry, hz]
      exact h.next
    obtain ⟨fuel, sn, hsn⟩ :=
      exists_skipDelivered_of t3 t4 h.rxNext_nonneg h.rxNext_lt hnext
    refine ⟨fuel, (e.moveHighestStatus sn).restartTReassembly, ?_⟩
    rw [checkTReassembly, if_neg (not_not.mpr hexp)]
    exact bind_eq_ok.mpr ⟨sn, hsn, rfl⟩
  · exact ⟨0, e, by rw [checkTReassembly, if_pos hexp]⟩

/-! ## `reception_actions` -/

def OthersDelivered (e : Am) : Prop :=
  ∀ k, 1 ≤ k → k < e.windowSize → e.sduDelivered ((e.rxNext + k) % e.snModulus)

theorem not_exists_skipDelivered (h : e.rxState.Geometry)
    (hall : ∀ k, 0 ≤ k → k < e.windowSize → processed (e.rx.at k)) (h0 : 0 ≤ x)
    (h1 : x < e.snModulus) : ¬∃ fuel sn, e.skipDelivered fuel x = .ok sn := by
  rw [exists_skipDelivered h0 h1]
  rintro ⟨j, hj⟩
  have hw : 0 < e.windowSize := h.window_pos
  have hmod := emod_nonneg_lt hw (e.rxState.d x + j)
  have hat : e.rx.at (e.rxState.d x + j) = e.rx.at ((e.rxState.d x + j) % e.windowSize) :=
    h.at_emod _
  rw [sduDelivered_from h h0 h1, hat, hall _ hmod.1 hmod.2] at hj
  exact Bool.noConfusion hj

/-- The search that starts at the SDU just delivered. It fails to end only if that SDU was the last
one of the ring that was not delivered. -/
theorem exists_updateHighestStatus (h : e.rxState.Delivering x) (hx0 : 0 ≤ x)
    (hx1 : x < e.snModulus) (hx : processed (e.rx.at (e.rxState.d x))) :
    (∃ fuel e', e.updateHighestStatus fuel x = .ok e') ↔
      ¬(x = e.rxNext ∧ x = e.rxHighestStatus ∧ e.OthersDelivered) := by
  have hg := h.toGeometry
  have hz : e.rxState.d e.rxNext = 0 := offset_self
  have heq : ∀ fuel, x = e.rxHighestStatus →
      ((∃ e', e.updateHighestStatus fuel x = .ok e') ↔ ∃ sn, e.skipDelivered fuel x = .ok sn) := by
    intro fuel hs
    rw [updateHighestStatus, if_pos hs, ← hs]
    cases e.skipDelivered fuel x <;> simp
  by_cases hs : x = e.rxHighestStatus
  · have hiff : (∃ fuel e', e.updateHighestStatus fuel x = .ok e') ↔
        ∃ fuel sn, e.skipDelivered fuel x = .ok sn := exists_congr fun fuel => heq fuel hs
    rw [hiff]
    constructor
    · rintro hex ⟨hn, -, hothers⟩
      refine not_exists_skipDelivered hg (fun k hk0 hk => ?_) hx0 hx1 hex
      by_cases hk1 : k = 0
      · rw [hk1, ← hz, ← hn]
        exact hx
      · have := hothers k (by omega) hk
        rwa [sduDelivered_add hg] at this
    · intro hnot
      by_cases hn : x = e.rxNext
      · -- some other SDU of the window is not delivered
        have hex : ∃ k, 1 ≤ k ∧ k < e.windowSize ∧ e.sduDelivered ((e.rxNext + k) % e.snModulus) = false := by
          by_contra hc
          refine hnot ⟨hn, hs, fun k hk1 hk => ?_⟩
          by_contra hk'
          exact hc ⟨k, hk1, hk, Bool.eq_false_of_not_eq_true hk'⟩
        obtain ⟨k, hk1, hk, hkd⟩ := hex
        have hr := emod_nonneg_lt hg.modulus_pos (e.rxNext + k)
        exact exists_skipDelivered_of hx0 hx1 hr.1 hr.2 hkd
      · have hnext : e.sduDelivered e.rxNext = false := by
          rw [sduDelivered_eq hg, hz]
          exact h.next hn
        exact exists_skipDelivered_of hx0 hx1 hg.rxNext_nonneg hg.rxNext_lt hnext
  · refine ⟨fun _ hc => hs hc.2.1, fun _ => ⟨0, e, ?_⟩⟩
    rw [updateHighestStatus, if_neg hs]

theorem exists_updateRxNext (h : e.rxState.Geometry) : ∃ fuel e', e.updateRxNext fuel x = .ok e' := by
  obtain ⟨fuel, ⟨rx, rxNext, count⟩, hf⟩ := freeDelivered_terminates h
  by_cases hx : x = e.rxNext
  · exact ⟨fuel, _, by rw [updateRxNext, if_pos hx, hf]⟩
  · exact ⟨fuel, e, by rw [updateRxNext, if_neg hx]⟩

theorem exists_reassembleAndDeliver (h : SlotOk x (e.rx.getPduFromSn x))
    (hp : processed (e.rx.getPduFromSn x) = false) : ∃ e', e.reassembleAndDeliver x = .ok e' := by
  obtain ⟨r, hr⟩ := reassembleLoop_ok (h.fresh hp) [] 0
  simp only [reassembleAndDeliver, hr]
  cases r with
  | none => exact ⟨_, rfl⟩
  | some sdu => exact ⟨_, rfl⟩

theorem exists_deliverFull (h : e.rxState.Inv) (h0 : 0 ≤ x) (h1 : x < e.snModulus) (hw : e.rxState.d x < e.windowSize) :
    (∃ fuel e', e.deliverFull fuel x = .ok e') ↔
      ¬(e.sduFull x ∧ x = e.rxNext ∧ x = e.rxHighestStatus ∧ e.OthersDelivered) := by
  by_cases hfull : e.sduFull x
  · obtain ⟨hp, hf⟩ := sduFull_eq_true hfull
    have hg := h.toGeometry
    have hslot := h.toCore.slotOk h0 h1 hw
    obtain ⟨e₁, hr₁⟩ := exists_reassembleAndDeliver hslot hp
    have hrx := reassembleAndDeliver_rxState hr₁
    have hd₁ : e₁.rxState.Delivering x := by
      rw [hrx]
      exact h.mark h0 h1 hw hf
    have hat : ∀ k, 0 ≤ k → k < e.windowSize →
        e₁.rx.at k = if k = e.rxState.d x then marked (e.rx.getPduFromSn x) else e.rx.at k := by
      have hrx' : e₁.rx = e.rx.setSlot x (marked (e.rx.getPduFromSn x)) := congrArg RxState.rx hrx
      intro k hk0 hk
      rw [hrx']
      exact hg.at_setSlot h0 h1 hw _ hk0 hk
    have hn : e₁.rxNext = e.rxNext := congrArg RxState.rxNext hrx
    have hs : e₁.rxHighestStatus = e.rxHighestStatus := congrArg RxState.rxHighestStatus hrx
    have hwin : e₁.windowSize = e.windowSize := congrArg RxState.windowSize hrx
    have hmod : e₁.snModulus = e.snModulus := congrArg RxState.snModulus hrx
    have hdx : e₁.rxState.d x = e.rxState.d x := by rw [hrx]; rfl
    have hmark : processed (e₁.rx.at (e₁.rxState.d x)) := by
      obtain ⟨c, t, hct, -⟩ := sduFullLoop_head hf
      rw [hdx, hat _ hg.d_nonneg hw, if_pos rfl]
      exact processed_marked (by rw [hct]; simp)
    have hstatus := exists_updateHighestStatus hd₁ h0 (by rw [hmod]; exact h1) hmark
    -- marking the SDU at `rx_next` does not change what the other slots hold
    have hothers : x = e.rxNext → (e₁.OthersDelivered ↔ e.OthersDelivered) := by
      intro hx
      have hz : e.rxState.d x = 0 := by rw [hx]; exact offset_self
      have hk : ∀ k, 1 ≤ k → k < e.windowSize → e₁.sduDelivered ((e₁.rxNext + k) % e₁.snModulus) =
            e.sduDelivered ((e.rxNext + k) % e.snModulus) := by
        intro k hk1 hk
        rw [sduDelivered_add hd₁.toGeometry, sduDelivered_add hg, hat k (by omega) hk, if_neg (by omega)]
      simp only [OthersDelivered, hwin]
      exact forall_congr' fun k => imp_congr_right fun hk1 => imp_congr_right fun hk' => by
        rw [hk k hk1 hk']
    have hcond : (x = e₁.rxNext ∧ x = e₁.rxHighestStatus ∧ e₁.OthersDelivered) ↔
        (x = e.rxNext ∧ x = e.rxHighestStatus ∧ e.OthersDelivered) := by
      rw [hn, hs]
      exact and_congr_right fun hx => and_congr_right fun _ => hothers hx
    rw [hcond] at hstatus
    have hiff : (∃ fuel e', e.deliverFull fuel x = .ok e') ↔ ∃ fuel e', e₁.updateHighestStatus fuel x = .ok e' := by
      constructor
      · rintro ⟨fuel, e', hr⟩
        simp only [deliverFull, if_pos hfull, bind_eq_ok, hr₁, Except.ok.injEq, exists_eq_left'] at hr
        obtain ⟨e₂, hr₂, -⟩ := hr
        exact ⟨fuel, e₂, hr₂⟩
      · rintro ⟨fuel, e₂, hr₂⟩
        obtain ⟨sn, rfl, hcore, -⟩ := updateHighestStatus_ok hd₁ hr₂
        obtain ⟨fuel', e₃, hr₃⟩ := exists_updateRxNext (x := x) hcore.toGeometry
        refine ⟨max fuel fuel', e₃, ?_⟩
        simp only [deliverFull, if_pos hfull, bind_eq_ok, hr₁, Except.ok.injEq, exists_eq_left']
        exact ⟨_, updateHighestStatus_mono hr₂ (le_max_left ..), updateRxNext_mono hr₃ (le_max_right ..)⟩
    rw [hiff, hstatus]
    simp [hfull]
  · refine ⟨fun _ hc => hfull hc.1, fun _ => ⟨0, e, ?_⟩⟩
    rw [deliverFull, if_neg hfull]

/-! ## `recv_pdu` -/

theorem at_storePdu (h : e.rxState.Inv) (h0 : 0 ≤ sn) (h1 : sn < e.snModulus)
    (hw : e.rxState.d sn < e.windowSize) (hn : sn = e.rxNext) {k : Int} (hk1 : 1 ≤ k) (hk : k < e.windowSize) :
    ((e.storePdu (nrRlcNewPdu sn so isFirst isLast data)).updateRxNextHighest sn).rx.at k = e.rx.at k := by
  have hz : e.rxState.d sn = 0 := by rw [hn]; exact offset_self
  refine (h.toGeometry.at_setSlot h0 h1 hw _ (by omega) hk).trans (if_neg ?_)
  omega

/-- The segment completes the SDU at `rx_next`, where `rx_highest_status` is too, and every other
SDU of the window has been delivered. -/
structure FillsLastGap (e : Am) (sn so : Int) (isFirst isLast : Bool) (data : List UInt8) : Prop where
  accepted : e.AcceptsData sn so isFirst data
  next : sn = e.rxNext
  status : sn = e.rxHighestStatus
  full : sduFullLoop (RxManager.insertBySo (nrRlcNewPdu sn so isFirst isLast data)
    (e.rx.getPduFromSn sn)) (-1)
  others : e.OthersDelivered

theorem exists_recvDataPdu (p : Int) (isFirst isLast : Bool) (data : List UInt8) (size : Nat) (h : e.rxState.Inv)
    (h0 : 0 ≤ sn) (h1 : sn < e.snModulus) (hso : 0 ≤ so) (hfirst : isFirst → so = 0) :
    (∃ fuel e', e.recvDataPdu fuel p sn so isFirst isLast data size = .ok e') ↔
      ¬e.FillsLastGap sn so isFirst isLast data := by
  by_cases ha : e.AcceptsData sn so isFirst data
  · obtain ⟨hst, hw⟩ := storePdu_inv isLast h ha h0 h1 hso hfirst
    have hg := h.toGeometry
    have hslot : ((e.storePdu (nrRlcNewPdu sn so isFirst isLast data)).updateRxNextHighest sn).rx.getPduFromSn sn =
          RxManager.insertBySo (nrRlcNewPdu sn so isFirst isLast data) (e.rx.getPduFromSn sn) :=
      RxManager.setSlot_getPduFromSn_self ..
    have hiff : (∃ fuel e', e.recvDataPdu fuel p sn so isFirst isLast data size = .ok e') ↔
        ∃ fuel e', ((e.storePdu (nrRlcNewPdu sn so isFirst isLast data)).updateRxNextHighest
          sn).deliverFull fuel sn = .ok e' := by
      simp only [recvDataPdu_of_accepts ha, map_eq_ok, receptionActions, bind_eq_ok]
      constructor
      · rintro ⟨fuel, -, -, ⟨e₁, hr, -⟩, -⟩
        exact ⟨fuel, e₁, hr⟩
      · rintro ⟨fuel, e₁, hr⟩
        exact ⟨fuel, _, _, ⟨e₁, hr, rfl⟩, rfl⟩
    rw [hiff, exists_deliverFull hst h0 h1 hw, not_iff_not]
    constructor
    · rintro ⟨hfull, hn, hs, hothers⟩
      refine ⟨ha, hn, hs, by rw [← hslot]; exact (sduFull_eq_true hfull).2, fun k hk1 hk => ?_⟩
      have hk' := hothers k hk1 hk
      rw [sduDelivered_add hst.toGeometry] at hk'
      rw [sduDelivered_add hg, ← at_storePdu h h0 h1 hw hn hk1 hk]
      exact hk'
    · rintro ⟨-, hn, hs, hfull, hothers⟩
      refine ⟨?_, hn, hs, fun k hk1 hk => ?_⟩
      · have hz : ((e.storePdu (nrRlcNewPdu sn so isFirst isLast data)).updateRxNextHighest
            sn).rxState.d sn = 0 := by rw [hn]; exact offset_self
        have hp : processed (((e.storePdu (nrRlcNewPdu sn so isFirst isLast
            data)).updateRxNextHighest sn).rx.getPduFromSn sn) = false := by
          have := hst.next
          rw [← hz, ← hst.toGeometry.getPduFromSn] at this
          exact this
        rw [sduFull, hp, hslot]
        exact hfull
      · have hk' := hothers k hk1 hk
        rw [sduDelivered_add hg] at hk'
        rw [sduDelivered_add hst.toGeometry]
        exact (congrArg processed (at_storePdu h h0 h1 hw hn hk1 hk)).trans hk'
  · obtain ⟨triggered, stats, hd⟩ := recvDataPdu_of_not_accepts 0 p isLast size ha
    exact ⟨fun _ hc => ha hc.accepted, fun _ => ⟨0, _, hd⟩⟩

def FullTurn (e : Am) (buffer : List UInt8) : Prop :=
  ((Decoder.init buffer).getBits 1).2.error = false ∧ ((Decoder.init buffer).getBits 1).1 ≠ 0 ∧
  (e.readDataHeader ((Decoder.init buffer).getBits 1).2).2.error = false ∧
  e.FillsLastGap (e.readDataHeader ((Decoder.init buffer).getBits 1).2).1.2.2.1
    (e.readDataHeader ((Decoder.init buffer).getBits 1).2).1.2.2.2
    ((e.readDataHeader ((Decoder.init buffer).getBits 1).2).1.2.1 / 2 % 2 = 0)
    ((e.readDataHeader ((Decoder.init buffer).getBits 1).2).1.2.1 % 2 = 0)
    (buffer.drop (e.readDataHeader ((Decoder.init buffer).getBits 1).2).2.byte)

theorem RxGood.exists_recvPdu (h : RxGood c e) (buffer : List UInt8) :
    (∃ fuel e', e.recvPdu fuel buffer = .ok e') ↔ ¬e.FullTurn buffer := by
  have hc : RxGood c (e.countRxPdu buffer.length) := ⟨h.config, h.inv⟩
  have hrange := @readDataHeader_range e ((Decoder.init buffer).getBits 1).2
  have hheader : (e.countRxPdu buffer.length).readDataHeader = e.readDataHeader := rfl
  simp only [recvPdu, FullTurn, hheader]
  generalize (Decoder.init buffer).getBits 1 = dc at hrange ⊢
  generalize e.readDataHeader dc.2 = hd at hrange ⊢
  by_cases hdc : dc.2.error
  · simp [hdc]
  by_cases hz : dc.1 = 0
  · simp [hdc, hz]
  by_cases herr : hd.2.error
  · simp [hdc, hz, herr]
  obtain ⟨h0, h1, hso, hfirst⟩ := hrange (Bool.eq_false_of_not_eq_true herr)
  have hdata := exists_recvDataPdu hd.1.1 (hd.1.2.1 / 2 % 2 = 0) (hd.1.2.1 % 2 = 0) (buffer.drop hd.2.byte)
    buffer.length hc.inv h0 (by rw [hc.snModulus]; exact h1) hso (fun hf => hfirst (by simpa using hf))
  simp only [if_neg hdc, if_neg hz, if_neg herr]
  rw [hdata, not_iff_not]
  constructor
  · intro hf
    exact ⟨Bool.eq_false_of_not_eq_true hdc, hz, Bool.eq_false_of_not_eq_true herr,
      ⟨hf.1.1, hf.1.2, hf.1.3, hf.1.4, hf.1.5⟩, hf.2, hf.3, hf.4, hf.5⟩
  · rintro ⟨-, -, -, hf⟩
    exact ⟨⟨hf.1.1, hf.1.2, hf.1.3, hf.1.4, hf.1.5⟩, hf.2, hf.3, hf.4, hf.5⟩

/-- The loops of the receiver end in every reachable state: `recv_pdu` returns unless the PDU fills
the last gap of the ring, and the timer check and the scans for a status report always end. -/
theorem receive_loops_end (h : Reachable c e) :
    (∀ buffer, (∃ e', e.Returns (.recvPdu buffer) e') ↔ ¬e.FullTurn buffer) ∧
    (∀ now, ∃ fuel, e.setTime fuel now ≠ .error .outOfFuel) ∧ (∃ fuel l, e.getFirstRxPdu fuel = .ok l) ∧
    ∀ cur rest, ∃ fuel l, e.getNextRxPdu fuel cur rest = .ok l := by
  have hgood := reaches_good h
  have hi := hgood.inv
  refine ⟨fun buffer => ?_, fun now => ?_, ?_, fun cur rest => ?_⟩
  · rw [← hgood.exists_recvPdu]
    exact exists_comm
  · have hg : RxGood c { e with tCurrent := u64 now } := ⟨hgood.config, hgood.inv⟩
    cases hp : { e with tCurrent := u64 now }.checkTPollRetransmit with
    | error f =>
      refine ⟨0, ?_⟩
      rw [setTime, hp, (checkTPollRetransmit_error hp).1]
      exact fun hc => by cases hc
    | ok e₁ =>
      have hg₁ := hg.of_outsideTx (checkTPollRetransmit_outside hp)
      obtain ⟨fuel, e₂, hr⟩ := exists_checkTReassembly hg₁.inv
      refine ⟨fuel, ?_⟩
      rw [setTime, hp]
      show e₁.checkTReassembly fuel ≠ _
      rw [hr]
      exact fun hc => by cases hc
  · exact exists_scanRxPdu hi.rxNext_nonneg hi.rxNext_lt hi.status_nonneg hi.status_lt
  · have hr := emod_nonneg_lt hi.toGeometry.modulus_pos (cur.sn + 1)
    obtain ⟨fuel, l, hs⟩ := exists_scanRxPdu (e := e) hr.1 hr.2 hi.status_nonneg hi.status_lt
    by_cases hrest : rest = []
    · by_cases hcur : cur.sn = e.rxHighestStatus
      · exact ⟨0, [], by rw [getNextRxPdu, if_neg (not_not.mpr hrest), if_pos hcur]⟩
      · exact ⟨fuel, l, by rw [getNextRxPdu, if_neg (not_not.mpr hrest), if_neg hcur]; exact hs⟩
    · exact ⟨0, rest, by rw [getNextRxPdu, if_pos hrest]⟩

/-- A new entity is ready for any PDU, so `receive_loops_end` says that it returns. -/
theorem receive_loops_end_new : ∃ e', Returns (newNrRlcEntityAm .test1) (.recvPdu [0x80, 5, 1]) e' := by
  refine ((receive_loops_end (c := .test1) .new).1 _).mpr fun hf => ?_
  have hd := hf.2.2.2.others 1 (by decide) (by decide)
  exact absurd hd (by decide)

/-! ## A run into the endless loop

An entity with 12-bit SNs receives a complete SDU for every SN of the window but the first. The
SDU with SN 0 then fills the ring. -/

def singlePdu (sn : Nat) : List UInt8 := (((Encoder.init [0, 0, 0]).putBits 8 4).putBits sn 12).buffer

theorem bits_singlePdu (sn : Nat) : Bits.bits (singlePdu sn) =
    [true] ++ ([false] ++ ([false, false] ++ (Bits.toBits 12 sn ++ Bits.bits [0]))) := by
  have hput : singlePdu sn = ((Encoder.init [0, 0, 0]).putList (Bits.toBits 4 8 ++ Bits.toBits 12 sn)).buffer := by
    rw [singlePdu, Encoder.putBits_eq, Encoder.putBits_eq, ← Encoder.putList_append]
    rfl
  obtain ⟨-, -, -, -, htake, hdrop⟩ := Encoder.putList_init [0, 0, 0] (k := 2)
    (l := Bits.toBits 4 8 ++ Bits.toBits 12 sn) (by simp) (by simp)
  rw [← hput] at htake hdrop
  rw [← List.take_append_drop 2 (singlePdu sn), Bits.bits_append, htake, hdrop]
  rfl

theorem recvPdu_single (fuel : Nat) {sn : Nat} (hlen : e.snFieldLength = 12) (hsn : sn < 2 ^ 12) :
    e.recvPdu fuel (singlePdu sn) =
      (e.countRxPdu (singlePdu sn).length).recvDataPdu fuel 0 sn 0 true true [0] (singlePdu sn).length := by
  have hrest := (Decoder.rest_init (singlePdu sn)).trans (bits_singlePdu sn)
  generalize singlePdu sn = buffer at hrest ⊢
  obtain ⟨v0, ok0, rest0, buf0⟩ := Decoder.getBits_append (n := 1) (Decoder.init_ok _) hrest rfl
  obtain ⟨v1, ok1, rest1, buf1⟩ := Decoder.getBits_append (n := 1) ok0 rest0 rfl
  obtain ⟨v2, ok2, rest2, buf2⟩ := Decoder.getBits_append (n := 2) ok1 rest1 rfl
  obtain ⟨v3, ok3, rest3, buf3⟩ := Decoder.getBits_append (n := 12) ok2 rest2 (Bits.length_toBits ..)
  have hdata := drop_byte_of_rest ok3 rest3
  have hlen' : (e.countRxPdu buffer.length).snFieldLength = 12 := hlen
  rw [buf3, buf2, buf1, buf0, show (Decoder.init buffer).buffer = buffer from rfl] at hdata
  rw [Bits.ofBits_toBits_of_lt hsn] at v3
  simp [recvPdu, readDataHeader, hlen', v0, v1, v2, v3, ok0.error, ok3.error, hdata, Bits.ofBits, Bits.ofBitsFrom]

def counters (e : Am) : Int × Int × Int × Int × Int :=
  (e.rxNext, e.rxHighestStatus, e.rxSize, e.rxMaxsize, e.windowSize)

/-- The receiver once it has the SDUs `1, ..., n`, in front of the first one. -/
structure BeforeFirst (n : Nat) (e : Am) : Prop where
  good : RxGood .test1 e
  counters : e.counters = (0, 0, 0, 500000, 2048)
  delivered : ∀ k : Int, 1 ≤ k → k ≤ n → processed (e.rx.at k)
  empty : ∀ k : Int, (k = 0 ∨ n < k) → k < 2048 → 0 ≤ k → e.rx.at k = []

theorem BeforeFirst.fields {n : Nat} (h : BeforeFirst n e) : e.rxNext = 0 ∧ e.rxHighestStatus = 0 ∧ e.rxSize = 0 ∧
    e.rxMaxsize = 500000 ∧ e.windowSize = 2048 ∧ e.snModulus = 4096 ∧ e.snFieldLength = 12 := by
  have hc := h.counters
  have hm := h.good.config
  simp only [Am.counters, snConfig, Prod.mk.injEq] at hc hm
  exact ⟨hc.1, hc.2.1, hc.2.2.1, hc.2.2.2.1, hc.2.2.2.2, hm.2.1, hm.1⟩

theorem BeforeFirst.at_setSlot {n k : Nat} (h : BeforeFirst n e) (hk : k < 2048) (l : List Pdu) {i : Int} (h0 : 0 ≤ i)
    (hi : i < 2048) : (e.rx.setSlot k l).at i = if i = k then l else e.rx.at i := by
  obtain ⟨hn, -, -, -, hw, hm, -⟩ := h.fields
  have hd : e.rxState.d k = k := by
    show (k - e.rxNext) % e.snModulus = k
    rw [hn, hm]
    omega
  have := h.good.inv.toGeometry.at_setSlot (a := k) (by omega) (show (k : Int) < e.snModulus by omega)
    (show e.rxState.d k < e.windowSize by omega) l h0 (show i < e.windowSize by omega)
  rwa [hd] at this

theorem BeforeFirst.accepts {n k : Nat} (h : BeforeFirst n e) (hk : k = 0 ∨ n < k) (hk' : k < 2048) :
    (e.countRxPdu (singlePdu k).length).AcceptsData k 0 true [0] ∧ e.rx.getPduFromSn k = [] := by
  obtain ⟨hn, -, hsize, hmax, hw, hm, -⟩ := h.fields
  have hslot : e.rx.getPduFromSn k = [] := by
    have hget : e.rx.getPduFromSn ((e.rxNext + k) % e.snModulus) = e.rx.at k :=
      h.good.inv.toGeometry.getPduFromSn_add k
    rw [hn, hm, Int.zero_add, Int.emod_eq_of_lt (by omega) (by omega)] at hget
    exact hget.trans (h.empty k (by omega) (by omega) (by omega))
  refine ⟨⟨by simp, by simp, ?_, ?_, ?_⟩, hslot⟩
  · show ¬ e.rxSize + 1 > e.rxMaxsize
    omega
  · show e.SnInRecvWindow k
    rw [SnInRecvWindow, modulusRx, hn, hw, hm]
    split <;> omega
  · simp [segmentAlreadyReceived, countRxPdu, hslot, coveredLoop]

/-- A whole SDU is delivered, and the loops follow. -/
theorem BeforeFirst.recvPdu {n k : Nat} (h : BeforeFirst n e) (hk : k = 0 ∨ n < k) (hk' : k < 2048) :
    ∃ e₁ : Am, e₁.counters = e.counters ∧ e₁.rx = e.rx.setSlot k (marked [nrRlcNewPdu k 0 true true [0]]) ∧
      e₁.rxState.Geometry ∧ ∀ fuel, e.recvPdu fuel (singlePdu k) =
        (e₁.updateHighestStatus fuel k >>= (·.updateRxNext fuel k)).map
          (·.stopTReassembly.startTReassembly.answerPoll 0) := by
  obtain ⟨hacc, hslot⟩ := h.accepts hk hk'
  have hsingle (fuel : Nat) := recvPdu_single fuel h.fields.2.2.2.2.2.2 (show k < 2 ^ 12 by omega)
  generalize (singlePdu k).length = size at hacc hsingle
  obtain ⟨e₀, he₀⟩ : ∃ e₀, e₀ = ((e.countRxPdu size).storePdu (nrRlcNewPdu k 0 true true [0])).updateRxNextHighest k :=
    ⟨_, rfl⟩
  have hslot₀ : e₀.rx.getPduFromSn k = [nrRlcNewPdu k 0 true true [0]] := by
    rw [he₀]
    show (e.rx.setSlot k (RxManager.insertBySo _ (e.rx.getPduFromSn k))).getPduFromSn k = _
    rw [RxManager.setSlot_getPduFromSn_self, hslot]
    rfl
  have hfull : e₀.sduFull k := by
    rw [sduFull, hslot₀]
    simp [processed, sduFullLoop, nrRlcNewPdu]
  have hre : reassembleLoop [nrRlcNewPdu k 0 true true [0]] [] 0 = .ok (some [0]) := by
    simp [reassembleLoop, nrRlcNewPdu, nrSduMax]
  have hg := h.good.inv.toGeometry
  obtain ⟨e₁, hdeliver, hc⟩ : ∃ e₁, e₀.reassembleAndDeliver k = .ok e₁ ∧ e₁.counters = e.counters := by
    simp only [reassembleAndDeliver, hslot₀, hre]
    refine ⟨_, rfl, ?_⟩
    simp [he₀, Am.counters, updateRxNextHighest, storePdu, countRxPdu, nrRlcNewPdu]
  have hrx := reassembleAndDeliver_rxState hdeliver
  rw [hslot₀] at hrx
  have hg₁ : e₁.rxState.Geometry := by
    rw [hrx, he₀]
    exact ⟨hg.modulus, hg.window_pos, hg.size, hg.snStart, hg.rxNext_nonneg, hg.rxNext_lt⟩
  refine ⟨e₁, hc, ?_, hg₁, fun fuel => ?_⟩
  · refine (congrArg RxState.rx hrx).trans ?_
    rw [he₀]
    exact RxManager.setSlot_setSlot ..
  · rw [hsingle, recvDataPdu_of_accepts hacc, receptionActions, ← he₀, deliverFull, if_pos hfull, hdeliver, ok_bind]
    cases e₁.updateHighestStatus fuel k >>= fun e => e.updateRxNext fuel k <;> rfl

theorem BeforeFirst.recv {n : Nat} (h : BeforeFirst n e) (hn : n + 1 < 2048) :
    ∃ e', e.Returns (.recvPdu (singlePdu (n + 1))) e' ∧ BeforeFirst (n + 1) e' := by
  obtain ⟨e₁, hc, hrx, -, hrecv⟩ := h.recvPdu (k := n + 1) (by omega) hn
  rw [h.counters] at hc
  have hnext : ((n + 1 : Nat) : Int) ≠ e₁.rxNext := by
    rw [show e₁.rxNext = 0 from congrArg (·.1) hc]
    omega
  have hstatus : ((n + 1 : Nat) : Int) ≠ e₁.rxHighestStatus := by
    rw [show e₁.rxHighestStatus = 0 from congrArg (·.2.1) hc]
    omega
  have hret : e.recvPdu 0 (singlePdu (n + 1)) = .ok (e₁.stopTReassembly.startTReassembly.answerPoll 0) := by
    rw [hrecv, updateHighestStatus, if_neg hstatus, ok_bind, updateRxNext, if_neg hnext]
    rfl
  obtain ⟨hc', hrx'⟩ : (e₁.stopTReassembly.startTReassembly.answerPoll 0).counters = e₁.counters ∧
      (e₁.stopTReassembly.startTReassembly.answerPoll 0).rx = e₁.rx := by
    rw [startTReassembly, stopTReassembly]
    split <;> split <;> exact ⟨rfl, rfl⟩
  refine ⟨_, ⟨0, hret⟩, recvPdu_good h.good hret, hc'.trans hc, fun k hk1 hk => ?_, fun k hk hk' hk0 => ?_⟩
  · rw [hrx', hrx, h.at_setSlot hn _ (by omega) (by omega)]
    split
    · rfl
    · exact h.delivered k hk1 (by omega)
  · rw [hrx', hrx, h.at_setSlot hn _ hk0 hk', if_neg (by omega)]
    exact h.empty k (by omega) hk' hk0

theorem exists_beforeFirst (n : Nat) (hn : n < 2048) : ∃ e, Reachable .test1 e ∧ BeforeFirst n e := by
  induction n with
  | zero => exact ⟨_, .new, newNrRlcEntityAm_good _, rfl, fun k hk1 hk => by omega, fun _ _ _ _ => rfl⟩
  | succ n ih =>
    obtain ⟨e, he, hb⟩ := ih (by omega)
    obtain ⟨e', hr, hb'⟩ := hb.recv hn
    exact ⟨e', .step he trivial hr, hb'⟩

/-- The receiver has delivered the SDUs 1, ..., 2047 when the SDU 0 arrives: `recv_pdu` does not
return. -/
theorem recvPdu_endless : ∃ e, Reachable .test1 e ∧ ∀ fuel, e.recvPdu fuel (singlePdu 0) = .error .outOfFuel := by
  obtain ⟨e, he, hb⟩ := exists_beforeFirst 2047 (by omega)
  obtain ⟨e₁, hc, hrx, hg, hrecv⟩ := hb.recvPdu (k := 0) (.inl rfl) (by omega)
  rw [hb.counters] at hc
  have hs : e₁.rxHighestStatus = 0 := congrArg (·.2.1) hc
  have hw : e₁.windowSize = 2048 := congrArg (·.2.2.2.2) hc
  refine ⟨e, he, fun fuel => ?_⟩
  rw [hrecv, updateHighestStatus, if_pos (show ((0 : Nat) : Int) = _ from hs.symm), hs]
  cases hskip : e₁.skipDelivered fuel 0 with
  | ok sn =>
    refine absurd ⟨fuel, sn, hskip⟩ (not_exists_skipDelivered hg (fun k hk0 hk => ?_) (Int.le_refl 0) hg.modulus_pos)
    rw [hrx, hb.at_setSlot (by omega) _ hk0 (by omega)]
    split
    · rfl
    · exact hb.delivered k (by omega) (by omega)
  | error f =>
    rw [skipDelivered_error hskip]
    rfl

end Am

end OaiNr.Rlc
