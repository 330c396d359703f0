import OaiNr.Rlc.Theorems.UmAccounting

/-!
# The receive state of a UM entity
-/

namespace OaiNr.Rlc.Um

variable {e : Um} {p : Pdu} {x : Int} {c : UmConfig}

open OaiNr.Serial

/-- The loop comes to `rx_next_highest`, which is not delivered. -/
theorem InWindow.exists_skipDelivered (h : e.InWindow) (hx : e.win.InRange x) :
    ∃ fuel sn, e.skipDelivered fuel x = .ok sn := by
  have hhigh : ¬e.sduDelivered e.rxNextHighest := by
    intro hdel
    obtain ⟨p, hp, hsn⟩ := mem_of_sduDelivered hdel
    have hlt := h.inWindow p hp
    rw [hsn, show e.win.d e.rxNextHighest = e.windowSize from h.sized.highest] at hlt
    exact Int.lt_irrefl _ hlt
  have hpos : 0 < e.snModulus := h.sized.pos
  have hend : ¬e.sduDelivered ((fun sn => (sn + 1) % e.snModulus)^[(offset e.snModulus x e.rxNextHighest).toNat] x) := by
    rw [iterate_succ_emod hx.1 (show x < e.snModulus from hx.2), Int.toNat_of_nonneg (offset_nonneg hpos),
      add_offset_emod h.highest.1 (show e.rxNextHighest < e.snModulus from h.highest.2)]
    exact hhigh
  obtain ⟨fuel, hrun⟩ := (Loop.exists_run_iff (fun sn => e.sduDelivered sn) _ _).mpr ⟨_, hend⟩
  obtain ⟨sn, hsn⟩ := Option.ne_none_iff_exists'.mp hrun
  exact ⟨fuel, sn, withFuel_eq_ok.mpr hsn⟩

/-- A freed segment has no bytes, so that `reassemble_and_deliver` copies nothing from it. -/
theorem reassembleLoop_returns {l : List Pdu} (h : ∀ p ∈ l, p.data = none → p.size ≤ 0) (sdu : List UInt8) (so : Int) :
    ∃ r, Am.reassembleLoop l sdu so = .ok r := by
  induction l generalizing sdu so with
  | nil => exact ⟨_, rfl⟩
  | cons p l ih =>
    have hp := h p List.mem_cons_self
    have ih := ih fun q hq => h q (List.mem_cons_of_mem _ hq)
    simp only [Am.reassembleLoop]
    split
    · exact ⟨_, rfl⟩
    · split
      · split
        · have := hp ‹_›
          omega
        · exact ih _ _
      · exact ih _ _

theorem InWindow.deliverFull_returns (h : e.InWindow) (hl : ∀ p ∈ e.rxList, p.data = none → p.size ≤ 0)
    (hx : e.win.InRange x) : ∃ fuel e', e.deliverFull fuel x = .ok e' := by
  have hseg : ∀ p ∈ segmentsOf x e.rxList, p.data = none → p.size ≤ 0 := fun p hp =>
    hl p ((List.dropWhile_sublist _).subset ((List.takeWhile_sublist _).subset hp))
  obtain ⟨r, hr⟩ := reassembleLoop_returns hseg [] 0
  obtain ⟨e₁, h₁⟩ : ∃ e₁, e.reassembleAndDeliver x = .ok e₁ := by
    rw [Um.reassembleAndDeliver, hr]
    cases r <;> exact ⟨_, rfl⟩
  have hw₁ := h.reassembleAndDeliver hx h₁
  obtain ⟨fuel, sn, hsn⟩ := hw₁.exists_skipDelivered hw₁.reassembly
  refine ⟨fuel, ?_⟩
  rw [Um.deliverFull, h₁, ok_bind, hsn]
  split <;> exact ⟨_, rfl⟩

theorem AboveWindow.moveWindow_returns (h : e.AboveWindow x) : ∃ fuel e', e.moveWindow fuel x = .ok e' := by
  obtain ⟨fuel, sn, hsn⟩ := h.moved_lowest.exists_skipDelivered h.moved_lowest.reassembly
  refine ⟨fuel, ?_⟩
  by_cases hout : (e.moved x).OutsideWindow e.rxNextReassembly
  · exact ⟨{ e.moved x with rxNextReassembly := sn }, (if_pos hout).trans (bind_eq_ok.mpr ⟨sn, hsn, rfl⟩)⟩
  · exact ⟨e.moved x, if_neg hout⟩

theorem InWindow.receptionActions_returns (h : e.InWindow) (hl : ∀ p ∈ e.rxList, p.data = none → p.size ≤ 0)
    (hx : e.win.InRange p.sn) (hdata : p.data.isNone = false) (hlast : p.so ≤ 0 → p.isLast = false) :
    ∃ fuel e', (e.storePdu p).receptionActions fuel p.sn = .ok e' := by
  have hl' : ∀ q ∈ (e.storePdu p).rxList, q.data = none → q.size ≤ 0 := by
    intro q hq hnone
    rcases List.mem_cons.mp ((pduListAdd_perm e p e.rxList).mem_iff.mp hq) with rfl | hq
    · simp [hnone] at hdata
    · exact hl q hq hnone
  have hout := outsideWindow_iff (e := e.storePdu p) h.sized p.sn
  rcases lt_or_ge (e.win.d p.sn) e.windowSize with hin | habove
  · simp only [Um.receptionActions, receiveSegment, if_neg fun ho => Int.not_le.mpr hin (hout.mp ho)]
    split
    · obtain ⟨fuel, e₁, h₁⟩ := (h.storePdu hx hin).deliverFull_returns hl' hx
      exact ⟨fuel, _, bind_eq_ok.mpr ⟨e₁, h₁, rfl⟩⟩
    · exact ⟨0, _, rfl⟩
  · obtain ⟨fuel, e₁, h₁⟩ := (h.storePdu_above hx habove).moveWindow_returns
    refine ⟨fuel, e₁.stopTReassembly.startTReassembly, ?_⟩
    rw [Um.receptionActions, sduFull_storePdu_above h hx habove hdata hlast, receiveSegment,
      if_pos (hout.mpr habove), h₁]
    rfl

theorem InWindow.recvSegment_returns (h : e.InWindow) (hl : ∀ p ∈ e.rxList, p.data = none → p.size ≤ 0) {so : Int}
    {isFirst isLast : Bool} (hx : e.win.InRange x) (hseg : (isFirst && isLast) = false) (hso : 0 ≤ so)
    (data : List UInt8) (size : Nat) : ∃ fuel e', e.recvSegment fuel x so isFirst isLast data size = .ok e' := by
  by_cases ha : e.AcceptsSegment x so isFirst data
  · simp only [recvSegment_of_accepts ha]
    exact h.receptionActions_returns (p := nrRlcNewPdu x so isFirst isLast data) hl hx rfl (ha.not_last hseg hso)
  · exact ⟨0, _, recvSegment_of_not_accepts ha⟩

theorem RxWf.recvPdu_returns (h : e.RxWf) (hl : ∀ p ∈ e.rxList, p.data = none → p.size ≤ 0)
    (hm : e.snModulus = 2 ^ e.snFieldLength) (buffer : List UInt8) : ∃ fuel e', e.recvPdu fuel buffer = .ok e' := by
  have hcount : (e.countRxPdu buffer.length).InWindow := { h.toInWindow with }
  simp only [Um.recvPdu]
  split
  · exact ⟨0, _, rfl⟩
  split
  · split <;> exact ⟨0, _, rfl⟩
  rename_i hseg
  split
  · exact ⟨0, _, rfl⟩
  · rename_i herr
    obtain ⟨hsn, hso, -⟩ := readSegmentHeader_range (Bool.eq_false_of_not_eq_true herr)
    exact hcount.recvSegment_returns hl ⟨hsn.1, lt_of_lt_of_eq hsn.2 hm.symm⟩ (Bool.eq_false_of_not_eq_true hseg)
      hso _ _

theorem RxWf.setTime_returns (h : e.RxWf) (now : Nat) : ∃ fuel e', e.setTime fuel now = .ok e' := by
  by_cases hexp : ({ e with tCurrent := u64 now } : Um).TReassemblyExpired
  · obtain ⟨fuel, sn, hsn⟩ := h.toInWindow.exists_skipDelivered h.trigger
    exact ⟨fuel, _, (if_neg (not_not.mpr hexp)).trans (bind_eq_ok.mpr ⟨sn, hsn, rfl⟩)⟩
  · exact ⟨0, _, if_pos hexp⟩

/-- Whatever was received, the list is in order and lies below `rx_next_highest`, in the window, as
`rx_next_reassembly` does, which may also be `rx_next_highest`; and every PDU and every time is dealt with. -/
theorem receiver_invariant (h : Reachable c e) :
    e.rxList.Pairwise (fun p q => e.snCompareRx p.sn q.sn < 0 ∨ (p.sn = q.sn ∧ p.so ≤ q.so)) ∧
      (∀ p ∈ e.rxList, ∃ i, 0 ≤ i ∧ i < e.windowSize ∧ p.sn = (e.rxNextHighest - e.windowSize + i) % e.snModulus) ∧
      (∃ i, 0 ≤ i ∧ i ≤ e.windowSize ∧ e.rxNextReassembly = (e.rxNextHighest - e.windowSize + i) % e.snModulus) ∧
      (∀ buffer, ∃ fuel e', e.recvPdu fuel buffer = .ok e') ∧ ∀ now, ∃ fuel e', e.setTime fuel now = .ok e' := by
  have hw := h.rxWf
  have hl : ∀ p ∈ e.rxList, p.data = none → p.size ≤ 0 :=
    h.forall_rxList (fun _ _ => Int.le_refl 0) (by rintro _ _ _ _ _ ⟨⟩)
  refine ⟨hw.ordered.sorted.imp fun {p q} hpq => ?_, fun p hp => ?_, ?_, hw.recvPdu_returns hl h.txWf.modulus,
    hw.setTime_returns⟩
  · rw [snCompareRx_eq]
    exact hpq.imp_left fun hlt => by omega
  · have hp' := hw.ordered.range p hp
    exact ⟨e.win.d p.sn, hw.sized.nonneg _, hw.inWindow p hp, (add_offset_emod hp'.1 hp'.2).symm⟩
  · exact ⟨_, hw.sized.nonneg _, hw.reassembly_le, (add_offset_emod hw.reassembly.1 hw.reassembly.2).symm⟩

/-- A last segment waits for the rest of its SDU. -/
theorem receiver_invariant_segment :
    ∃ e, Reachable um6 e ∧ e.rxList.length = 1 ∧ ∀ now, ∃ fuel e', e.setTime fuel now = .ok e' := by
  have r : Reachable um6 _ := @Reaches.step _ _ _ _ (.recvPdu [0x80, 0, 5, 7]) .new trivial ⟨1, rfl⟩
  exact ⟨_, r, rfl, (receiver_invariant r).2.2.2.2⟩

end OaiNr.Rlc.Um
