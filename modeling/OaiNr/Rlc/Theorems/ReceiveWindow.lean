import OaiNr.Rlc.Lemmas.RxRun

/-!
# The receive window
-/

namespace OaiNr.Rlc.Am

open OaiNr.Serial

def rxDistance (e : Am) (x : Int) : Int := (x - e.rxNext) % e.snModulus

structure RxWindow (e : Am) : Prop where
  status_nonneg : 0 ≤ e.rxDistance e.rxHighestStatus
  status_le : e.rxDistance e.rxHighestStatus ≤ e.rxDistance e.rxNextHighest
  highest_le : e.rxDistance e.rxNextHighest ≤ e.windowSize
  stored : ∀ i, ∀ p ∈ e.rx.rxList i,
    i = e.rx.getPos p.sn ∧ 0 ≤ e.rxDistance p.sn ∧ e.rxDistance p.sn < e.windowSize
  sorted : ∀ i, (e.rx.rxList i).Pairwise fun p q => p.so ≤ q.so
  next : e.sduDelivered e.rxNext = false
  status : e.rxDistance e.rxHighestStatus < e.windowSize → e.sduDelivered e.rxHighestStatus = false

variable {c : AmConfig} {e : Am}

theorem exists_at (h : e.rxState.Inv) {i : Int} (h0 : 0 ≤ i) (hi : i < e.windowSize) :
    ∃ k, 0 ≤ k ∧ k < e.windowSize ∧ e.rx.rxList i = e.rx.at k ∧ (e.rx.start + k) % e.rx.size = i := by
  have hsz : e.rx.size = e.windowSize := h.size
  have hk := emod_nonneg_lt h.window_pos (i - e.rx.start)
  refine ⟨(i - e.rx.start) % e.windowSize, hk.1, hk.2, ?_, ?_⟩
  · rw [← hsz]
    exact e.rx.rxList_eq_at h0 (by omega)
  · rw [hsz, Int.add_emod_emod, show e.rx.start + (i - e.rx.start) = i by omega, Int.emod_eq_of_lt h0 hi]

theorem RxGood.rxWindow (h : RxGood c e) : e.RxWindow := by
  have hi := h.inv
  have hg := hi.toGeometry
  have hmod : e.snModulus = 2 * e.windowSize := hg.modulus
  refine ⟨hg.d_nonneg, hi.status_le, hi.highest_le, fun i p hp => ?_, fun i => ?_, ?_, fun hlt => ?_⟩
  · by_cases hi' : 0 ≤ i ∧ i < e.windowSize
    · obtain ⟨k, hk0, hk, hat, hpos⟩ := exists_at hi hi'.1 hi'.2
      rw [hat] at hp
      have hsn := ((hi.slot k hk0 hk).pdu p hp).sn_eq
      have hd : e.rxDistance ((e.rxNext + k) % e.snModulus) = k :=
        offset_add_emod hk0 (by omega)
      have hgp : e.rx.getPos ((e.rxNext + k) % e.snModulus) = (e.rx.start + k) % e.rx.size :=
        hg.getPos_add k
      rw [hsn]
      change i = e.rx.getPos ((e.rxNext + k) % e.snModulus) ∧ 0 ≤ e.rxDistance ((e.rxNext + k) % e.snModulus) ∧
        e.rxDistance ((e.rxNext + k) % e.snModulus) < e.windowSize
      rw [hd, hgp]
      exact ⟨hpos.symm, hk0, hk⟩
    · have hout : e.rx.rxList i = [] := hi.outside i hi'
      rw [hout] at hp
      exact absurd hp List.not_mem_nil
  · by_cases hi' : 0 ≤ i ∧ i < e.windowSize
    · obtain ⟨k, hk0, hk, hat, -⟩ := exists_at hi hi'.1 hi'.2
      rw [hat]
      exact (hi.slot k hk0 hk).sorted
    · have hout : e.rx.rxList i = [] := hi.outside i hi'
      rw [hout]
      exact List.Pairwise.nil
  · have hz : e.rxState.d e.rxNext = 0 := offset_self
    rw [sduDelivered_eq hg, hz]
    exact hi.next
  · rw [sduDelivered_eq hg]
    exact hi.status hlt

/-- The receive window of every reachable state is in order. -/
theorem rxWindow_of_reachable (h : Reachable c e) : e.RxWindow := (reaches_good h).rxWindow

/-- The state after a 12-bit entity received a PDU with SN 5. -/
theorem rxWindow_after_sn5 : ∃ e, Returns (newNrRlcEntityAm .test1) (.recvPdu [0x80, 5, 1]) e ∧ e.rxNextHighest = 6 ∧
      e.RxWindow := by
  have hrun : ((newNrRlcEntityAm .test1).exec 1 (.recvPdu [0x80, 5, 1])).map Am.rxNextHighest = .ok 6 := by decide
  obtain ⟨e, he, h6⟩ := map_eq_ok.mp hrun
  exact ⟨e, ⟨1, he⟩, h6, rxWindow_of_reachable (.step .new trivial ⟨1, he⟩)⟩

/-! ## Segments that are there already -/

theorem coveredLoop_iff {ls : List Pdu} {so size : Int} (h : ls.Pairwise fun p q => p.so ≤ q.so) :
    coveredLoop ls so size ↔ ∀ i, so ≤ i → i < so + size → ∃ p ∈ ls, p.so ≤ i ∧ i < p.so + p.size := by
  induction ls generalizing so size with
  | nil =>
    simp only [coveredLoop, decide_eq_true_eq, List.not_mem_nil, false_and, exists_false]
    exact ⟨fun h i _ _ => by omega, fun h => not_lt.mp fun hlt => h so le_rfl (by omega)⟩
  | cons l ls ih =>
    obtain ⟨hle, hls⟩ := List.pairwise_cons.mp h
    simp only [List.exists_mem_cons_iff] at ih ⊢
    -- behind a segment that starts too late no other covers the first byte
    have hlate (hlt : so < l.so) : ¬ ∃ p ∈ ls, p.so ≤ so ∧ so < p.so + p.size := by
      rintro ⟨p, hp, hso, -⟩
      have := hle p hp
      omega
    unfold coveredLoop
    split_ifs with hpos hstart hend
    · rw [ih hls]
      refine ⟨fun h i hi hi' => ?_, fun h i hi hi' => (h i (by omega) (by omega)).resolve_left (by omega)⟩
      by_cases hl : i < l.so + l.size
      · exact .inl (by omega)
      · exact .inr (h i (by omega) (by omega))
    · rw [ih hls]
      exact iff_of_false (fun h => hlate (by omega) (h so le_rfl (by omega)))
        fun h => (h so le_rfl (by omega)).elim (by omega) (hlate (by omega))
    · rw [ih hls]
      refine ⟨fun h i hi hi' => .inr (h i hi hi'), fun h i hi hi' => (h i hi hi').resolve_left fun hl => ?_⟩
      exact (h so le_rfl (by omega)).elim (by omega) (hlate (by omega))
    · exact iff_of_true rfl fun i hi hi' => by omega

/-- A segment counts as received if the stored ones together cover its bytes. -/
theorem segmentAlreadyReceived_iff {sn so size : Int}
    (hsorted : (e.rx.getPduFromSn sn).Pairwise fun p q => p.so ≤ q.so) :
    e.segmentAlreadyReceived sn so size ↔
      ∀ i, so ≤ i → i < so + size → ∃ p ∈ e.rx.getPduFromSn sn, p.so ≤ i ∧ i < p.so + p.size :=
  coveredLoop_iff hsorted

/-- Two segments that overlap hold the bytes 0 to 3, and not byte 4. -/
theorem segmentAlreadyReceived_overlapping :
    ∃ e : Am, (∀ i, 1 ≤ i → i < 1 + 3 → ∃ p ∈ e.rx.getPduFromSn 0, p.so ≤ i ∧ i < p.so + p.size) ∧
      ¬ ∀ i, 1 ≤ i → i < 1 + 4 → ∃ p ∈ e.rx.getPduFromSn 0, p.so ≤ i ∧ i < p.so + p.size := by
  let rx := ((RxManager.nrRlcNewRxManager 1).addPdu (nrRlcNewPdu 0 0 true false [1, 2, 3])).addPdu
    (nrRlcNewPdu 0 2 false false [3, 4])
  have hsorted : (rx.getPduFromSn 0).Pairwise fun p q => p.so ≤ q.so := by decide
  exact ⟨{ newNrRlcEntityAm .test1 with rx }, (segmentAlreadyReceived_iff hsorted).mp (by decide),
    fun h => absurd ((segmentAlreadyReceived_iff hsorted).mpr h) (by decide)⟩

end OaiNr.Rlc.Am
