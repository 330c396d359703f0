import OaiNr.Rlc.Lemmas.Frame
import OaiNr.Rlc.Lemmas.RxStep

/-!
# The reception keeps the receive window
-/

namespace OaiNr.Rlc

open OaiNr.Serial

/-! ## Storing a PDU -/

namespace RxState

variable {s : RxState}

/-- A PDU of the window goes into the ring and `rx_next_highest` is raised above it. -/
def store (s : RxState) (pdu : Pdu) : RxState :=
  { s.raise pdu.sn with rx := s.rx.addPdu pdu }

/-- What holds of the window while `x` may be the SDU that has just been delivered. -/
structure Delivering (s : RxState) (x : Int) : Prop extends s.Core where
  next : x ≠ s.rxNext → Am.processed (s.rx.at 0) = false
  status : x ≠ s.rxHighestStatus → s.d s.rxHighestStatus < s.windowSize →
    Am.processed (s.rx.at (s.d s.rxHighestStatus)) = false
  trigger : s.tReassemblyStart ≠ 0 →
    1 ≤ s.d s.rxNextStatusTrigger ∧ s.d s.rxNextStatusTrigger ≤ s.d s.rxNextHighest ∧
      0 ≤ s.rxNextStatusTrigger ∧ s.rxNextStatusTrigger < s.snModulus

/-- What holds of the window once `rx_next` has moved: t-Reassembly may still be running for an SN
that the window has passed. -/
structure Moved (s : RxState) : Prop extends s.Core where
  next : Am.processed (s.rx.at 0) = false
  status : s.d s.rxHighestStatus < s.windowSize →
    Am.processed (s.rx.at (s.d s.rxHighestStatus)) = false
  trigger : s.tReassemblyStart ≠ 0 →
    (s.d s.rxNextStatusTrigger ≤ s.d s.rxNextHighest ∨ s.windowSize < s.d s.rxNextStatusTrigger) ∧
      0 ≤ s.rxNextStatusTrigger ∧ s.rxNextStatusTrigger < s.snModulus

theorem Inv.toMoved (h : s.Inv) : s.Moved :=
  { h with trigger := fun ht =>
      let ⟨_, t2, t3, t4⟩ := h.trigger ht
      ⟨.inl t2, t3, t4⟩ }

theorem Inv.store (h : s.Inv) {pdu : Pdu} (h0 : 0 ≤ pdu.sn) (h1 : pdu.sn < s.snModulus)
    (hw : s.d pdu.sn < s.windowSize) (hp : PduOk pdu.sn pdu) (hd : pdu.data ≠ none) : (s.store pdu).Inv := by
  have hg := h.toGeometry
  have hraise := d_raise h.toCore hw
  have hslot := hg.getPduFromSn pdu.sn
  have hcore : (s.store pdu).Core := by
    refine (h.toCore.raise hw).setSlot h0 h1 hw ((h.toCore.slotOk h0 h1 hw).insert hp hd) fun _ => ?_
    show s.d pdu.sn < s.d (s.raise pdu.sn).rxNextHighest
    omega
  -- a slot that was not processed is still not processed, whether the PDU went there or not
  have hat : ∀ k, 0 ≤ k → k < s.windowSize → Am.processed (s.rx.at k) = false →
      Am.processed ((s.store pdu).rx.at k) = false := by
    intro k hk0 hk hp
    show Am.processed ((s.rx.setSlot pdu.sn _).at k) = false
    rw [hg.at_setSlot h0 h1 hw _ hk0 hk]
    split
    · rename_i hkd
      rw [hslot, ← hkd]
      exact Am.processed_insertBySo hd hp
    · exact hp
  refine { hcore with next := ?_, status := ?_, trigger := ?_ }
  · exact hat 0 (by omega) h.window_pos h.next
  · exact fun hlt => hat _ hg.d_nonneg hlt (h.status hlt)
  · intro ht
    obtain ⟨t1, t2, t3, t4⟩ := h.trigger ht
    refine ⟨t1, ?_, t3, t4⟩
    show s.d s.rxNextStatusTrigger ≤ s.d (s.raise pdu.sn).rxNextHighest
    omega

theorem Inv.mark (h : s.Inv) {x : Int} (h0 : 0 ≤ x) (h1 : x < s.snModulus)
    (hw : s.d x < s.windowSize) (hf : Am.sduFullLoop (s.rx.getPduFromSn x) (-1)) :
    Delivering { s with rx := s.rx.setSlot x (marked (s.rx.getPduFromSn x)) } x := by
  have hg := h.toGeometry
  have hcore : Core { s with rx := s.rx.setSlot x (marked (s.rx.getPduFromSn x)) } := by
    refine h.toCore.setSlot h0 h1 hw ((h.toCore.slotOk h0 h1 hw).mark hf) fun hne => ?_
    by_contra hge
    have hempty := h.empty _ (by omega) hw
    rw [hg.getPduFromSn, hempty] at hne
    exact hne rfl
  have hat : ∀ k, 0 ≤ k → k < s.windowSize → k ≠ s.d x →
      (s.rx.setSlot x (marked (s.rx.getPduFromSn x))).at k = s.rx.at k := by
    intro k hk0 hk hne
    rw [hg.at_setSlot h0 h1 hw _ hk0 hk, if_neg hne]
  refine { hcore with next := ?_, status := ?_, trigger := h.trigger }
  · intro hne
    have hx : (0 : Int) ≠ s.d x := fun hx =>
      hne (offset_eq_zero h0 h1 hg.rxNext_nonneg hg.rxNext_lt hx.symm)
    exact (congrArg Am.processed (hat 0 (by omega) h.window_pos hx)).trans h.next
  · intro hne hlt
    have hx : s.d s.rxHighestStatus ≠ s.d x := fun hx =>
      hne (offset_inj h.status_nonneg h.status_lt h0 h1 hx).symm
    exact (congrArg Am.processed (hat _ hg.d_nonneg hlt hx)).trans (h.status hlt)

/-! ## Slots seen modulo the window -/

theorem Geometry.at_emod (h : s.Geometry) (k : Int) : s.rx.at k = s.rx.at (k % s.windowSize) := by
  have := Int.emod_add_mul_ediv k s.windowSize
  rw [← s.rx.at_add_mul (k % s.windowSize) (k / s.windowSize), h.size, this]

end RxState

namespace Am

variable {e e' : Am} {fuel : Nat} {x r : Int} (h : e.rxState.Geometry)

/-! ## Moving `rx_highest_status` -/

theorem sduDelivered_from (h : e.rxState.Geometry) (hx0 : 0 ≤ x) (hx : x < e.snModulus) (i : Nat) :
    e.sduDelivered ((x + i) % e.snModulus) = processed (e.rx.at (e.rxState.d x + i)) := by
  rw [← sduDelivered_add h, ← Int.add_assoc]
  conv_rhs => rw [← Int.emod_add_emod]
  rw [show (e.rxNext + e.rxState.d x) % e.snModulus = x from add_offset_emod hx0 hx]

theorem skipDelivered_le (h : e.rxState.Core) (hx0 : 0 ≤ x) (hx : x < e.snModulus)
    (hxh : e.rxState.d x ≤ e.rxState.d e.rxNextHighest) (hnext : x ≠ e.rxNext → processed (e.rx.at 0) = false)
    (hr : e.skipDelivered fuel x = .ok r) : 0 ≤ r ∧ r < e.snModulus ∧ e.rxState.d r ≤ e.rxState.d e.rxNextHighest ∧
      processed (e.rx.at (e.rxState.d r)) = false := by
  have hg := h.toGeometry
  have hw : 0 < e.windowSize := h.window_pos
  have hmod : e.snModulus = 2 * e.windowSize := h.modulus
  have hhl : e.rxState.d e.rxNextHighest ≤ e.windowSize := h.highest_le
  have hd0 : 0 ≤ e.rxState.d x := hg.d_nonneg
  obtain ⟨j, _, rfl, hnd, hall⟩ := (skipDelivered_eq_ok hx0 hx).mp hr
  have hrange := emod_nonneg_lt hg.modulus_pos (x + j)
  simp only [sduDelivered_from hg hx0 hx] at hnd hall
  -- the search does not run past `rx_next_highest`
  have hj : e.rxState.d x + j ≤ e.rxState.d e.rxNextHighest := by
    by_contra hlt
    have hi := hall (e.rxState.d e.rxNextHighest - e.rxState.d x).toNat (by omega)
    rw [Int.toNat_of_nonneg (by omega), show e.rxState.d x + (e.rxState.d e.rxNextHighest - e.rxState.d x) =
        e.rxState.d e.rxNextHighest by omega] at hi
    by_cases hhw : e.rxState.d e.rxNextHighest < e.windowSize
    · have hempty : e.rx.at (e.rxState.d e.rxNextHighest) = [] := h.empty _ (Int.le_refl _) hhw
      rw [hempty] at hi
      simp [processed] at hi
    · have hhe : e.rxState.d e.rxNextHighest = e.windowSize := by omega
      have hwin : e.rx.at e.windowSize = e.rx.at 0 := hg.at_window
      rw [hhe, hwin] at hi
      by_cases hxn : x = e.rxNext
      · -- a whole turn of delivered SDUs would not end at all
        have hdx : e.rxState.d x = 0 := by rw [hxn]; exact offset_self
        rw [hdx] at hnd hall hlt
        have hmodw := emod_nonneg_lt hw (0 + j : Int)
        have := hall ((0 + j : Int) % e.windowSize).toNat (by omega)
        rw [Int.toNat_of_nonneg hmodw.1, Int.zero_add] at this
        have hej : e.rx.at (0 + j) = e.rx.at ((0 + j) % e.windowSize) := hg.at_emod _
        rw [hej, this] at hnd
        exact Bool.noConfusion hnd
      · rw [hnext hxn] at hi
        exact Bool.noConfusion hi
  have hdr : e.rxState.d ((x + j) % e.snModulus) = e.rxState.d x + j := by
    have hx' : (x + j) % e.snModulus = (e.rxNext + (e.rxState.d x + j)) % e.snModulus := by
      rw [← Int.add_assoc, ← Int.emod_add_emod (e.rxNext + e.rxState.d x),
        show (e.rxNext + e.rxState.d x) % e.snModulus = x from add_offset_emod hx0 hx]
    rw [hx']
    exact RxState.d_add (s := e.rxState) (by omega) (by change _ < e.snModulus; omega)
  exact ⟨hrange.1, hrange.2, by rw [hdr]; exact hj, by rw [hdr]; exact hnd⟩

theorem updateHighestStatus_ok (h : e.rxState.Delivering x) (hr : e.updateHighestStatus fuel x = .ok e') :
    ∃ sn, e' = { e with rxHighestStatus := sn } ∧ e'.rxState.Core ∧
      (e'.rxState.d sn < e.windowSize → processed (e.rx.at (e'.rxState.d sn)) = false) := by
  simp only [updateHighestStatus] at hr
  split at hr
  · rename_i hx
    split at hr
    · cases hr
    · rename_i sn hsn
      cases hr
      obtain ⟨h0, h1, hle, hnp⟩ := skipDelivered_le h.toCore h.status_nonneg h.status_lt h.status_le
        (fun hne => h.next (by rw [hx]; exact hne)) hsn
      exact ⟨sn, rfl, h.toCore.setStatus h0 h1 hle, fun _ => hnp⟩
  · rename_i hx
    cases hr
    exact ⟨e.rxHighestStatus, rfl, h.toCore, h.status hx⟩

/-! ## Moving `rx_next` -/

/-- The state of the loop after `j` turns: the first `j` slots were delivered and are cleared. -/
structure FreeLoop (e : Am) (j : Nat) (s : RxManager × Int × Int) : Prop where
  count : s.2.2 = j
  rxNext : s.2.1 = (e.rxNext + j) % e.snModulus
  le : (j : Int) ≤ e.windowSize
  cleared : RxState.Cleared e.rx j s.1
  processed : ∀ k : Int, 0 ≤ k → k < j → processed (e.rx.at k)

namespace FreeLoop

variable {j : Nat} {s : RxManager × Int × Int}

include h

theorem geometry (hl : FreeLoop e j s) : RxState.Geometry { e.rxState with rx := s.1 } :=
  { h with size := hl.cleared.size.trans h.size, snStart := hl.cleared.snStart.trans h.snStart }

theorem slot (hl : FreeLoop e j s) :
    s.1.getPduFromSn s.2.1 = if (j : Int) < e.windowSize then e.rx.at j else [] := by
  have hg := hl.geometry h
  have hw : 0 < e.windowSize := h.window_pos
  have hsz : e.rx.size = e.windowSize := h.size
  have hle := hl.le
  have hslot : s.1.getPduFromSn s.2.1 = s.1.at j := by
    rw [hl.rxNext]
    exact hg.getPduFromSn_add j
  rw [hslot]
  split
  · rename_i hlt
    exact hl.cleared.at_ge j (Int.le_refl _) (by omega)
  · have hj : (j : Int) = e.windowSize := by omega
    have hwin : s.1.at e.windowSize = s.1.at 0 := hg.at_window
    rw [hj, hwin]
    exact hl.cleared.at_lt 0 (Int.le_refl _) (by omega)

theorem succ (hl : FreeLoop e j s) (hc : Am.processed (s.1.getPduFromSn s.2.1)) :
    FreeLoop e (j + 1) (e.freeTurn s) := by
  have hg := hl.geometry h
  have hsz : e.rx.size = e.windowSize := h.size
  have hmod : e.snModulus = 2 * e.windowSize := h.modulus
  have hcl := hl.cleared
  have hlt : (j : Int) < e.windowSize := by
    by_contra hge
    rw [hl.slot h, if_neg hge] at hc
    simp [Am.processed] at hc
  have hd : RxState.d { e.rxState with rx := s.1 } s.2.1 = j := by
    rw [hl.rxNext]
    exact RxState.d_add (s := e.rxState) (by omega) (by change _ < e.snModulus; omega)
  have hrange : 0 ≤ s.2.1 ∧ s.2.1 < e.snModulus := by
    rw [hl.rxNext]
    exact emod_nonneg_lt h.modulus_pos _
  have hat : ∀ k, 0 ≤ k → k < e.windowSize → (e.freeTurn s).1.at k = if k = j then [] else s.1.at k := by
    intro k hk0 hk
    have := hg.at_setSlot hrange.1 hrange.2 (by rw [hd]; exact hlt) [] hk0 hk
    rwa [hd] at this
  rw [hl.slot h, if_pos hlt] at hc
  constructor
  · show s.2.2 + 1 = _
    rw [hl.count, Nat.cast_succ]
  · show (s.2.1 + 1) % e.snModulus = _
    rw [hl.rxNext, Int.emod_add_emod, Nat.cast_succ, Int.add_assoc]
  · omega
  · refine ⟨hcl.size, hcl.start, hcl.snStart, ?_, ?_, ?_⟩
    · intro k hk0 hk
      rw [hat k hk0 (by omega)]
      split
      · rfl
      · exact hcl.at_lt k hk0 (by omega)
    · intro k hk1 hk
      rw [hat k (by omega) (by omega), if_neg (by omega)]
      exact hcl.at_ge k (by omega) hk
    · intro i hi
      have hpos : i ≠ s.1.getPos s.2.1 := by
        rintro rfl
        apply hi
        rw [RxManager.getPos_eq, hcl.size, hsz]
        exact emod_nonneg_lt h.window_pos _
      show Function.update s.1.rxList (s.1.getPos s.2.1) [] i = _
      rw [Function.update_of_ne hpos]
      exact hcl.outside i hi
  · intro k hk0 hk
    by_cases hkj : k = j
    · rw [hkj]; exact hc
    · exact hl.processed k hk0 (by omega)

end FreeLoop

include h

theorem freeLoop_zero : FreeLoop e 0 (e.rx, e.rxNext, 0) :=
  { count := rfl
    rxNext := by
      rw [Nat.cast_zero, Int.add_zero]
      exact (Int.emod_eq_of_lt h.rxNext_nonneg h.rxNext_lt).symm
    le := by have : 0 < e.windowSize := h.window_pos; omega
    cleared := ⟨rfl, rfl, rfl, fun k _ _ => by omega, fun _ _ _ => rfl, fun _ _ => rfl⟩
    processed := fun k _ _ => by omega }

theorem freeLoop_iterate (j : Nat) (hall : ∀ i < j, processed ((e.freeTurn^[i] (e.rx, e.rxNext, 0)).1.getPduFromSn
      (e.freeTurn^[i] (e.rx, e.rxNext, 0)).2.1)) : FreeLoop e j (e.freeTurn^[j] (e.rx, e.rxNext, 0)) := by
  induction j with
  | zero => exact freeLoop_zero h
  | succ j ih =>
    rw [Function.iterate_succ_apply']
    exact (ih fun i hi => hall i (by omega)).succ h (hall j (by omega))

theorem freeDelivered_ok {s : RxManager × Int × Int} (hr : e.freeDelivered fuel = .ok s) :
    ∃ j : Nat, FreeLoop e j s ∧ ((j : Int) < e.windowSize → processed (e.rx.at j) = false) := by
  rw [freeDelivered, withFuel_eq_ok, Loop.run_eq_some] at hr
  obtain ⟨j, _, rfl, hnp, hall⟩ := hr
  have hl := freeLoop_iterate h j hall
  refine ⟨j, hl, fun hlt => ?_⟩
  rw [hl.slot h, if_pos hlt] at hnp
  simpa using hnp

theorem freeDelivered_terminates : ∃ fuel s, e.freeDelivered fuel = .ok s := by
  have hw : 0 < e.windowSize := h.window_pos
  refine ⟨e.windowSize.toNat + 1, ?_⟩
  cases hr : e.freeDelivered (e.windowSize.toNat + 1) with
  | ok s => exact ⟨s, rfl⟩
  | error f =>
    rw [freeDelivered, withFuel_eq_error, Loop.run_eq_none] at hr
    have hl := freeLoop_iterate h e.windowSize.toNat fun i hi => hr.1 i (by omega)
    have hc := hr.1 e.windowSize.toNat (by omega)
    rw [hl.slot h, if_neg (by omega)] at hc
    simp [processed] at hc

omit h

theorem updateRxNext_ok (h : e.rxState.Delivering x) (hs : e.rxState.d e.rxHighestStatus < e.windowSize →
      processed (e.rx.at (e.rxState.d e.rxHighestStatus)) = false)
    (hr : e.updateRxNext fuel x = .ok e') : e'.rxState.Moved := by
  have hg := h.toGeometry
  simp only [updateRxNext] at hr
  split at hr
  · split at hr
    · cases hr
    · rename_i rx rxNext count hf
      obtain ⟨j, hl, hnp⟩ := freeDelivered_ok hg hf
      have hle := hl.le
      have hsl : e.rxState.d e.rxHighestStatus ≤ e.rxState.d e.rxNextHighest := h.status_le
      have hmod : e.snModulus = 2 * e.windowSize := h.modulus
      have hw : 0 < e.windowSize := h.window_pos
      have hjs : (j : Int) ≤ e.rxState.d e.rxHighestStatus := by
        by_contra hlt
        have hp := hl.processed _ hg.d_nonneg (by omega : e.rxState.d e.rxHighestStatus < j)
        rw [hs (by omega)] at hp
        exact Bool.noConfusion hp
      obtain ⟨hcount, hnext, -, hcl, -⟩ := hl
      cases hr
      have hst : (e.rxState.shift j rx).Core := h.toCore.shift (by omega) hcl hjs (by
        change (j : Int) ≤ e.rxState.d e.rxNextHighest; omega)
      have hshift : Am.rxState { e with
          rxNext := rxNext, rx := (rx.advance count).setStart rxNext } = e.rxState.shift j rx := by
        simp only at hcount hnext
        rw [hcount, hnext]
        rfl
      rw [hshift]
      have hat : ∀ k, 0 ≤ k → k < e.windowSize → (e.rxState.shift j rx).rx.at k =
          if k + j < e.windowSize then e.rx.at (k + j) else [] :=
        fun k hk0 hk => RxState.at_shift hg hcl hk0 hk
      refine { hst with next := ?_, status := ?_, trigger := ?_ }
      · rw [hat 0 (Int.le_refl _) hw, Int.zero_add]
        split
        · exact hnp ‹_›
        · rfl
      · intro hlt
        have hds : (e.rxState.shift j rx).d e.rxHighestStatus = e.rxState.d e.rxHighestStatus - j :=
          RxState.d_shift hg (by omega) hle hjs
        change (e.rxState.shift j rx).d e.rxHighestStatus < e.windowSize at hlt
        show processed ((e.rxState.shift j rx).rx.at ((e.rxState.shift j rx).d e.rxHighestStatus)) = false
        rw [hat _ (by omega) hlt, hds, Int.sub_add_cancel]
        split
        · exact hs ‹_›
        · rfl
      · intro ht
        obtain ⟨t1, t2, t3, t4⟩ := h.trigger ht
        refine ⟨?_, t3, t4⟩
        have hdh : (e.rxState.shift j rx).d e.rxNextHighest = e.rxState.d e.rxNextHighest - j :=
          RxState.d_shift hg (by omega) hle (by omega)
        change 1 ≤ e.rxState.d e.rxNextStatusTrigger at t1
        change e.rxState.d e.rxNextStatusTrigger ≤ e.rxState.d e.rxNextHighest at t2
        show (e.rxState.shift j rx).d e.rxNextStatusTrigger ≤ (e.rxState.shift j rx).d e.rxNextHighest ∨
          e.windowSize < (e.rxState.shift j rx).d e.rxNextStatusTrigger
        by_cases hjt : (j : Int) ≤ e.rxState.d e.rxNextStatusTrigger
        · left
          rw [RxState.d_shift hg (by omega) hle hjt, hdh]
          omega
        · right
          rw [RxState.d_shift_past hg (by omega) hle (by omega)]
          change e.windowSize < e.rxState.d e.rxNextStatusTrigger - j + e.snModulus
          omega
  · rename_i hx
    cases hr
    exact { h with
      next := h.next hx
      status := hs
      trigger := fun ht => (h.trigger ht).2.imp_left .inl }

/-! ## t-Reassembly -/

theorem stopTReassembly_moved (h : e.rxState.Moved) : e.stopTReassembly.rxState.Inv := by
  have hg := h.toGeometry
  have hmod : e.snModulus = 2 * e.windowSize := h.modulus
  have hw : 0 < e.windowSize := h.window_pos
  simp only [stopTReassembly]
  split
  · exact { h with trigger := fun ht => absurd rfl ht }
  · rename_i hstop
    refine { h with trigger := fun ht => ?_ }
    obtain ⟨t1, t3, t4⟩ := h.trigger ht
    change 0 ≤ e.rxNextStatusTrigger at t3
    change e.rxNextStatusTrigger < e.snModulus at t4
    change e.tReassemblyStart ≠ 0 at ht
    refine ⟨?_, ?_, t3, t4⟩
    · by_contra hlt
      have h0 : 0 ≤ e.rxState.d e.rxNextStatusTrigger := hg.d_nonneg
      change ¬1 ≤ e.rxState.d e.rxNextStatusTrigger at hlt
      have hz : e.rxState.d e.rxNextStatusTrigger = 0 := by omega
      exact hstop ⟨ht, .inl (offset_eq_zero t3 t4 hg.rxNext_nonneg hg.rxNext_lt hz)⟩
    · rcases t1 with t1 | t1
      · exact t1
      · change e.windowSize < e.rxState.d e.rxNextStatusTrigger at t1
        refine absurd ⟨ht, .inr (.inr ⟨?_, ?_⟩)⟩ hstop
        · rw [SnInRecvWindow, modulusRx_eq hg t3 t4]
          omega
        · intro he
          rw [he] at t1
          have : e.rxState.d ((e.rxNext + e.windowSize) % e.snModulus) = e.windowSize :=
            RxState.d_add (s := e.rxState) (by omega) (by change _ < e.snModulus; omega)
          omega

theorem startTReassembly_inv (h : e.rxState.Inv) : e.startTReassembly.rxState.Inv := by
  have hg := h.toGeometry
  have hmod : e.snModulus = 2 * e.windowSize := h.modulus
  have hw : 0 < e.windowSize := h.window_pos
  have hone : e.rxState.d ((e.rxNext + 1) % e.snModulus) = 1 :=
    RxState.d_add (s := e.rxState) (by omega) (by change _ < e.snModulus; omega)
  have hr := emod_nonneg_lt hg.modulus_pos (e.rxNext + 1)
  simp only [startTReassembly]
  split
  · rename_i hstart
    refine { h with trigger := fun _ => ⟨?_, Int.le_refl _, h.highest_nonneg, h.highest_lt⟩ }
    show 1 ≤ e.rxState.d e.rxNextHighest
    rcases hstart.2 with hc | ⟨hc, _⟩
    · have hcmp := snCompareRx_eq hg h.highest_nonneg h.highest_lt hr.1 hr.2
      change e.snCompareRx e.rxNextHighest ((e.rxNext + 1) % e.snModulus) =
        e.rxState.d e.rxNextHighest - e.rxState.d ((e.rxNext + 1) % e.snModulus) at hcmp
      omega
    · rw [hc, hone]
  · exact h

/-! ## The handlers -/

theorem sduFull_eq_true (h : e.sduFull x) :
    processed (e.rx.getPduFromSn x) = false ∧ sduFullLoop (e.rx.getPduFromSn x) (-1) := by
  rw [sduFull] at h
  split at h
  · cases h
  · exact ⟨Bool.eq_false_of_not_eq_true ‹_›, h⟩

theorem reassembleAndDeliver_rxState (hr : e.reassembleAndDeliver x = .ok e') : e'.rxState =
      { e.rxState with rx := e.rx.setSlot x (marked (e.rx.getPduFromSn x)) } := by
  simp only [reassembleAndDeliver] at hr
  split at hr
  · cases hr
  · cases hr; rfl
  · cases hr; rfl

theorem deliverFull_moved (h : e.rxState.Inv) (h0 : 0 ≤ x) (h1 : x < e.snModulus)
    (hw : e.rxState.d x < e.windowSize) (hr : e.deliverFull fuel x = .ok e') : e'.rxState.Moved := by
  simp only [deliverFull] at hr
  split at hr
  · rename_i hfull
    simp only [bind_eq_ok] at hr
    obtain ⟨e₁, hr₁, e₂, hr₂, hr₃⟩ := hr
    have hd : e₁.rxState.Delivering x := by
      rw [reassembleAndDeliver_rxState hr₁]
      exact h.mark h0 h1 hw (sduFull_eq_true hfull).2
    obtain ⟨sn, rfl, hcore, hst⟩ := updateHighestStatus_ok hd hr₂
    exact updateRxNext_ok { hcore with next := hd.next, status := fun _ => hst, trigger := hd.trigger } hst hr₃
  · cases hr
    exact h.toMoved

theorem updateRxNextHighest_rxState (h : e.rxState.Core) (h0 : 0 ≤ x) (h1 : x < e.snModulus) :
    (e.updateRxNextHighest x).rxState = e.rxState.raise x := by
  have hcmp := snCompareRx_eq h.toGeometry h0 h1 h.highest_nonneg h.highest_lt
  change e.snCompareRx x e.rxNextHighest = e.rxState.d x - e.rxState.d e.rxNextHighest at hcmp
  by_cases hle : e.rxState.d e.rxNextHighest ≤ e.rxState.d x
  · rw [updateRxNextHighest, if_pos (by omega), RxState.raise_of_le hle]
    rfl
  · rw [updateRxNextHighest, if_neg (by omega), RxState.raise_of_lt (Int.lt_of_not_ge hle)]

theorem checkTReassembly_inv (h : e.rxState.Inv) (hr : e.checkTReassembly fuel = .ok e') : e'.rxState.Inv := by
  rw [checkTReassembly] at hr
  split at hr
  · cases hr; exact h
  · rename_i hexp
    rw [not_not] at hexp
    obtain ⟨t1, t2, t3, t4⟩ := h.trigger hexp.1
    obtain ⟨sn, hsn, hr⟩ := bind_eq_ok.mp hr
    cases hr
    obtain ⟨s0, s1, hle, hnp⟩ := skipDelivered_le h.toCore t3 t4 t2 (fun _ => h.next) hsn
    have hcore := h.toCore.setStatus s0 s1 hle
    rw [restartTReassembly]
    split
    · exact { hcore with
        next := h.next
        status := fun _ => hnp
        trigger := fun _ => ⟨Int.le_trans t1 t2, Int.le_refl _, h.highest_nonneg, h.highest_lt⟩ }
    · exact { hcore with
        next := h.next
        status := fun _ => hnp
        trigger := fun ht => absurd rfl ht }

end Am

end OaiNr.Rlc
