import OaiNr.Rlc.Lemmas.RxInv

/-!
# What the reception does to the receive window
-/

namespace OaiNr.Rlc

open OaiNr.Serial

namespace RxState

variable {s : RxState} {a : Int} {l : List Pdu}

/-! ## Changes within the window -/

theorem Core.setSlot (h : s.Core) (ha0 : 0 ≤ a) (ha : a < s.snModulus) (haw : s.d a < s.windowSize)
    (hl : SlotOk a l) (hne : l ≠ [] → s.d a < s.d s.rxNextHighest) : Core { s with rx := s.rx.setSlot a l } := by
  have hg := h.toGeometry
  have hat : ∀ k, 0 ≤ k → k < s.windowSize →
      (s.rx.setSlot a l).at k = if k = s.d a then l else s.rx.at k :=
    fun k hk0 hk => hg.at_setSlot ha0 ha haw l hk0 hk
  refine { h with size := h.size, slot := ?_, empty := ?_, outside := ?_ }
  · intro k hk0 hk
    show SlotOk ((s.rxNext + k) % s.snModulus) ((s.rx.setSlot a l).at k)
    rw [hat k hk0 hk]
    split
    · rename_i hkd
      rw [hkd, d, add_offset_emod ha0 ha]
      exact hl
    · exact h.slot k hk0 hk
  · intro k hk1 hk
    have hk0 : 0 ≤ k := Int.le_trans hg.d_nonneg hk1
    show (s.rx.setSlot a l).at k = []
    rw [hat k hk0 hk]
    split
    · rename_i hkd
      by_contra hc
      have := hne hc
      change s.d s.rxNextHighest ≤ k at hk1
      omega
    · exact h.empty k hk1 hk
  · intro i hi
    have hpos : i ≠ s.rx.getPos a := by
      rintro rfl
      apply hi
      rw [RxManager.getPos_eq, h.size]
      exact emod_nonneg_lt h.window_pos _
    show Function.update s.rx.rxList (s.rx.getPos a) l i = []
    rw [Function.update_of_ne hpos]
    exact h.outside i hi

def raise (s : RxState) (x : Int) : RxState :=
  { s with rxNextHighest := if s.d s.rxNextHighest ≤ s.d x then (x + 1) % s.snModulus
      else s.rxNextHighest }

theorem raise_of_le {x : Int} (h : s.d s.rxNextHighest ≤ s.d x) :
    s.raise x = { s with rxNextHighest := (x + 1) % s.snModulus } := by rw [raise, if_pos h]

theorem raise_of_lt {x : Int} (h : s.d x < s.d s.rxNextHighest) : s.raise x = s := by
  rw [raise, if_neg (by omega)]

theorem d_raise (h : s.Core) {x : Int} (hx : s.d x < s.windowSize) :
    s.d (s.raise x).rxNextHighest = max (s.d s.rxNextHighest) (s.d x + 1) := by
  have hm := h.modulus
  have h0 : 0 ≤ s.d x := h.toGeometry.d_nonneg
  simp only [raise]
  split
  · rename_i hle
    rw [d, offset_succ h.toGeometry.modulus_pos (by change s.d x + 1 < _; omega)]
    change s.d x + 1 = _
    omega
  · omega

theorem Core.raise (h : s.Core) {x : Int} (hx : s.d x < s.windowSize) : (s.raise x).Core := by
  have hd := d_raise h hx
  have hpos := h.toGeometry.modulus_pos
  have hle := h.status_le
  have hhl := h.highest_le
  refine { h with
    highest_nonneg := ?_, highest_lt := ?_, status_le := ?_, highest_le := ?_, empty := ?_ }
  · simp only [RxState.raise]
    split
    · exact (emod_nonneg_lt hpos _).1
    · exact h.highest_nonneg
  · simp only [RxState.raise]
    split
    · exact (emod_nonneg_lt hpos _).2
    · exact h.highest_lt
  · show s.d s.rxHighestStatus ≤ s.d (s.raise x).rxNextHighest
    omega
  · show s.d (s.raise x).rxNextHighest ≤ s.windowSize
    omega
  · intro k hk1 hk
    change s.d (s.raise x).rxNextHighest ≤ k at hk1
    exact h.empty k (by omega) hk

theorem Core.setStatus (h : s.Core) {r : Int} (hr0 : 0 ≤ r) (hr : r < s.snModulus)
    (hle : s.d r ≤ s.d s.rxNextHighest) : Core { s with rxHighestStatus := r } :=
  { h with status_nonneg := hr0, status_lt := hr, status_le := hle }

/-! ## Moving the window -/

structure Cleared (m : RxManager) (j : Int) (m' : RxManager) : Prop where
  size : m'.size = m.size
  start : m'.start = m.start
  snStart : m'.snStart = m.snStart
  at_lt : ∀ k, 0 ≤ k → k < j → m'.at k = []
  at_ge : ∀ k, j ≤ k → k < m.size → m'.at k = m.at k
  outside : ∀ i, ¬(0 ≤ i ∧ i < m.size) → m'.rxList i = m.rxList i

/-- The window moves up by `j` places, over slots that have been cleared. -/
def shift (s : RxState) (j : Int) (m : RxManager) : RxState :=
  { s with
    rxNext := (s.rxNext + j) % s.snModulus
    rx := (m.advance j).setStart ((s.rxNext + j) % s.snModulus) }

theorem d_shift (h : s.Geometry) {j : Int} {m : RxManager} (hj0 : 0 ≤ j) (hj : j ≤ s.windowSize)
    (ha : j ≤ s.d a) : (s.shift j m).d a = s.d a - j := by
  have hm := h.modulus
  have hw := h.window_pos
  have hjd : offset s.snModulus s.rxNext ((s.rxNext + j) % s.snModulus) = j :=
    offset_add_emod hj0 (by omega)
  show offset s.snModulus ((s.rxNext + j) % s.snModulus) a = s.d a - j
  rw [offset_rebase h.modulus_pos (by rw [hjd]; exact ha), hjd]
  rfl

theorem d_shift_past (h : s.Geometry) {j : Int} {m : RxManager} (hj0 : 0 ≤ j)
    (hj : j ≤ s.windowSize) (ha : s.d a < j) : (s.shift j m).d a = s.d a - j + s.snModulus := by
  have hm := h.modulus
  have hw := h.window_pos
  have hjd : offset s.snModulus s.rxNext ((s.rxNext + j) % s.snModulus) = j :=
    offset_add_emod hj0 (by omega)
  show offset s.snModulus ((s.rxNext + j) % s.snModulus) a = s.d a - j + s.snModulus
  rw [offset_rebase_past h.modulus_pos (by rw [hjd]; exact ha), hjd]
  rfl

theorem at_shift (h : s.Geometry) {j : Int} {m : RxManager} (hm : Cleared s.rx j m) {k : Int}
    (hk0 : 0 ≤ k) (hk : k < s.windowSize) :
    (s.shift j m).rx.at k = if k + j < s.windowSize then s.rx.at (k + j) else [] := by
  show ((m.advance j).setStart _).at k = _
  rw [RxManager.at_advance]
  have hsz := hm.size
  have hs := h.size
  split
  · exact hm.at_ge _ (by omega) (by omega)
  · have := m.at_add_size (k + j - m.size)
    rw [show k + j - m.size + m.size = k + j by omega] at this
    rw [this]
    exact hm.at_lt _ (by omega) (by omega)

theorem Core.shift (h : s.Core) {j : Int} {m : RxManager} (hj0 : 0 ≤ j) (hm : Cleared s.rx j m)
    (hjs : j ≤ s.d s.rxHighestStatus) (hjh : j ≤ s.d s.rxNextHighest) : (s.shift j m).Core := by
  have hg := h.toGeometry
  have hle := h.highest_le
  have hsl := h.status_le
  have hjw : j ≤ s.windowSize := by omega
  have hrange := emod_nonneg_lt hg.modulus_pos (s.rxNext + j)
  have hat : ∀ k, 0 ≤ k → k < s.windowSize →
      (s.shift j m).rx.at k = if k + j < s.windowSize then s.rx.at (k + j) else [] :=
    fun k hk0 hk => at_shift hg hm hk0 hk
  have hds := d_shift hg (m := m) hj0 hjw hjs
  have hdh := d_shift hg (m := m) hj0 hjw hjh
  refine
    { modulus := h.modulus, window_pos := h.window_pos, size := hm.size.trans h.size
      snStart := rfl, rxNext_nonneg := hrange.1, rxNext_lt := hrange.2
      status_nonneg := h.status_nonneg, status_lt := h.status_lt
      highest_nonneg := h.highest_nonneg, highest_lt := h.highest_lt
      status_le := ?_, highest_le := ?_, slot := ?_, empty := ?_, outside := ?_ }
  · show (s.shift j m).d s.rxHighestStatus ≤ (s.shift j m).d s.rxNextHighest
    omega
  · show (s.shift j m).d s.rxNextHighest ≤ s.windowSize
    omega
  · intro k hk0 hk
    change k < s.windowSize at hk
    show SlotOk (((s.rxNext + j) % s.snModulus + k) % s.snModulus) _
    rw [hat k hk0 hk, Int.emod_add_emod, Int.add_assoc, Int.add_comm j k]
    split
    · exact h.slot (k + j) (by omega) ‹_›
    · exact SlotOk.nil
  · intro k hk1 hk
    change (s.shift j m).d s.rxNextHighest ≤ k at hk1
    change k < s.windowSize at hk
    rw [hat k (by omega) hk]
    split
    · exact h.empty (k + j) (by omega) (by omega)
    · rfl
  · intro i hi
    have hi' : ¬(0 ≤ i ∧ i < s.rx.size) := by rw [h.size]; exact hi
    show m.rxList i = []
    rw [hm.outside i hi']
    exact h.outside i hi

end RxState

end OaiNr.Rlc
