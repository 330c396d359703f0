import OaiNr.Rlc.Lemmas.RxLoops
import OaiNr.Rlc.Lemmas.Slot

/-!
# The receive-window invariant

`RxState.Inv` is what holds of the receive side between operations, `RxState.Core` what also holds during
`reception_actions`, when the SDU at `rx_next` may already be delivered.
-/

namespace OaiNr.Rlc

open OaiNr.Serial

structure RxState where
  snModulus : Int
  windowSize : Int
  rxNext : Int
  rxNextStatusTrigger : Int
  rxHighestStatus : Int
  rxNextHighest : Int
  tReassemblyStart : Int
  rx : RxManager

def Am.rxState (e : Am) : RxState :=
  { snModulus := e.snModulus, windowSize := e.windowSize, rxNext := e.rxNext
    rxNextStatusTrigger := e.rxNextStatusTrigger, rxHighestStatus := e.rxHighestStatus
    rxNextHighest := e.rxNextHighest, tReassemblyStart := e.tReassemblyStart, rx := e.rx }

namespace RxState

def d (s : RxState) (a : Int) : Int := offset s.snModulus s.rxNext a

/-- The ring has one slot per SN of the window and starts at `rx_next`. -/
structure Geometry (s : RxState) : Prop where
  modulus : s.snModulus = 2 * s.windowSize
  window_pos : 0 < s.windowSize
  size : s.rx.size = s.windowSize
  snStart : s.rx.snStart = s.rxNext
  rxNext_nonneg : 0 ≤ s.rxNext
  rxNext_lt : s.rxNext < s.snModulus

structure Core (s : RxState) : Prop extends s.Geometry where
  status_nonneg : 0 ≤ s.rxHighestStatus
  status_lt : s.rxHighestStatus < s.snModulus
  highest_nonneg : 0 ≤ s.rxNextHighest
  highest_lt : s.rxNextHighest < s.snModulus
  status_le : s.d s.rxHighestStatus ≤ s.d s.rxNextHighest
  highest_le : s.d s.rxNextHighest ≤ s.windowSize
  slot : ∀ k, 0 ≤ k → k < s.windowSize → SlotOk ((s.rxNext + k) % s.snModulus) (s.rx.at k)
  empty : ∀ k, s.d s.rxNextHighest ≤ k → k < s.windowSize → s.rx.at k = []
  outside : ∀ i, ¬(0 ≤ i ∧ i < s.windowSize) → s.rx.rxList i = []

structure Inv (s : RxState) : Prop extends s.Core where
  next : Am.processed (s.rx.at 0) = false
  status : s.d s.rxHighestStatus < s.windowSize →
    Am.processed (s.rx.at (s.d s.rxHighestStatus)) = false
  trigger : s.tReassemblyStart ≠ 0 →
    1 ≤ s.d s.rxNextStatusTrigger ∧ s.d s.rxNextStatusTrigger ≤ s.d s.rxNextHighest ∧
      0 ≤ s.rxNextStatusTrigger ∧ s.rxNextStatusTrigger < s.snModulus

variable {s : RxState} {a k : Int}

theorem d_add (h0 : 0 ≤ k) (hk : k < s.snModulus) : s.d ((s.rxNext + k) % s.snModulus) = k :=
  offset_add_emod h0 hk

namespace Geometry

theorem modulus_pos (h : s.Geometry) : 0 < s.snModulus := by
  have := h.modulus; have := h.window_pos; omega

theorem d_nonneg (h : s.Geometry) : 0 ≤ s.d a := offset_nonneg h.modulus_pos

theorem getPduFromSn (h : s.Geometry) (a : Int) : s.rx.getPduFromSn a = s.rx.at (s.d a) := by
  rw [RxManager.getPduFromSn_offset, h.size, h.snStart, ← h.modulus, d]

theorem getPduFromSn_emod (h : s.Geometry) (a : Int) : s.rx.getPduFromSn (a % s.snModulus) = s.rx.getPduFromSn a := by
  rw [h.modulus, ← h.size, RxManager.getPduFromSn_emod]

theorem getPduFromSn_add (h : s.Geometry) (k : Int) : s.rx.getPduFromSn ((s.rxNext + k) % s.snModulus) = s.rx.at k := by
  rw [h.getPduFromSn_emod, RxManager.getPduFromSn_eq, h.snStart]
  congr 1
  ring

theorem at_window (h : s.Geometry) : s.rx.at s.windowSize = s.rx.at 0 := by
  have := s.rx.at_add_size 0
  rwa [h.size, Int.zero_add] at this

theorem getPos_add (h : s.Geometry) (k : Int) :
    s.rx.getPos ((s.rxNext + k) % s.snModulus) = (s.rx.start + k) % s.rx.size := by
  rw [h.modulus, ← h.size, ← h.snStart, RxManager.getPos_add]

theorem getPos_eq (h : s.Geometry) (ha0 : 0 ≤ a) (ha : a < s.snModulus) :
    s.rx.getPos a = (s.rx.start + s.d a) % s.rx.size := by
  rw [← h.getPos_add, d, add_offset_emod ha0 ha]

theorem slot_inj (h : s.Geometry) {j : Int} (hj0 : 0 ≤ j) (hj : j < s.windowSize) (hk0 : 0 ≤ k)
    (hk : k < s.windowSize) (he : (s.rx.start + j) % s.rx.size = (s.rx.start + k) % s.rx.size) : j = k := by
  have hs := h.size
  exact RxManager.add_emod_inj (by rw [hs]; exact h.window_pos) hj0 (by omega) hk0 (by omega) he

theorem at_setSlot (h : s.Geometry) (ha0 : 0 ≤ a) (ha : a < s.snModulus)
    (haw : s.d a < s.windowSize) (l : List Pdu) (hk0 : 0 ≤ k) (hk : k < s.windowSize) :
    (s.rx.setSlot a l).at k = if k = s.d a then l else s.rx.at k := by
  split
  · rename_i hkd
    exact s.rx.at_setSlot_self l (by rw [hkd, ← h.getPos_eq ha0 ha])
  · rename_i hkd
    refine s.rx.at_setSlot_of_ne l fun he => hkd ?_
    rw [h.getPos_eq ha0 ha] at he
    exact h.slot_inj hk0 hk h.d_nonneg haw he

end Geometry

theorem Core.slotOk (h : s.Core) (ha0 : 0 ≤ a) (ha : a < s.snModulus) (haw : s.d a < s.windowSize) :
    SlotOk a (s.rx.getPduFromSn a) := by
  rw [h.toGeometry.getPduFromSn]
  have := h.slot _ h.toGeometry.d_nonneg haw
  rwa [d, add_offset_emod ha0 ha] at this

end RxState

namespace Am

variable {e : Am} {a : Int}

theorem modulusRx_eq (h : e.rxState.Geometry) (ha0 : 0 ≤ a) (ha : a < e.snModulus) : e.modulusRx a = e.rxState.d a :=
  ite_offset ha0 ha h.rxNext_nonneg h.rxNext_lt

theorem snCompareRx_eq (h : e.rxState.Geometry) {b : Int} (ha0 : 0 ≤ a) (ha : a < e.snModulus)
    (hb0 : 0 ≤ b) (hb : b < e.snModulus) : e.snCompareRx a b = e.rxState.d a - e.rxState.d b := by
  rw [snCompareRx, modulusRx_eq h ha0 ha, modulusRx_eq h hb0 hb]

theorem sduDelivered_eq (h : e.rxState.Geometry) (a : Int) :
    e.sduDelivered a = processed (e.rx.at (e.rxState.d a)) := by
  rw [sduDelivered]
  exact congrArg processed (h.getPduFromSn a)

theorem sduDelivered_add (h : e.rxState.Geometry) (k : Int) :
    e.sduDelivered ((e.rxNext + k) % e.snModulus) = processed (e.rx.at k) := by
  rw [sduDelivered]
  exact congrArg processed (h.getPduFromSn_add k)

end Am

end OaiNr.Rlc
