import OaiNr.Lib.Serial
import OaiNr.Rlc.RxManager

/-!
# The reception ring in window coordinates

`m.at k` is the slot `k` places behind the start of the ring. It has period `size`, the slot of an
SN is the one at its distance from `snStart`, and moving the window is a shift of `k`.
-/

namespace OaiNr.Rlc

open OaiNr.Serial

namespace RxManager

/-- The slot `k` places behind the start. -/
def «at» (m : RxManager) (k : Int) : List Pdu := m.rxList ((m.start + k) % m.size)

variable {m : RxManager} {sn k j : Int} {l : List Pdu}

theorem getPos_eq (m : RxManager) (sn : Int) : m.getPos sn = (m.start + (sn - m.snStart)) % m.size := by
  rw [getPos, ← Int.add_assoc, Int.add_mul_emod_self_left]

theorem getPduFromSn_eq (m : RxManager) (sn : Int) : m.getPduFromSn sn = m.at (sn - m.snStart) := by
  rw [getPduFromSn, getPos_eq, RxManager.at]

theorem at_add_mul (m : RxManager) (k q : Int) : m.at (k + m.size * q) = m.at k := by
  rw [RxManager.at, RxManager.at, ← Int.add_assoc, Int.add_mul_emod_self_left]

theorem at_add_size (m : RxManager) (k : Int) : m.at (k + m.size) = m.at k := by
  simpa using m.at_add_mul k 1

theorem getPduFromSn_offset (m : RxManager) (sn : Int) :
    m.getPduFromSn sn = m.at (offset (2 * m.size) m.snStart sn) := by
  obtain ⟨q, hq⟩ := exists_offset (2 * m.size) m.snStart sn
  rw [getPduFromSn_eq, hq, show 2 * m.size * q = m.size * (2 * q) by ring, at_add_mul]

theorem getPduFromSn_emod (m : RxManager) (sn : Int) : m.getPduFromSn (sn % (2 * m.size)) = m.getPduFromSn sn := by
  rw [getPduFromSn_offset, getPduFromSn_offset, offset_emod]

theorem add_emod_inj (hm : 0 < m.size) (hj0 : 0 ≤ j) (hj : j < m.size) (hk0 : 0 ≤ k)
    (hk : k < m.size) (h : (m.start + j) % m.size = (m.start + k) % m.size) : j = k := by
  have hd : (k - j) % m.size = 0 := by
    rw [show k - j = m.start + k - (m.start + j) by ring, Int.sub_emod, h, Int.sub_self, Int.zero_emod]
  obtain ⟨q, hq⟩ := Int.dvd_of_emod_eq_zero hd
  have hq0 : q = 0 := by nlinarith
  rw [hq0] at hq
  omega

@[simp] theorem setSlot_getPos : (m.setSlot sn l).getPos j = m.getPos j := rfl

theorem at_setSlot_self (m : RxManager) (l : List Pdu)
    (h : (m.start + k) % m.size = m.getPos sn) : (m.setSlot sn l).at k = l := by
  rw [RxManager.at]
  simp [setSlot, h]

theorem at_setSlot_of_ne (m : RxManager) (l : List Pdu)
    (h : (m.start + k) % m.size ≠ m.getPos sn) : (m.setSlot sn l).at k = m.at k := by
  rw [RxManager.at, RxManager.at]
  simp [setSlot, h]

theorem getPos_add (m : RxManager) (k : Int) : m.getPos ((m.snStart + k) % (2 * m.size)) = (m.start + k) % m.size := by
  have h := Int.emod_add_mul_ediv (m.snStart + k) (2 * m.size)
  rw [getPos_eq, show m.start + ((m.snStart + k) % (2 * m.size) - m.snStart) =
      m.start + k + m.size * (-2 * ((m.snStart + k) / (2 * m.size))) by linarith, Int.add_mul_emod_self_left]

theorem setSlot_getPduFromSn_self (m : RxManager) (sn : Int) (l : List Pdu) : (m.setSlot sn l).getPduFromSn sn = l := by
  rw [getPduFromSn, setSlot_getPos]
  exact Function.update_self ..

theorem setSlot_setSlot (m : RxManager) (sn : Int) (l l' : List Pdu) :
    (m.setSlot sn l).setSlot sn l' = m.setSlot sn l' := by
  simp only [setSlot]
  congr 1
  exact Function.update_idem ..

theorem at_advance (m : RxManager) (count snStart k : Int) :
    ((m.advance count).setStart snStart).at k = m.at (k + count) := by
  simp only [RxManager.at, advance, setStart]
  rw [Int.emod_add_emod, show m.start + count + k = m.start + (k + count) by ring]

theorem rxList_eq_at (m : RxManager) {i : Int} (h0 : 0 ≤ i) (h : i < m.size) :
    m.rxList i = m.at ((i - m.start) % m.size) := by
  rw [RxManager.at, Int.add_emod_emod, show m.start + (i - m.start) = i by ring, Int.emod_eq_of_lt h0 h]

end RxManager

end OaiNr.Rlc
