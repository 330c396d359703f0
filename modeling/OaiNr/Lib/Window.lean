import OaiNr.Lib.Serial

/-!
# Sliding windows

A window over the serial numbers modulo `modulus` lies below its upper edge `highest` and is half as wide as
the number space. Numbers are compared by their distance from the lower edge.
-/

namespace OaiNr

structure Window where
  modulus : Int
  size : Int
  highest : Int

namespace Window

variable {w : Window} {a b x : Int}

def lowest (w : Window) : Int := w.highest - w.size

def d (w : Window) (a : Int) : Int := Serial.offset w.modulus w.lowest a

def InRange (w : Window) (a : Int) : Prop := 0 ≤ a ∧ a < w.modulus

/-- The window with `x` as its last number. -/
def moveTo (w : Window) (x : Int) : Window := { w with highest := (x + 1) % w.modulus }

/-- The number that `a` stands for if the upper edge stands for `n`. -/
def index (w : Window) (n a : Int) : Int := n - w.size + w.d a

structure Sized (w : Window) : Prop where
  modulus : w.modulus = 2 * w.size
  two_le : 2 ≤ w.size

namespace Sized

theorem pos (h : w.Sized) : 0 < w.modulus := by
  have hm := h.modulus
  have hw := h.two_le
  omega

theorem nonneg (h : w.Sized) (a : Int) : 0 ≤ w.d a := Serial.offset_nonneg h.pos

theorem lt (h : w.Sized) (a : Int) : w.d a < w.modulus := Serial.offset_lt h.pos

theorem highest (h : w.Sized) : w.d w.highest = w.size := by
  have hm := h.modulus
  have hw := h.two_le
  exact Serial.offset_eq_of (by omega) (by omega) 0 (by rw [lowest]; omega)

theorem lowest (_ : w.Sized) : w.d ((w.highest - w.size + w.modulus) % w.modulus) = 0 := by
  rw [d, Serial.offset_emod, Serial.offset, Window.lowest, show w.highest - w.size + w.modulus -
    (w.highest - w.size) = w.modulus by omega, Int.emod_self]

theorem inj (_ : w.Sized) (ha : w.InRange a) (hb : w.InRange b) (heq : w.d a = w.d b) : a = b :=
  Serial.offset_inj ha.1 ha.2 hb.1 hb.2 heq

theorem succ (h : w.Sized) (hlt : w.d a + 1 < w.modulus) : w.d ((a + 1) % w.modulus) = w.d a + 1 :=
  Serial.offset_succ h.pos hlt

theorem inRange_emod (h : w.Sized) (a : Int) : w.InRange (a % w.modulus) := Serial.emod_nonneg_lt h.pos a

theorem moveTo (h : w.Sized) (x : Int) : (w.moveTo x).Sized := ⟨h.modulus, h.two_le⟩

theorem d_moveTo (h : w.Sized) (hx : w.size ≤ w.d x) (a : Int) : (w.moveTo x).d a =
      if w.d x + 1 - w.size ≤ w.d a then w.d a - (w.d x + 1 - w.size)
      else w.d a - (w.d x + 1 - w.size) + w.modulus := by
  have hw := h.two_le
  have hlt := h.lt x
  obtain ⟨q, hq⟩ := Serial.exists_offset w.modulus w.lowest x
  have hr := Int.emod_add_mul_ediv (x + 1) w.modulus
  -- how far the lower edge moves
  have hbase : w.d (w.moveTo x).lowest = w.d x + 1 - w.size := by
    refine Serial.offset_eq_of (by omega) (by omega) (q - (x + 1) / w.modulus) ?_
    change x - w.lowest = w.d x + _ at hq
    simp only [Window.moveTo, Window.lowest] at hq ⊢
    rw [Int.mul_sub]
    omega
  rw [← hbase]
  split
  · exact Serial.offset_rebase h.pos ‹_›
  · exact Serial.offset_rebase_past h.pos (Int.lt_of_not_ge ‹_›)

theorem size_le_d_moveTo (h : w.Sized) (hx : w.size ≤ w.d x) (ha : w.d a ≤ w.d x) :
    w.size ≤ (w.moveTo x).d a ↔ w.d a < w.d x + 1 - w.size := by
  have hm := h.modulus
  have hlt := h.lt x
  have h0 := h.nonneg a
  rw [h.d_moveTo hx]
  split <;> omega

/-! ### Numbers that do not wrap

If the upper edge stands for the number `n`, which does not wrap, then so does every number that is compared
with it. -/

theorem index_emod (h : w.Sized) {n i : Int} (hn : w.highest = n % w.modulus) (h0 : n - w.size ≤ i)
    (h1 : i < n + w.size) : w.index n (i % w.modulus) = i := by
  have hm := h.modulus
  have hd : w.d (i % w.modulus) = i - (n - w.size) := by
    rw [d, Serial.offset_emod]
    refine Serial.offset_eq_of (by omega) (by omega) (n / w.modulus) ?_
    have hdiv := Int.emod_add_mul_ediv n w.modulus
    rw [Window.lowest, hn]
    omega
  rw [index, hd]
  omega

theorem index_moveTo (h : w.Sized) (n : Int) (hx : w.size ≤ w.d x) (ha : w.d x + 1 - w.size ≤ w.d a) :
    (w.moveTo x).index (w.index n x + 1) a = w.index n a := by
  rw [index, h.d_moveTo hx, if_pos ha, index, index]
  show _ - w.size + _ = _
  omega

end Sized

end Window

end OaiNr
