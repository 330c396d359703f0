import Mathlib.Data.Nat.Bitwise
import Mathlib.Tactic.Positivity
import OaiNr.Pdcp.Entity

/-!
# COUNT
-/

namespace OaiNr.Pdcp.Entity

variable {e : Entity} {sn : Nat} {n : Int} {buffer : List UInt8}

structure Formed (e : Entity) : Prop where
  size : e.snSize = 12 ∨ e.snSize = 18
  max : e.snMax = 2 ^ e.snSize - 1
  window : e.windowSize = 2 ^ (e.snSize - 1)

/-- `n` has the SN `sn` and lies in the window of `rx_deliv`. -/
structure Infers (e : Entity) (sn : Nat) (n : Int) : Prop where
  sn : n % 2 ^ e.snSize = sn
  ge : (e.rxDeliv : Int) - e.windowSize ≤ n
  lt : n < (e.rxDeliv : Int) + e.windowSize

theorem Formed.window_eq (h : e.Formed) : 2 * e.windowSize = 2 ^ e.snSize := by
  rw [h.window]
  rcases h.size with h | h <;> rw [h] <;> rfl

theorem Formed.rxDelivSn_eq (h : e.Formed) : e.rxDelivSn = e.rxDeliv % 2 ^ e.snSize := by
  rw [rxDelivSn, h.max, Nat.and_two_pow_sub_one_eq_mod]

theorem rxDelivHfn_eq (e : Entity) : e.rxDelivHfn = e.rxDeliv / 2 ^ e.snSize :=
  Nat.shiftRight_eq_div_pow ..

theorem Formed.rcvdCount_eq_add (h : e.Formed) (hs : sn < 2 ^ e.snSize) :
    e.rcvdCount sn = e.rcvdHfn sn * 2 ^ e.snSize % 4294967296 + sn := by
  have hk : (4294967296 : Nat) = 2 ^ e.snSize * 2 ^ (32 - e.snSize) := by
    rcases h.size with h | h <;> rw [h] <;> rfl
  have hcut : u32 (e.rcvdHfn sn <<< e.snSize) = (e.rcvdHfn sn % 2 ^ (32 - e.snSize)) <<< e.snSize := by
    rw [u32, Nat.shiftLeft_eq, Nat.shiftLeft_eq, hk, Nat.mul_comm, Nat.mul_mod_mul_left, Nat.mul_comm]
  rw [rcvdCount, hcut, ← Nat.shiftLeft_add_eq_or_of_lt hs, ← hcut, u32, Nat.shiftLeft_eq]

theorem rcvdSn_lt (e : Entity) (hs : e.snSize = 12 ∨ e.snSize = 18) (buffer : List UInt8) :
    e.rcvdSn buffer < 2 ^ e.snSize := by
  have hbyte : ∀ b : UInt8, b.toNat < 2 ^ 8 := UInt8.toNat_lt
  have h4 : (buffer.getD 0 0 &&& 0xf).toNat < 2 ^ 4 := by
    rw [UInt8.toNat_and]
    exact Nat.and_lt_two_pow _ (by decide)
  have h2 : (buffer.getD 0 0 &&& 0x3).toNat < 2 ^ 2 := by
    rw [UInt8.toNat_and]
    exact Nat.and_lt_two_pow _ (by decide)
  rcases hs with hs | hs
  · rw [rcvdSn, if_pos (show e.snSize = shortSnSize from hs), hs]
    refine Nat.or_lt_two_pow ?_ ((hbyte _).trans (by decide))
    rw [Nat.shiftLeft_eq]
    omega
  · rw [rcvdSn, if_neg (by rw [hs]; decide), hs]
    refine Nat.or_lt_two_pow (Nat.or_lt_two_pow ?_ ?_) ((hbyte _).trans (by decide))
    · rw [Nat.shiftLeft_eq]
      omega
    · have := hbyte (buffer.getD 1 0)
      rw [Nat.shiftLeft_eq]
      omega

theorem Formed.existsUnique_infers (h : e.Formed) (hs : sn < 2 ^ e.snSize) : ∃! n, e.Infers sn n := by
  have hw : (2 : Int) * e.windowSize = 2 ^ e.snSize := by exact_mod_cast h.window_eq
  have hpos : (0 : Int) < 2 ^ e.snSize := by positivity
  have hs' : (sn : Int) < 2 ^ e.snSize := by exact_mod_cast hs
  let low : Int := e.rxDeliv - e.windowSize
  refine ⟨low + (sn - low) % 2 ^ e.snSize, ⟨?_, ?_, ?_⟩, fun m hm => ?_⟩
  · rw [Int.add_emod_emod]
    have hsum : low + (sn - low) = (sn : Int) := by ring
    rw [hsum, Int.emod_eq_of_lt (by omega) hs']
  · have := Int.emod_nonneg ((sn : Int) - low) hpos.ne'
    omega
  · have := Int.emod_lt_of_pos ((sn : Int) - low) hpos
    simp only [low] at this ⊢
    omega
  · -- both lie in a window as wide as the SN space
    have hsub : (m - low) % 2 ^ e.snSize = (sn - low) % 2 ^ e.snSize := by
      rw [Int.sub_emod, hm.sn, ← Int.emod_eq_of_lt (Int.natCast_nonneg sn) hs', ← Int.sub_emod,
        Int.emod_eq_of_lt (Int.natCast_nonneg sn) hs']
    have hlt : m - low < 2 ^ e.snSize := by
      have := hm.lt
      simp only [low]
      omega
    have hge : 0 ≤ m - low := by
      have := hm.ge
      simp only [low]
      omega
    rw [← hsub, Int.emod_eq_of_lt hge hlt]
    ring

theorem Formed.rcvdCount_eq (h : e.Formed) (hs : sn < 2 ^ e.snSize) (hn : e.Infers sn n) :
    (e.rcvdCount sn : Int) = n % 4294967296 := by
  obtain ⟨hsn, hge, hlt⟩ := hn
  rw [h.rcvdCount_eq_add hs, rcvdHfn, h.rxDelivSn_eq, rxDelivHfn_eq]
  rw [h.window] at hge hlt ⊢
  rcases h.size with hk | hk
  · rw [hk] at hs hsn hge hlt ⊢
    simp only [Nat.reducePow, Int.reducePow, Nat.reduceSub, u32] at hs hsn hge hlt ⊢
    split_ifs <;> omega
  · rw [hk] at hs hsn hge hlt ⊢
    simp only [Nat.reducePow, Int.reducePow, Nat.reduceSub, u32] at hs hsn hge hlt ⊢
    split_ifs <;> omega

end OaiNr.Pdcp.Entity
