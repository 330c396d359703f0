import Mathlib.Algebra.Order.Floor.Div
import Mathlib.Algebra.Order.Floor.Semifield
import Mathlib.Tactic.Positivity
import OaiNr.Mac.Tbs

/-!
# The size of a transport block, against the specification

The code takes the integer part of `N_info` before it compares and rounds. This makes a difference
between 3824 and 3825 only.
-/

namespace OaiNr.Mac

section Rounding

theorem natCeil_div {a b : Nat} (hb : 0 < b) : ⌈(a : ℚ) / b⌉₊ = ceilIDiv a b := by
  refine eq_of_forall_ge_iff fun c => ?_
  have hceil : ceilIDiv a b ≤ c ↔ a ≤ b * c := ceilDiv_le_iff_le_mul hb
  rw [hceil, Nat.ceil_le, div_le_iff₀ (by exact_mod_cast hb), mul_comm]
  exact_mod_cast Iff.rfl

theorem ceilIDiv_pos {a b : Nat} (ha : 0 < a) (hb : 0 < b) : 0 < ceilIDiv a b :=
  Nat.div_pos (by omega) hb

theorem natCeil_blocks (np : Nat) {d : Nat} (hd : 0 < d) : ⌈((np : ℚ) + 24) / d⌉₊ = ceilIDiv (np + 24) d := by
  rw [← natCeil_div hd]
  push_cast
  rfl

theorem spec_blocks {np c : Nat} (hc : 0 < c) : 8 * c * ⌈((np : ℚ) + 24) / (8 * c)⌉₊ - 24 = tbsOfBlocks np c := by
  have hceil := natCeil_blocks np (Nat.mul_pos (by decide : 0 < 8) hc)
  push_cast at hceil
  rw [tbsOfBlocks, hceil]

theorem natFloor_round {x : ℚ} {n : Nat} (hx : 0 ≤ x) (hn : 0 < n) : ⌊x / 2 ^ n + 1 / 2⌋₊ = roundIDiv ⌊x⌋₊ (2 ^ n) := by
  obtain ⟨m, rfl⟩ := Nat.exists_eq_succ_of_ne_zero (Nat.ne_of_gt hn)
  have hadd : x / 2 ^ (m + 1) + 1 / 2 = (x + (2 ^ m : Nat)) / (2 ^ (m + 1) : Nat) := by
    push_cast
    rw [pow_succ]
    field_simp
  rw [Nat.succ_eq_add_one, hadd, Nat.floor_div_natCast, Nat.floor_add_natCast hx, roundIDiv, pow_succ,
    show 2 * ⌊x⌋₊ + 2 ^ m * 2 = 2 * (⌊x⌋₊ + 2 ^ m) by ring, Nat.mul_div_mul_left _ _ (by decide)]

end Rounding

theorem specTbsSmall_eq (x : ℚ) : specTbsSmall x = tbsFromTable (npInfoSmall ⌊x⌋₊) := by
  have hn : (max 3 (Int.log 2 x - 6)).toNat = max 3 (Nat.log 2 ⌊x⌋₊ - 6) := by
    rcases le_total 1 x with hone | hone
    · rw [Int.log_of_one_le_right 2 hone]
      omega
    · have hfloor : ⌊x⌋₊ ≤ 1 := Nat.floor_le_of_le (by exact_mod_cast hone)
      have hlog : Nat.log 2 ⌊x⌋₊ = 0 := Nat.log_of_lt (by omega)
      rw [Int.log_of_right_le_one 2 hone, hlog]
      omega
  have hdiv : ∀ n, 2 ^ n * ⌊x / 2 ^ n⌋₊ = ⌊x⌋₊ / 2 ^ n * 2 ^ n := by
    intro n
    have hfloor := Nat.floor_div_natCast x (2 ^ n)
    push_cast at hfloor
    rw [hfloor, Nat.mul_comm]
  simp only [specTbsSmall, npInfoSmall, hn, hdiv]

theorem specTbsLarge_eq {x : ℚ} (hx : 3824 ≤ x) (r : Nat) :
    specTbsLarge (r / 10240) x = tbsOfNpInfo r (npInfoLarge ⌊x⌋₊) := by
  have hfloor : ⌊x - 24⌋₊ = ⌊x⌋₊ - 24 := Nat.floor_sub_ofNat x 24
  have hle : 3824 ≤ ⌊x⌋₊ := Nat.le_floor (by exact_mod_cast hx)
  have hn : (Int.log 2 (x - 24) - 5).toNat = Nat.log 2 (⌊x⌋₊ - 24) - 5 := by
    rw [Int.log_of_one_le_right 2 (by linarith), hfloor]
    omega
  have hlog : 11 ≤ Nat.log 2 (⌊x⌋₊ - 24) := Nat.le_log_of_pow_le (by decide) (by omega)
  have hround := natFloor_round (x := x - 24) (n := Nat.log 2 (⌊x⌋₊ - 24) - 5) (by linarith) (by omega)
  rw [hfloor] at hround
  have hnp : max 3840 (2 ^ (Nat.log 2 (⌊x⌋₊ - 24) - 5) *
      (roundIDiv (⌊x⌋₊ - 24) (2 ^ (Nat.log 2 (⌊x⌋₊ - 24) - 5)) : ℚ)) = (npInfoLarge ⌊x⌋₊ : Nat) := by
    rw [npInfoLarge, mul_comm]
    push_cast
    rfl
  have hrate : (r : ℚ) / 10240 ≤ 1 / 4 ↔ r ≤ 2560 := by
    rw [div_le_iff₀ (by norm_num)]
    norm_num
  have hpos : ∀ d, 0 < d → 0 < ceilIDiv (npInfoLarge ⌊x⌋₊ + 24) d := fun d hd => ceilIDiv_pos (by omega) hd
  have hblocks := fun d (hd : 0 < d) => natCeil_blocks (npInfoLarge ⌊x⌋₊) hd
  have h3816 := hblocks 3816 (by decide)
  have h8424 := hblocks 8424 (by decide)
  have h8 := hblocks 8 (by decide)
  push_cast at h3816 h8424 h8
  simp only [specTbsLarge, hn, hround, hnp, hrate, h3816, h8424, h8, tbsOfNpInfo]
  rw [spec_blocks (hpos _ (by decide)), spec_blocks (hpos _ (by decide))]
  simp only [Nat.ofNat_lt_cast]

namespace TbsGrant

variable (g : TbsGrant)

def product : Nat := specNre g * (g.r / 5) * g.qm * g.nl

structure ProductsFit : Prop where
  nbRe : specNre g < 2 ^ 32
  rate : specNre g * (g.r / 5) < 2 ^ 32
  qm : specNre g * (g.r / 5) * g.qm < 2 ^ 32
  nl : specNre g * (g.r / 5) * g.qm * g.nl < 2 ^ 32

theorem productsFit_iff : g.ProductsFit ↔ g.product < 2 ^ 32 := by
  have hrate : 0 < g.r / 5 := Nat.div_pos (Nat.le_of_dvd g.r_pos g.r_table) (by decide)
  refine ⟨fun h => h.nl, fun h => ?_⟩
  have hqm := Nat.lt_of_le_of_lt (Nat.le_mul_of_pos_right _ g.nl_pos) h
  have hr := Nat.lt_of_le_of_lt (Nat.le_mul_of_pos_right _ g.qm_pos) hqm
  exact ⟨Nat.lt_of_le_of_lt (Nat.le_mul_of_pos_right _ hrate) hr, hr, hqm, h⟩

theorem specNinfo_eq : specNinfo g = (g.product : ℚ) / (2 ^ 11 : Nat) / (2 ^ g.tbScaling : Nat) := by
  obtain ⟨k, hk⟩ := g.r_table
  have hdiv : g.r / 5 = k := by omega
  unfold specNinfo product
  rw [hdiv, hk]
  push_cast
  ring

theorem specNinfo_nonneg : 0 ≤ specNinfo g := by
  rw [specNinfo_eq]
  positivity

theorem floor_specNinfo : ⌊specNinfo g⌋₊ = g.product / 2 ^ 11 / 2 ^ g.tbScaling := by
  rw [specNinfo_eq, Nat.floor_div_natCast, Nat.floor_div_natCast, Nat.floor_natCast]

theorem nbRe_eq (h : g.ProductsFit) : g.nbRe = specNre g := by
  have hre := g.re_pos
  have hsymb := g.symb_lt
  have hint : ((12 * g.nbSymbSch - g.nbDmrsPrb - g.nbRbOh : Int) % 2 ^ 32).toNat =
      12 * g.nbSymbSch - g.nbDmrsPrb - g.nbRbOh := by
    rw [Int.emod_eq_of_lt (by omega) (by omega)]
    omega
  rw [TbsParams.nbRe, hint]
  exact Nat.mod_eq_of_lt h.nbRe

theorem ninfo_eq (h : g.ProductsFit) : g.ninfo = ⌊specNinfo g⌋₊ := by
  rw [floor_specNinfo, TbsParams.ninfo, nbRe_eq g h, Nat.mod_eq_of_lt h.rate, Nat.mod_eq_of_lt h.qm,
    Nat.mod_eq_of_lt h.nl]
  rfl

end TbsGrant

theorem nrComputeTbs_eq (g : TbsGrant) : nrComputeTbs g.toTbsParams = tbsOfNinfo g.r g.ninfo := by
  have hqm := g.qm_pos
  have hr := g.r_pos
  have hrb := g.nbRb_pos
  have hnl := g.nl_pos
  rw [nrComputeTbs, if_neg (by omega)]

/-- The products fit into 32 bits and the size is that of the specification, if and only if the last
product does and `N_info` does not lie between 3824 and 3825. -/
theorem nrComputeTbs_conforms_iff (g : TbsGrant) : (g.ProductsFit ∧ nrComputeTbs g.toTbsParams = specTbs g) ↔
      g.product < 2 ^ 32 ∧ ¬ (3824 < specNinfo g ∧ specNinfo g < 3825) := by
  rw [← g.productsFit_iff]
  refine and_congr_right fun hfit => ?_
  rw [nrComputeTbs_eq, g.ninfo_eq hfit, specTbs, tbsOfNinfo, nrMaxPdschTbs]
  by_cases hsmall : specNinfo g ≤ 3824
  · have hfloor : ⌊specNinfo g⌋₊ ≤ 3824 := Nat.floor_le_of_le (by exact_mod_cast hsmall)
    rw [if_pos hfloor, if_pos hsmall, specTbsSmall_eq]
    simp [hsmall.not_gt]
  · have hlarge := not_le.mp hsmall
    have hle : 3824 ≤ ⌊specNinfo g⌋₊ := Nat.le_floor (by exact_mod_cast hlarge.le)
    rw [if_neg hsmall, specTbsLarge_eq hlarge.le]
    by_cases hgap : specNinfo g < 3825
    · -- the table is used, while the specification goes to step 4
      have hfloor : ⌊specNinfo g⌋₊ = 3824 := by
        have hlt : ⌊specNinfo g⌋₊ < 3825 := (Nat.floor_lt g.specNinfo_nonneg).mpr (by exact_mod_cast hgap)
        omega
      have htable : tbsFromTable (npInfoSmall 3824) = 3824 := by decide
      have hlargeNp : npInfoLarge 3824 = 3840 := by decide
      rw [hfloor, if_pos (Nat.le_refl _), htable, hlargeNp, tbsOfNpInfo]
      have hnot : ¬ ¬ (3824 < specNinfo g ∧ specNinfo g < 3825) := not_not.mpr ⟨hlarge, hgap⟩
      refine iff_of_false ?_ hnot
      split <;> decide
    · have hfloor : 3825 ≤ ⌊specNinfo g⌋₊ := Nat.le_floor (by exact_mod_cast not_lt.mp hgap)
      rw [if_neg (by omega)]
      simp [hgap]

def fourSymbolGrant : TbsGrant where
  qm := 4
  r := 4340
  nbRb := 47
  nbSymbSch := 5
  nbDmrsPrb := 12
  nbRbOh := 0
  tbScaling := 0
  nl := 1
  qm_pos := by decide
  r_pos := by decide
  r_table := by decide
  nbRb_pos := by decide
  symb_lt := by decide
  re_pos := by decide
  nl_pos := by decide
  nl_le := Nat.le_add_right 1 3
  scaling_lt := by decide

/-- `N_info` is 3824.625: the code takes 3824 bits from the table, while step 4 of the specification gives
3840. -/
theorem block_one_step_short : specNinfo fourSymbolGrant = 30597 / 8 ∧ nrComputeTbs fourSymbolGrant.toTbsParams = 3824 ∧
      specTbs fourSymbolGrant = 3840 := by
  decide +kernel

end OaiNr.Mac
