import OaiNr.Phy.Theorems.CodeBlocks

/-!
# The size of a transport block grows with the resource blocks
-/

namespace OaiNr.Mac

open Nat

variable {a b n m d : Nat}

open OaiNr.Phy

section Quantisation

theorem pow_le_div_mul_pow (h : 2 ^ m ≤ a) (hn : n ≤ m) : 2 ^ m ≤ a / 2 ^ n * 2 ^ n := by
  have hdiv : 2 ^ (m - n) ≤ a / 2 ^ n := by
    rw [Nat.le_div_iff_mul_le (by positivity), ← pow_add, Nat.sub_add_cancel hn]
    exact h
  calc 2 ^ m = 2 ^ (m - n) * 2 ^ n := by rw [← pow_add, Nat.sub_add_cancel hn]
    _ ≤ a / 2 ^ n * 2 ^ n := Nat.mul_le_mul_right _ hdiv

theorem npInfoSmall_mono (h : a ≤ b) : npInfoSmall a ≤ npInfoSmall b := by
  have hlog : Nat.log 2 a ≤ Nat.log 2 b := log_mono_right h
  unfold npInfoSmall
  refine max_le_max_left 24 ?_
  by_cases hn : max 3 (Nat.log 2 a - 6) = max 3 (Nat.log 2 b - 6)
  · rw [hn]
    exact Nat.mul_le_mul_right _ (Nat.div_le_div_right h)
  · -- a power of two lies between the two
    have hb : b ≠ 0 := by
      rintro rfl
      simp [le_zero.mp h] at hn
    calc a / 2 ^ max 3 (Nat.log 2 a - 6) * 2 ^ max 3 (Nat.log 2 a - 6) ≤ a := div_mul_le_self _ _
      _ ≤ 2 ^ Nat.log 2 b := (lt_pow_of_log_lt (by decide) (by omega)).le
      _ ≤ _ := pow_le_div_mul_pow (pow_log_le_self 2 hb) (by omega)

theorem roundIDiv_mono (h : a ≤ b) : roundIDiv a d ≤ roundIDiv b d := Nat.div_le_div_right (by omega)

theorem roundIDiv_mul_le (h : a ≤ 2 ^ m) (hn : n ≤ m) : roundIDiv a (2 ^ n) * 2 ^ n ≤ 2 ^ m := by
  have hpow : 2 ^ m = 2 ^ (m - n) * 2 ^ n := by rw [← pow_add, Nat.sub_add_cancel hn]
  have hpos : 0 < 2 ^ n := by positivity
  have hround : roundIDiv a (2 ^ n) ≤ 2 ^ (m - n) := by
    rw [roundIDiv, ← Nat.lt_succ_iff, Nat.div_lt_iff_lt_mul (by omega)]
    nlinarith
  exact (Nat.mul_le_mul_right _ hround).trans_eq hpow.symm

theorem le_roundIDiv_mul (h : 2 ^ m ≤ a) (hn : n ≤ m) : 2 ^ m ≤ roundIDiv a (2 ^ n) * 2 ^ n := by
  refine (pow_le_div_mul_pow h hn).trans (Nat.mul_le_mul_right _ ?_)
  have hpos : 0 < 2 ^ n := by positivity
  rw [roundIDiv, Nat.le_div_iff_mul_le (by omega)]
  have := div_mul_le_self a (2 ^ n)
  nlinarith

theorem npInfoLarge_mono (ha : 3824 < a) (h : a ≤ b) : npInfoLarge a ≤ npInfoLarge b := by
  have hlog : Nat.log 2 (a - 24) ≤ Nat.log 2 (b - 24) := log_mono_right (by omega)
  have hlog5 : 5 ≤ Nat.log 2 (a - 24) := le_log_of_pow_le (by decide) (by omega)
  unfold npInfoLarge
  refine max_le_max_left 3840 ?_
  by_cases hn : Nat.log 2 (a - 24) = Nat.log 2 (b - 24)
  · rw [hn]
    exact Nat.mul_le_mul_right _ (roundIDiv_mono (by omega))
  · have hlt : Nat.log 2 (a - 24) < Nat.log 2 (b - 24) := by omega
    have hup : a - 24 ≤ 2 ^ Nat.log 2 (b - 24) := (lt_pow_of_log_lt (by decide) hlt).le
    exact (roundIDiv_mul_le hup (by omega)).trans (le_roundIDiv_mul (pow_log_le_self 2 (by omega)) (sub_le _ _))

end Quantisation

section Sizes

theorem tbsFromTable_mem {np : Nat} (h : np ≤ 3824) : tbsFromTable np ∈ tbsTable ∧ np ≤ tbsFromTable np := by
  unfold tbsFromTable
  cases hfind : tbsTable.find? fun size => np ≤ size with
  | none =>
    have hlast := List.find?_eq_none.mp hfind 3824 (by decide)
    simp [h] at hlast
  | some size => exact ⟨List.mem_of_find?_eq_some hfind, by simpa using List.find?_some hfind⟩

theorem tbsFromTable_le {np size : Nat} (hmem : size ∈ tbsTable) (h : np ≤ size) : tbsFromTable np ≤ size := by
  have hsorted : tbsTable.Pairwise (· ≤ ·) := by decide
  unfold tbsFromTable
  cases hfind : tbsTable.find? fun size => np ≤ size with
  | none => simp
  | some first =>
    obtain ⟨-, before, after, hsplit, hbefore⟩ := List.find?_eq_some_iff_append.mp hfind
    rw [hsplit, List.pairwise_append, List.pairwise_cons] at hsorted
    rw [hsplit, List.mem_append, List.mem_cons] at hmem
    rcases hmem with hmem | rfl | hmem
    · simpa [h] using hbefore size hmem
    · exact le_rfl
    · exact hsorted.2.1.1 size hmem

theorem tbsFromTable_mono (h : a ≤ b) (hb : b ≤ 3824) : tbsFromTable a ≤ tbsFromTable b :=
  have hmem := tbsFromTable_mem hb
  tbsFromTable_le hmem.1 (h.trans hmem.2)

theorem ceilIDiv_mono (hd : 0 < d) (h : a ≤ b) : ceilIDiv a d ≤ ceilIDiv b d :=
  (ceilIDiv_le_iff hd).mpr (h.trans ((ceilIDiv_le_iff hd).mp le_rfl))

theorem tbsOfBlocks_mono (hd : 0 < d) (hbytes : 8 ∣ d) (h : a ≤ b) :
    tbsOfBlocks a (ceilIDiv (a + 24) d) ≤ tbsOfBlocks b (ceilIDiv (b + 24) d) := by
  obtain ⟨heven, -⟩ := tbsOfBlocks_even hd hbytes a
  obtain ⟨heven', -⟩ := tbsOfBlocks_even hd hbytes b
  have hblocks : ceilIDiv (a + 24) d ≤ ceilIDiv (b + 24) d := ceilIDiv_mono hd (by omega)
  rcases hblocks.eq_or_lt with heq | hlt
  · have hpos := heven.pos
    rw [heq] at hpos ⊢
    exact Nat.sub_le_sub_right (Nat.mul_le_mul_left _ (ceilIDiv_mono (by omega) (by omega))) 24
  · -- one block more is used when the blocks there are do not hold the bits
    have hle := heven.le.trans (Nat.mul_le_mul_left d (le_sub_one_of_lt hlt))
    have hmore := heven'.more
    omega

theorem tbsOfNpInfo_mono (r : Nat) (h : a ≤ b) : tbsOfNpInfo r a ≤ tbsOfNpInfo r b := by
  unfold tbsOfNpInfo
  split
  · exact tbsOfBlocks_mono (by decide) (by decide) h
  · split_ifs with ha hb hb
    · exact tbsOfBlocks_mono (by decide) (by decide) h
    · omega
    · have hsingle : ceilIDiv (a + 24) 8 ≤ 1056 := (ceilIDiv_le_iff (by decide)).mpr (by omega)
      obtain ⟨-, hle⟩ := tbsOfBlocks_even (d := 8424) (by decide) (by decide) b
      omega
    · have hceil : ceilIDiv (a + 24) 8 ≤ ceilIDiv (b + 24) 8 := ceilIDiv_mono (by decide) (by omega)
      omega

theorem npInfoSmall_le (h : a ≤ 3824) : npInfoSmall a ≤ 3824 :=
  max_le (by decide) ((div_mul_le_self _ _).trans h)

theorem tbsOfNinfo_mono (r : Nat) (h : a ≤ b) : tbsOfNinfo r a ≤ tbsOfNinfo r b := by
  unfold tbsOfNinfo nrMaxPdschTbs
  split_ifs with ha hb hb
  · exact tbsFromTable_mono (npInfoSmall_mono h) (npInfoSmall_le hb)
  · have hsmall := (tbsFromTable_shape (npInfoSmall a)).1
    have hlarge : 3840 ≤ tbsOfNpInfo r 3840 := by
      unfold tbsOfNpInfo
      split <;> decide
    have hmono : tbsOfNpInfo r 3840 ≤ tbsOfNpInfo r (npInfoLarge b) := tbsOfNpInfo_mono r (le_max_left _ _)
    omega
  · omega
  · exact tbsOfNpInfo_mono r (npInfoLarge_mono (by omega) h)

end Sizes

section Format

def maxBwpSize : Nat := 275

/-- What `nr_compute_tbs` is given besides the number of resource blocks: modulation of up to 1024QAM, a code rate of at
most 1, one to four layers, and a scaling factor of TS 38.214 Table 5.1.3.2-2 -/
structure TbsFormat where
  qm : Nat
  r : Nat
  nbSymbSch : Nat
  nbDmrsPrb : Nat
  nbRbOh : Nat
  tbScaling : Nat
  nl : Nat
  qm_le : qm ≤ 10
  r_le : r ≤ 10240
  scaling_le : tbScaling ≤ 2
  nl_pos : 0 < nl
  nl_le : nl ≤ 4

namespace TbsFormat

variable (f : TbsFormat)

def onRbs (nbRb : Nat) : TbsParams where
  qm := f.qm
  r := f.r
  nbRb := nbRb
  nbSymbSch := f.nbSymbSch
  nbDmrsPrb := f.nbDmrsPrb
  nbRbOh := f.nbRbOh
  tbScaling := f.tbScaling
  nl := f.nl

/-- The last of the products of `nr_compute_tbs`, which has to fit into a `uint32_t` -/
def product (nbRb : Nat) : Nat := (f.onRbs 1).nbRe * (f.r / 5) * f.qm * f.nl * nbRb

theorem nbRe_one : (f.onRbs 1).nbRe = min 156 (((12 * f.nbSymbSch - f.nbDmrsPrb - f.nbRbOh : Int) % 2 ^ 32).toNat) := by
  simp only [TbsParams.nbRe, onRbs, mul_one]
  omega

theorem ninfo_onRbs (nbRb : Nat) : (f.onRbs nbRb).ninfo = f.product nbRb % 2 ^ 32 / 2 ^ 11 / 2 ^ f.tbScaling := by
  have hproduct : f.product nbRb = (f.onRbs 1).nbRe * nbRb * (f.r / 5) * f.qm * f.nl := by
    unfold product
    ring
  rw [hproduct, nbRe_one]
  simp [TbsParams.ninfo, TbsParams.nbRe, onRbs]

theorem product_one_le : f.product 1 ≤ 12779520 := by
  have hre : (f.onRbs 1).nbRe ≤ 156 := f.nbRe_one ▸ min_le_left _ _
  have hr : f.r / 5 ≤ 2048 := Nat.div_le_of_le_mul f.r_le
  calc f.product 1 ≤ 156 * 2048 * 10 * 4 * 1 := by
        unfold product
        gcongr
        exacts [f.qm_le, f.nl_le]
    _ = 12779520 := by decide

theorem product_eq_mul (nbRb : Nat) : f.product nbRb = f.product 1 * nbRb := by simp [product]

theorem tbs_mono {n' : Nat} (h : n ≤ n') (hfits : f.product n' < 2 ^ 32) :
    nrComputeTbs (f.onRbs n) ≤ nrComputeTbs (f.onRbs n') := by
  have hle : f.product n ≤ f.product n' := Nat.mul_le_mul_left _ h
  unfold nrComputeTbs
  split_ifs with hn hn' hn'
  · simp
  · simp
  · simp only [onRbs] at hn hn'
    omega
  · refine tbsOfNinfo_mono _ ?_
    rw [ninfo_onRbs, ninfo_onRbs, mod_eq_of_lt hfits, mod_eq_of_lt (by omega)]
    gcongr

theorem tbs_multiple_of_8 (n : Nat) : 8 ∣ nrComputeTbs (f.onRbs n) := by
  have hblocks : ∀ {d c b : Nat}, EvenBlocks d c (b + 24) → 8 ∣ b := fun h => by
    have := (dvd_mul_right 8 _).trans h.even
    omega
  cases nrComputeTbs_shape (f.onRbs n) with
  | small _ hbyte => exact hbyte
  | lowRate _ _ h => exact hblocks h
  | single _ _ _ hbyte => omega
  | several _ _ h => exact hblocks h

theorem tbs_falls (hlast : f.product n < 2 ^ 32) (hfirst : 2 ^ 32 ≤ f.product (n + 1)) :
    nrComputeTbs (f.onRbs (n + 1)) < nrComputeTbs (f.onRbs n) := by
  have hone := f.product_one_le
  have hsucc : f.product (n + 1) = f.product n + f.product 1 := by
    rw [f.product_eq_mul (n + 1), f.product_eq_mul n, mul_succ]
  have hset : f.qm ≠ 0 ∧ f.r ≠ 0 ∧ n ≠ 0 ∧ f.nl ≠ 0 := by
    refine ⟨?_, ?_, ?_, ?_⟩ <;> intro hzero <;> simp [product, hzero] at hfirst hone
    omega
  have htbs : ∀ m, m ≠ 0 → nrComputeTbs (f.onRbs m) = tbsOfNinfo f.r (f.onRbs m).ninfo := fun m hm => by
    rw [nrComputeTbs, if_neg (by simp [onRbs, hset, hm])]
    rfl
  rw [htbs _ (succ_ne_zero n), htbs n hset.2.2.1, ninfo_onRbs, ninfo_onRbs]
  have hlow : f.product (n + 1) % 2 ^ 32 / 2 ^ 11 / 2 ^ f.tbScaling ≤ 2 ^ 13 :=
    (div_le_self _ _).trans (by omega)
  have hhigh : 2 ^ 18 ≤ f.product n % 2 ^ 32 / 2 ^ 11 / 2 ^ f.tbScaling := by
    have hscale : 2 ^ f.tbScaling ≤ 2 ^ 2 := Nat.pow_le_pow_right (by decide) f.scaling_le
    rw [Nat.le_div_iff_mul_le (by positivity)]
    omega
  calc tbsOfNinfo f.r _ ≤ tbsOfNinfo f.r (2 ^ 13) := tbsOfNinfo_mono f.r hlow
    _ < tbsOfNinfo f.r (2 ^ 18) := by
        by_cases hrate : f.r ≤ 2560 <;> simp only [tbsOfNinfo, tbsOfNpInfo, hrate, if_true, if_false] <;> decide
    _ ≤ tbsOfNinfo f.r _ := tbsOfNinfo_mono f.r hhigh

theorem product_bwp_lt {nbRb : Nat} (h : nbRb ≤ maxBwpSize) : f.product nbRb < 2 ^ 32 := by
  calc f.product nbRb = f.product 1 * nbRb := f.product_eq_mul nbRb
    _ ≤ 12779520 * 275 := Nat.mul_le_mul f.product_one_le h
    _ < 2 ^ 32 := by decide

/-- Up to a number of resource blocks, the size never decreases and consists of whole bytes, if and only if the product
for that number fits into 32 bits. In a bandwidth part it does. -/
theorem nrComputeTbs_monotone_iff :
    (∀ nbRbMax, ((∀ n n', n ≤ n' → n' ≤ nbRbMax → nrComputeTbs (f.onRbs n) ≤ nrComputeTbs (f.onRbs n')) ∧
      ∀ n ≤ nbRbMax, 8 ∣ nrComputeTbs (f.onRbs n)) ↔ f.product nbRbMax < 2 ^ 32) ∧ f.product maxBwpSize < 2 ^ 32 := by
  refine ⟨fun nbRbMax => ?_, f.product_bwp_lt (Nat.le_refl _)⟩
  constructor
  · rintro ⟨hmono, -⟩
    induction nbRbMax with
    | zero => simp [product]
    | succ n ih =>
      have hlast := ih fun m m' hle hm' => hmono m m' hle (by omega)
      refine Nat.lt_of_not_le fun hfirst => ?_
      exact Nat.not_lt.mpr (hmono n (n + 1) (Nat.le_succ n) (Nat.le_refl _)) (f.tbs_falls hlast hfirst)
  · intro hfits
    refine ⟨fun n n' hle hmax => f.tbs_mono hle ?_, fun n _ => f.tbs_multiple_of_8 n⟩
    exact lt_of_le_of_lt (Nat.mul_le_mul_left _ hmax) hfits

end TbsFormat

def fourLayers : TbsFormat where
  qm := 8
  r := 9480
  nbSymbSch := 14
  nbDmrsPrb := 12
  nbRbOh := 0
  tbScaling := 0
  nl := 4
  qm_le := by decide
  r_le := by decide
  scaling_le := by decide
  nl_pos := succ_pos _
  nl_le := by decide

/-- With 454 resource blocks the product is too large for 32 bits, and the size is smaller than with 453. -/
theorem more_blocks_smaller_tbs : nrComputeTbs (fourLayers.onRbs 454) < nrComputeTbs (fourLayers.onRbs 453) := by
  decide

end Format

end OaiNr.Mac
