import OaiNr.Mac.Theorems.BlockSize
import OaiNr.Phy.Segmentation

/-!
# Transport blocks and code blocks
-/

namespace OaiNr.Phy

open Nat OaiNr.Mac

section Sizes

structure EvenBlocks (d c b : Nat) : Prop where
  pos : 0 < c
  even : 8 * c ∣ b
  le : b ≤ d * c
  more : d * (c - 1) < b

theorem ceilIDiv_le_iff {a b c : Nat} (hb : 0 < b) : ceilIDiv a b ≤ c ↔ a ≤ b * c := ceilDiv_le_iff_le_mul hb

theorem tbsOfBlocks_even {d : Nat} (hd : 0 < d) (hbytes : 8 ∣ d) (np : Nat) :
    EvenBlocks d (ceilIDiv (np + 24) d) (tbsOfBlocks np (ceilIDiv (np + 24) d) + 24) ∧
      np ≤ tbsOfBlocks np (ceilIDiv (np + 24) d) := by
  obtain ⟨d, rfl⟩ := hbytes
  have hpos : 0 < ceilIDiv (np + 24) (8 * d) := ceilIDiv_pos (succ_pos _) hd
  generalize hc : ceilIDiv (np + 24) (8 * d) = c at *
  generalize hm : ceilIDiv (np + 24) (8 * c) = m
  have hle : np + 24 ≤ 8 * d * c := (ceilIDiv_le_iff (by omega)).mp hc.le
  have hup : np + 24 ≤ 8 * c * m := (ceilIDiv_le_iff (by omega)).mp hm.le
  have hmore : 8 * d * (c - 1) < np + 24 := by
    by_contra hnot
    have := (ceilIDiv_le_iff (by omega : 0 < 8 * d)).mpr (Nat.not_lt.mp hnot)
    omega
  have hmd : m ≤ d := by
    rw [← hm]
    refine (ceilIDiv_le_iff (by omega)).mpr (hle.trans_eq ?_)
    ring
  have htbs : tbsOfBlocks np c + 24 = 8 * c * m := by
    rw [tbsOfBlocks, hm]
    omega
  rw [htbs]
  refine ⟨⟨hpos, dvd_mul_right _ _, ?_, Nat.lt_of_lt_of_le hmore hup⟩, by omega⟩
  calc 8 * c * m ≤ 8 * c * d := mul_le_mul_left _ hmd
    _ = 8 * d * c := by ring

inductive TbsShape (r : Nat) : Nat → Prop where
  | small {a : Nat} (hle : a ≤ 3824) (hbyte : 8 ∣ a) : TbsShape r a
  | lowRate {a c : Nat} (hr : r ≤ 2560) (hlarge : 3840 ≤ a) (h : EvenBlocks 3816 c (a + 24)) : TbsShape r a
  | single {a : Nat} (hr : 2560 < r) (hlarge : 3824 < a) (hle : a + 24 ≤ 8448) (hbyte : 8 ∣ a + 24) : TbsShape r a
  | several {a c : Nat} (hr : 2560 < r) (hlarge : 8448 < a + 24) (h : EvenBlocks 8424 c (a + 24)) : TbsShape r a

theorem tbsFromTable_shape (np : Nat) : tbsFromTable np ≤ 3824 ∧ 8 ∣ tbsFromTable np := by
  have htable : ∀ size ∈ tbsTable, size ≤ 3824 ∧ 8 ∣ size := by decide
  unfold tbsFromTable
  cases hfind : tbsTable.find? fun size => np ≤ size with
  | none => simp
  | some size => exact htable size (List.mem_of_find?_eq_some hfind)

theorem tbsOfNpInfo_shape {np : Nat} (h : 3840 ≤ np) (r : Nat) : TbsShape r (tbsOfNpInfo r np) := by
  unfold tbsOfNpInfo
  split
  · next hr =>
    obtain ⟨heven, hle⟩ := tbsOfBlocks_even (by decide : 0 < 3816) (by decide) np
    exact .lowRate hr (by omega) heven
  · next hr =>
    split
    · next hnp =>
      obtain ⟨heven, hle⟩ := tbsOfBlocks_even (by decide : 0 < 8424) (by decide) np
      exact .several (by omega) (by omega) heven
    · next hnp =>
      have hup : np + 24 ≤ 8 * ceilIDiv (np + 24) 8 := (ceilIDiv_le_iff (by decide)).mp (le_refl _)
      have hle : ceilIDiv (np + 24) 8 ≤ 1056 := (ceilIDiv_le_iff (by decide)).mpr (by omega)
      exact .single (by omega) (by omega) (by omega) ⟨ceilIDiv (np + 24) 8, by omega⟩

theorem nrComputeTbs_shape (p : TbsParams) : TbsShape p.r (nrComputeTbs p) := by
  unfold nrComputeTbs
  split
  · exact .small (zero_le _) (dvd_zero _)
  · unfold tbsOfNinfo
    split
    · obtain ⟨hle, hbyte⟩ := tbsFromTable_shape (npInfoSmall p.ninfo)
      exact .small hle hbyte
    · exact tbsOfNpInfo_shape (le_max_left _ _) p.r

end Sizes

section Lifting

structure LeastLifting (kb kprime z : Nat) : Prop where
  valid : z ∈ liftingSizes
  fits : kprime ≤ kb * z
  least : ∀ z' ∈ liftingSizes, kprime ≤ kb * z' → z ≤ z'

theorem roundToStep_spec {step : Nat} (hstep : 0 < step) (z : Nat) : z ≤ roundToStep step z ∧
    step ∣ roundToStep step z ∧ ∀ m, step ∣ m → z ≤ m → roundToStep step z ≤ m := by
  have hdiv := div_add_mod z step
  have hmod := mod_lt z hstep
  rw [mul_comm] at hdiv
  unfold roundToStep
  split
  · next hless =>
    rw [← succ_mul]
    refine ⟨by rw [succ_mul]; omega, dvd_mul_left _ _, ?_⟩
    rintro m ⟨k, rfl⟩ hle
    rw [mul_comm step k] at hle ⊢
    exact Nat.mul_le_mul_right _ (Nat.succ_le_of_lt (Nat.lt_of_mul_lt_mul_right (Nat.lt_of_lt_of_le hless hle)))
  · exact ⟨by omega, dvd_mul_left _ _, fun m _ hle => by omega⟩

theorem least_roundToStep (step lo hi : Nat) {z : Nat} (hstep : 0 < step) (hhi : step ∣ hi)
    (hmultiple : ∀ z' ∈ liftingSizes, lo < z' → step ∣ z')
    (hvalid : ∀ k < hi / step + 1, lo < step * k → step * k ∈ liftingSizes) (hlo : lo < z) (hz : z ≤ hi) :
    ∃ zout ∈ liftingSizes, some (roundToStep step z) = some zout ∧ z ≤ zout ∧
      ∀ z' ∈ liftingSizes, z ≤ z' → zout ≤ z' := by
  obtain ⟨hle, hdvd, hleast⟩ := roundToStep_spec hstep z
  refine ⟨_, ?_, rfl, hle, fun z' hz' hzz' => hleast z' (hmultiple z' hz' (by omega)) hzz'⟩
  have hbelow := hleast hi hhi hz
  obtain ⟨k, hk⟩ := hdvd
  rw [hk] at hle hbelow ⊢
  refine hvalid k (lt_succ_of_le ((le_div_iff_mul_le hstep).mpr ?_)) (by omega)
  rwa [mul_comm]

theorem liftingSize_spec {z : Nat} (h : z ≤ 384) :
    ∃ zout ∈ liftingSizes, liftingSize z = some zout ∧ z ≤ zout ∧ ∀ z' ∈ liftingSizes, z ≤ z' → zout ≤ z' := by
  have hsmall : 2 ∈ liftingSizes ∧ ∀ z' ∈ liftingSizes, 2 ≤ z' := by decide
  have hone : roundToStep 1 z = z := by simp [roundToStep]
  unfold liftingSize
  split_ifs with h₂ h₁₆ h₃₂ h₆₄ h₁₂₈ h₂₅₆
  · exact ⟨2, hsmall.1, rfl, h₂, fun z' hz' _ => hsmall.2 z' hz'⟩
  · have hround := least_roundToStep 1 2 16 (by decide) (by decide) (by decide) (by decide) (Nat.lt_of_not_le h₂) h₁₆
    rwa [hone] at hround
  · exact least_roundToStep 2 16 32 (by decide) (by decide) (by decide) (by decide) (Nat.lt_of_not_le h₁₆) h₃₂
  · exact least_roundToStep 4 32 64 (by decide) (by decide) (by decide) (by decide) (Nat.lt_of_not_le h₃₂) h₆₄
  · exact least_roundToStep 8 64 128 (by decide) (by decide) (by decide) (by decide) (Nat.lt_of_not_le h₆₄) h₁₂₈
  · exact least_roundToStep 16 128 256 (by decide) (by decide) (by decide) (by decide) (Nat.lt_of_not_le h₁₂₈) h₂₅₆
  · exact least_roundToStep 32 256 384 (by decide) (by decide) (by decide) (by decide) (Nat.lt_of_not_le h₂₅₆) h

theorem columns_le_iff {kb : Nat} (hkb : 0 < kb) (kprime z : Nat) :
    (if 0 < kprime % kb then kprime / kb + 1 else kprime / kb) ≤ z ↔ kprime ≤ kb * z := by
  have hdiv := div_add_mod kprime kb
  split
  · next hpos =>
    rw [succ_le_iff, div_lt_iff_lt_mul hkb, mul_comm z kb]
    refine ⟨le_of_lt, fun hle => lt_of_le_of_ne hle fun heq => ?_⟩
    rw [heq, mul_mod_right] at hpos
    exact lt_irrefl 0 hpos
  · next hzero =>
    have heq : kprime = kb * (kprime / kb) := by omega
    generalize kprime / kb = q at *
    rw [heq, Nat.mul_le_mul_left_iff hkb]

end Lifting

section Fit

theorem systematicColumns_pos (bg b : Nat) : 0 < systematicColumns bg b := by
  unfold systematicColumns
  split_ifs <;> decide

theorem le_systematicColumns (bg : Nat) {b : Nat} (h : b ≤ 3840) : b ≤ systematicColumns bg b * 384 := by
  unfold systematicColumns
  split_ifs <;> omega

theorem le_maxCodeBlock (bg : Nat) : 3840 ≤ maxCodeBlock bg := by
  unfold maxCodeBlock
  split <;> decide

/-- The code blocks of `b` bits: they come out even and in whole bytes, and the lifting size is the least
that can be used. -/
structure WellSegmented (b bg : Nat) (s : Segmentation) : Prop where
  blocks : s.c * (s.kprime - s.l) = b
  crc : s.l = if s.c = 1 then 0 else 24
  bytes : 8 ∣ s.kprime - s.l
  kprime_le : s.kprime ≤ s.k
  filler : s.f = s.k - s.kprime
  columns : s.k = if bg = 1 then 22 * s.zout else 10 * s.zout
  lifting : LeastLifting s.kb s.kprime s.zout

theorem nrSegmentation_of_codeBlocks {b bg : Nat} (c l bprime : Nat)
    (hblocks : codeBlocks b (maxCodeBlock bg) = (c, l, bprime)) (heven : c * (bprime / c - l) = b)
    (hcrc : l = if c = 1 then 0 else 24) (hbytes : 8 ∣ bprime / c - l)
    (hle : bprime / c ≤ systematicColumns bg b * 384) : ∃ s, nrSegmentation b bg = some s ∧ WellSegmented b bg s := by
  obtain ⟨zout, hvalid, hfound, hfits, hleast⟩ :=
    liftingSize_spec ((columns_le_iff (systematicColumns_pos bg b) (bprime / c) 384).mpr hle)
  rw [columns_le_iff (systematicColumns_pos bg b)] at hfits
  have hzout : zout ≤ 384 := hleast 384 (by decide)
    ((columns_le_iff (systematicColumns_pos bg b) (bprime / c) 384).mpr hle)
  refine ⟨⟨c, bprime / c, l, if bg = 1 then zout * 22 else zout * 10, zout,
    ((if bg = 1 then zout * 22 else zout * 10) + 2 ^ 32 - bprime / c) % 2 ^ 32, systematicColumns bg b⟩, ?_, ?_⟩
  · simp only [nrSegmentation, hblocks, hfound]
    rfl
  · have hk : bprime / c ≤ if bg = 1 then zout * 22 else zout * 10 := by
      refine hfits.trans ?_
      unfold systematicColumns
      split_ifs <;> omega
    have hsmall : (if bg = 1 then zout * 22 else zout * 10) < 2 ^ 32 := by
      split_ifs <;> omega
    have hfiller : ∀ k kprime, kprime ≤ k → k < 2 ^ 32 → (k + 2 ^ 32 - kprime) % 2 ^ 32 = k - kprime := by
      intro k kprime hle hlt
      omega
    refine ⟨heven, hcrc, hbytes, hk, hfiller _ _ hk hsmall, ?_, hvalid, hfits, fun z' hz' hle' => ?_⟩
    · simp only [mul_comm]
    · exact hleast z' hz' ((columns_le_iff (systematicColumns_pos bg b) _ z').mpr hle')

theorem nrSegmentation_single {b bg : Nat} (hle : b ≤ maxCodeBlock bg) (hbyte : 8 ∣ b)
    (hfits : b ≤ systematicColumns bg b * 384) : ∃ s, nrSegmentation b bg = some s ∧ WellSegmented b bg s := by
  refine nrSegmentation_of_codeBlocks 1 0 b ?_ ?_ ?_ ?_ ?_
  · rw [codeBlocks, if_pos hle]
  · simp
  · rfl
  · simpa using hbyte
  · simpa using hfits

theorem EvenBlocks.count_eq {d c b : Nat} (h : EvenBlocks d c b) (hd : 0 < d) :
    (if d * (b / d) < b then b / d + 1 else b / d) = c := by
  have hpos := h.pos
  have hup : b < d * (b / d + 1) := lt_mul_div_succ b hd
  have hlt : c - 1 < b / d + 1 := Nat.lt_of_mul_lt_mul_left (Nat.lt_trans h.more hup)
  split
  · next hless =>
    have : b / d < c := Nat.lt_of_mul_lt_mul_left (Nat.lt_of_lt_of_le hless h.le)
    omega
  · next heven =>
    have hle : b / d ≤ c := le_of_mul_le_mul_left ((mul_div_le b d).trans h.le) hd
    have : c - 1 < b / d := Nat.lt_of_mul_lt_mul_left (Nat.lt_of_lt_of_le h.more (Nat.not_lt.mp heven))
    omega

theorem nrSegmentation_several {b bg c : Nat} (hlarge : maxCodeBlock bg < b)
    (h : EvenBlocks (maxCodeBlock bg - 24) c b) (hfits : maxCodeBlock bg ≤ systematicColumns bg b * 384) :
    ∃ s, nrSegmentation b bg = some s ∧ WellSegmented b bg s := by
  have hkcb := le_maxCodeBlock bg
  have hpos := h.pos
  obtain ⟨m, hm⟩ := h.even
  have hsize : (b + c * 24) / c = 8 * m + 24 := by
    rw [hm, show 8 * c * m + c * 24 = c * (8 * m + 24) by ring, Nat.mul_div_cancel_left _ hpos]
  have hle : 8 * m ≤ maxCodeBlock bg - 24 := by
    refine le_of_mul_le_mul_right ((le_of_eq ?_).trans h.le) hpos
    rw [hm]
    ring
  have hmany : c ≠ 1 := by
    intro hone
    have hle := h.le
    rw [hone] at hle
    omega
  refine nrSegmentation_of_codeBlocks c 24 (b + c * 24) ?_ ?_ ?_ ?_ ?_
  · rw [codeBlocks, if_neg (not_le.mpr hlarge)]
    simp only [h.count_eq (by omega)]
  · rw [hsize, Nat.add_sub_cancel, hm]
    ring
  · rw [if_neg hmany]
  · rw [hsize, Nat.add_sub_cancel]
    exact dvd_mul_right _ _
  · rw [hsize]
    omega

def withCrc (a : Nat) : Nat := if a ≤ 3824 then a + 16 else a + 24

/-- Every transport block is cut into code blocks of one size. -/
theorem tbs_well_segmented (p : TbsParams) :
    ∃ s, nrSegmentation (withCrc (nrComputeTbs p)) (getBG (nrComputeTbs p) p.r) = some s ∧
      WellSegmented (withCrc (nrComputeTbs p)) (getBG (nrComputeTbs p) p.r) s := by
  have hshape := nrComputeTbs_shape p
  generalize nrComputeTbs p = a at hshape
  cases hshape with
  | small hle hbyte =>
    have hb : withCrc a = a + 16 := if_pos hle
    rw [hb]
    exact nrSegmentation_single ((by omega : a + 16 ≤ 3840).trans (le_maxCodeBlock _)) (by omega)
      (le_systematicColumns _ (by omega))
  | lowRate hr hlarge h =>
    have hb : withCrc a = a + 24 := if_neg (by omega)
    have hbg : getBG a p.r = 2 := if_pos (.inr (.inr hr))
    have hkcb : maxCodeBlock 2 = 3840 := rfl
    rw [hb, hbg]
    refine nrSegmentation_several (by rw [hkcb]; omega) (by rwa [hkcb]) ?_
    rw [hkcb, systematicColumns, if_neg (by decide), if_pos (by omega)]
  | single hr hlarge hle hbyte =>
    have hb : withCrc a = a + 24 := if_neg (by omega)
    have hbg : getBG a p.r = 1 := if_neg (by omega)
    have hkcb : maxCodeBlock 1 = 8448 := rfl
    rw [hb, hbg]
    refine nrSegmentation_single (by rwa [hkcb]) hbyte ?_
    rwa [systematicColumns, if_pos rfl]
  | several hr hlarge h =>
    have hb : withCrc a = a + 24 := if_neg (by omega)
    have hbg : getBG a p.r = 1 := if_neg (by omega)
    have hkcb : maxCodeBlock 1 = 8448 := rfl
    rw [hb, hbg]
    refine nrSegmentation_several (by rwa [hkcb]) (by rwa [hkcb]) ?_
    rw [hkcb, systematicColumns, if_pos rfl]

end Fit

end OaiNr.Phy
