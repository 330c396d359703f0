import Mathlib.Data.Nat.Prime.Basic
import Mathlib.Order.Lattice.Nat
import OaiNr.Mac.Lemmas.VrbMap
import OaiNr.Mac.Theorems.TbsMonotone

/-!
# The search for the number of resource blocks

The binary search of `nr_find_nb_rb` finds the least number, provided that no two numbers give exactly the bytes asked
for, and that the bisection arrives at the least one that transform precoding allows.
-/

namespace OaiNr.Mac

open Nat

section Smooth

end Smooth

section Search

variable {tbs : Nat → Nat} {transformPrecoding : Bool} {bytes : Nat} {allowed fits : Nat → Prop}

/-- The bisection of the numbers between `lo` and `hi` arrives at `m`. The first allowed number from the middle on ends
it if it is the upper bound or fits exactly, and else becomes a bound, with `m` still between the bounds. -/
inductive ArrivesAt (allowed fits : Nat → Prop) : (m lo hi : Nat) → Prop where
  | upper {lo hi : Nat} : IsLeast {n | allowed n ∧ lo < n ∧ (hi + lo) / 2 ≤ n} hi → ArrivesAt allowed fits hi lo hi
  | found {lo p hi : Nat} : IsLeast {n | allowed n ∧ lo < n ∧ (hi + lo) / 2 ≤ n} p → p < hi → fits p →
      ArrivesAt allowed fits p lo hi
  | left {m lo p hi : Nat} : IsLeast {n | allowed n ∧ lo < n ∧ (hi + lo) / 2 ≤ n} p → p < hi → ¬fits p → m ≤ p →
      ArrivesAt allowed fits m lo p → ArrivesAt allowed fits m lo hi
  | right {m lo p hi : Nat} : IsLeast {n | allowed n ∧ lo < n ∧ (hi + lo) / 2 ≤ n} p → p < hi → p < m →
      ArrivesAt allowed fits m p hi → ArrivesAt allowed fits m lo hi

theorem arrivesAt_iff {m lo p hi : Nat} (hp : IsLeast {n | allowed n ∧ lo < n ∧ (hi + lo) / 2 ≤ n} p) (hle : p ≤ hi) :
    ArrivesAt allowed fits m lo hi ↔ p = hi ∧ m = hi ∨ p < hi ∧ (fits p ∧ m = p ∨
      ¬fits p ∧ m ≤ p ∧ ArrivesAt allowed fits m lo p ∨ p < m ∧ ArrivesAt allowed fits m p hi) := by
  constructor
  · intro h
    cases h with
    | upper hp' => exact .inl ⟨hp.unique hp', rfl⟩
    | found hp' hlt hfits =>
      cases hp.unique hp'
      exact .inr ⟨hlt, .inl ⟨hfits, rfl⟩⟩
    | left hp' hlt hnot hm h =>
      cases hp.unique hp'
      exact .inr ⟨hlt, .inr (.inl ⟨hnot, hm, h⟩)⟩
    | right hp' hlt hm h =>
      cases hp.unique hp'
      exact .inr ⟨hlt, .inr (.inr ⟨hm, h⟩)⟩
  · rintro (⟨rfl, rfl⟩ | ⟨hlt, ⟨hfits, rfl⟩ | ⟨hnot, hm, h⟩ | ⟨hm, h⟩⟩)
    · exact .upper hp
    · exact .found hp hlt hfits
    · exact .left hp hlt hnot hm h
    · exact .right hp hlt hm h

/-- The search ends at the least number that is enough, if and only if the bisection arrives there. -/
theorem searchNbRb_eq_iff {fuel lo hi m : Nat} (hlt : lo < hi) (hhi : AllowedRbs transformPrecoding hi)
    (hmono : ∀ n n', lo ≤ n → n ≤ n' → n' ≤ hi → tbs n ≤ tbs n')
    (hm : IsLeast {n | AllowedRbs transformPrecoding n ∧ lo < n ∧ bytes ≤ tbs n} m) (hless : bytes < tbs hi)
    (hfuel : hi - lo < fuel) : ∃ n, searchNbRb tbs transformPrecoding bytes fuel lo hi = .ok n ∧
      n ∈ {n | AllowedRbs transformPrecoding n ∧ lo < n ∧ bytes ≤ tbs n} ∧ n ≤ hi ∧
      (n = m ↔ ArrivesAt (AllowedRbs transformPrecoding) (tbs · = bytes) m lo hi) := by
  induction fuel generalizing lo hi with
  | zero => omega
  | succ fuel ih =>
    have hmhi : m ≤ hi := hm.2 ⟨hhi, hlt, hless.le⟩
    by_cases hgap : lo + 1 < hi
    · obtain ⟨p, hlo, hmid, hpi, hp, hfirst, hround⟩ := @searchNbRb_round tbs _ _ _ hgap hhi
      have hleast : IsLeast {n | AllowedRbs transformPrecoding n ∧ lo < n ∧ (hi + lo) / 2 ≤ n} p :=
        ⟨⟨hp, hlo, hmid⟩, fun n hn => hfirst n hn.1 hn.2.2⟩
      have hiff := @arrivesAt_iff _ (tbs · = bytes) m _ _ _ hleast hpi
      have hmp : bytes ≤ tbs p → m ≤ p := fun h => hm.2 ⟨hp, hlo, h⟩
      rw [hround]
      split_ifs with hend hexact hlower
      · exact ⟨hi, rfl, ⟨hhi, hlt, hless.le⟩, le_refl _, by rw [hiff]; simp [hend, eq_comm]⟩
      · have := hmp hexact.le
        refine ⟨p, rfl, ⟨hp, hlo, hexact.le⟩, hpi, ?_⟩
        rw [hiff]
        simp only [hexact.symm, hend, not_true, true_and, false_and, false_or]
        omega
      · have := hmp hlower.le
        obtain ⟨n, hn, hmem, hnp, heq⟩ := ih hlo hp (fun n n' h h' h'' => hmono n n' h h' (h''.trans hpi)) hm hlower
          (by omega)
        refine ⟨n, hn, hmem, hnp.trans hpi, ?_⟩
        rw [hiff, heq]
        have hnot : tbs p ≠ bytes := hlower.ne'
        have hup : ¬p < m := not_lt.mpr this
        simp [hend, hnot, hup, this, lt_of_le_of_ne hpi hend]
      · -- the least number that is enough lies above `p`
        have habove : p < m := by
          by_contra hle
          have := hmono m p hm.1.2.1.le (not_lt.mp hle) hpi
          have := hm.1.2.2
          omega
        obtain ⟨n, hn, ⟨hallowed, hpn, henough⟩, hnhi, heq⟩ := ih (lt_of_le_of_ne hpi hend) hhi
          (fun n n' h h' h'' => hmono n n' (hlo.le.trans h) h' h'')
          ⟨⟨hm.1.1, habove, hm.1.2.2⟩, fun n hn => hm.2 ⟨hn.1, hlo.trans hn.2.1, hn.2.2⟩⟩ hless (by omega)
        refine ⟨n, hn, ⟨hallowed, hlo.trans hpn, henough⟩, hnhi, ?_⟩
        rw [hiff, heq]
        have hnot : tbs p ≠ bytes := fun h => hexact h.symm
        have hle : ¬m ≤ p := not_le.mpr habove
        simp [hend, hnot, hle, habove, lt_of_le_of_ne hpi hend]
    · have hlo := hm.1.2.1
      refine ⟨hi, by rw [searchNbRb, if_neg hgap], ⟨hhi, hlt, hless.le⟩, le_refl _, ?_⟩
      rw [arrivesAt_iff ⟨⟨hhi, hlt, by omega⟩, fun n hn => by have := hn.2.1; omega⟩ (le_refl _)]
      omega

end Search

section Find

variable {tbs : Nat → Nat} {transformPrecoding : Bool} {bytes nbRbMin nbRbMax top : Nat}

structure FoundLeast (allowed : Nat → Prop) (tbs : Nat → Nat) (bytes nbRbMin nbRbMax : Nat) (r : NbRbResult) :
    Prop where
  valid : allowed r.nbRb
  min_le : nbRbMin ≤ r.nbRb
  le_max : r.nbRb ≤ nbRbMax
  least : r.found = true → ∀ n, allowed n → nbRbMin ≤ n → n < r.nbRb → tbs n < bytes

structure FoundSize (tbs : Nat → Nat) (bytes nbRbMax : Nat) (r : NbRbResult) : Prop where
  found_iff : r.found = true ↔ bytes ≤ tbs nbRbMax
  tbs_eq : r.tbs = tbs r.nbRb
  enough : r.found = true → bytes ≤ r.tbs

variable (htop : IsGreatest {n | AllowedRbs transformPrecoding n ∧ n ≤ nbRbMax} top)
include htop

theorem nrFindNbRbTbs_eq :
    nrFindNbRbTbs tbs transformPrecoding bytes nbRbMin nbRbMax = if tbs top < bytes then .ok ⟨false, tbs top, top⟩
      else if bytes = tbs top then .ok ⟨true, tbs top, top⟩
      else if bytes ≤ tbs nbRbMin then .ok ⟨true, tbs nbRbMin, nbRbMin⟩
      else searchNbRb tbs transformPrecoding bytes (top + 1) nbRbMin top >>= fun hi =>
        .ok ⟨bytes ≤ tbs hi && hi ≤ top, tbs hi, hi⟩ := by
  obtain ⟨⟨hallowed, hle⟩, hlast⟩ := htop
  have hpos : transformPrecoding = true → 0 < nbRbMax := fun ht => by
    refine pos_of_ne_zero fun hzero => ?_
    rw [le_zero.mp (hle.trans_eq hzero)] at hallowed
    cases hallowed ht
  obtain ⟨p, hp, hpmax, hallowed', hlast'⟩ := toAllowed_down hpos (lt_succ_self nbRbMax)
  obtain rfl : top = p := le_antisymm (hlast' top hallowed hle) (hlast ⟨hallowed', hpmax⟩)
  rw [nrFindNbRbTbs, hp, ok_bind]
  rfl

omit htop in
theorem foundLeast_iff {r : NbRbResult} {m : Nat} {allowed : Nat → Prop} (hfound : r.found = true)
    (hm : IsLeast {n | allowed n ∧ nbRbMin ≤ n ∧ bytes ≤ tbs n} m) (hmin : nbRbMin ≤ r.nbRb) (hmax : r.nbRb ≤ nbRbMax)
    (henough : bytes ≤ tbs r.nbRb) : FoundLeast allowed tbs bytes nbRbMin nbRbMax r ↔ r.nbRb = m := by
  constructor
  · intro h
    refine le_antisymm (not_lt.mp fun hlt => ?_) (hm.2 ⟨h.valid, hmin, henough⟩)
    exact absurd hm.1.2.2 (not_le.mpr (h.least hfound m hm.1.1 hm.1.2.1 hlt))
  · rintro rfl
    exact ⟨hm.1.1, hmin, hmax, fun _ n hn hlo hlt => not_le.mp fun h => absurd (hm.2 ⟨hn, hlo, h⟩) (not_le.mpr hlt)⟩

/-- When the search finds the least number: too much is asked for, or the number that is tried first, the lower bound or
the one at which the bisection arrives is the least allowed one that is enough. -/
def FindsLeast (allowed : Nat → Prop) (tbs : Nat → Nat) (bytes nbRbMin top : Nat) : Prop :=
  tbs top < bytes ∨ ∃ m, IsLeast {n | allowed n ∧ nbRbMin ≤ n ∧ bytes ≤ tbs n} m ∧
    if bytes = tbs top then m = top else if bytes ≤ tbs nbRbMin then m = nbRbMin
    else ArrivesAt allowed (tbs · = bytes) m nbRbMin top

theorem nrFindNbRbTbs_spec (hle : nbRbMin ≤ top)
    (hmono : ∀ n n', nbRbMin ≤ n → n ≤ n' → n' ≤ top → tbs n ≤ tbs n') :
    ∃ r, nrFindNbRbTbs tbs transformPrecoding bytes nbRbMin nbRbMax = .ok r ∧ FoundSize tbs bytes top r ∧
      (FoundLeast (AllowedRbs transformPrecoding) tbs bytes nbRbMin nbRbMax r ↔
        FindsLeast (AllowedRbs transformPrecoding) tbs bytes nbRbMin top) := by
  obtain ⟨hallowed, htopmax⟩ := htop.1
  rw [nrFindNbRbTbs_eq htop]
  by_cases hnot : tbs top < bytes
  · rw [if_pos hnot]
    exact ⟨_, rfl, ⟨by simpa using hnot, rfl, nofun⟩, iff_of_true ⟨hallowed, hle, htopmax, nofun⟩ (.inl hnot)⟩
  have henough : bytes ≤ tbs top := not_lt.mp hnot
  obtain ⟨m, hm⟩ : ∃ m, IsLeast {n | AllowedRbs transformPrecoding n ∧ nbRbMin ≤ n ∧ bytes ≤ tbs n} m :=
    ⟨_, isLeast_csInf ⟨top, hallowed, hle, henough⟩⟩
  have hfinds : FindsLeast (AllowedRbs transformPrecoding) tbs bytes nbRbMin top ↔ if bytes = tbs top then m = top else
      if bytes ≤ tbs nbRbMin then m = nbRbMin
      else ArrivesAt (AllowedRbs transformPrecoding) (tbs · = bytes) m nbRbMin top :=
    ⟨fun h => by obtain ⟨m', hm', h⟩ := h.resolve_left hnot; cases hm.unique hm'; exact h, fun h => .inr ⟨m, hm, h⟩⟩
  rw [if_neg hnot, hfinds]
  split_ifs with hexact hsmall
  · refine ⟨_, rfl, ⟨by simp [henough], rfl, fun _ => henough⟩, ?_⟩
    rw [foundLeast_iff rfl hm hle htopmax henough, eq_comm]
  · refine ⟨_, rfl, ⟨by simp [henough], rfl, fun _ => hsmall⟩, ?_⟩
    rw [foundLeast_iff rfl hm le_rfl (hle.trans htopmax) hsmall, eq_comm]
  · have hlt : nbRbMin < top := lt_of_le_of_ne hle fun heq => hsmall (heq ▸ henough)
    have hm' : IsLeast {n | AllowedRbs transformPrecoding n ∧ nbRbMin < n ∧ bytes ≤ tbs n} m := by
      refine ⟨⟨hm.1.1, lt_of_le_of_ne hm.1.2.1 fun heq => hsmall (heq ▸ hm.1.2.2), hm.1.2.2⟩, fun n hn => ?_⟩
      exact hm.2 ⟨hn.1, hn.2.1.le, hn.2.2⟩
    obtain ⟨n, hn, ⟨-, hlo, hbytes⟩, hntop, heq⟩ := searchNbRb_eq_iff hlt hallowed hmono hm'
      (lt_of_le_of_ne henough hexact) (by omega : top - nbRbMin < top + 1)
    refine ⟨_, by rw [hn, ok_bind], ⟨by simp [henough, hbytes, hntop], rfl, fun _ => hbytes⟩, ?_⟩
    rw [foundLeast_iff (by simp [hbytes, hntop]) hm hlo.le (hntop.trans htopmax) hbytes, heq]

end Find

section Tbs

namespace TbsFormat

variable (f : TbsFormat)

/-- The sizes that `nr_find_nb_rb` compares, in bytes: overhead and scaling are 0 -/
def plain : TbsFormat := { f with nbRbOh := 0, tbScaling := 0, scaling_le := (zero_le _).trans f.scaling_le }

def tbsBytes (nbRb : Nat) : Nat := nrComputeTbs (f.plain.onRbs nbRb) / 8

theorem tbsBytes_mono {n n' : Nat} (h : n ≤ n') (hfits : f.plain.product n' < 2 ^ 32) : f.tbsBytes n ≤ f.tbsBytes n' :=
  Nat.div_le_div_right (f.plain.tbs_mono h hfits)

end TbsFormat

/-- Where every number is allowed, the bisection arrives at every number, unless another one fits exactly. -/
theorem arrivesAt_of_unique {fits : Nat → Prop} {m : Nat} (lo hi : Nat) (hlo : lo < m) (hhi : m ≤ hi)
    (hunique : ∀ p, lo < p → p < hi → fits p → p = m) : ArrivesAt (AllowedRbs false) fits m lo hi := by
  by_cases hgap : lo + 1 < hi
  · have hp : IsLeast {n | AllowedRbs false n ∧ lo < n ∧ (hi + lo) / 2 ≤ n} ((hi + lo) / 2) :=
      ⟨⟨nofun, by omega, le_rfl⟩, fun n hn => hn.2.2⟩
    rcases lt_or_ge ((hi + lo) / 2) m with habove | hbelow
    · exact .right hp (by omega) habove
        (arrivesAt_of_unique _ _ habove hhi fun p h => hunique p (by omega))
    · by_cases hfits : fits ((hi + lo) / 2)
      · exact hunique _ (by omega) (by omega) hfits ▸ .found hp (by omega) hfits
      · exact .left hp (by omega) hfits hbelow
          (arrivesAt_of_unique _ _ hlo hbelow fun p h h' => hunique p h (by omega))
  · obtain rfl : m = hi := by omega
    exact .upper ⟨⟨nofun, hlo, by omega⟩, fun n hn => by have := hn.2.1; omega⟩
termination_by hi - lo

/-- Without transform precoding, the search finds the least number of resource blocks within given bounds if and only if
it arrives there, and within any bounds if and only if no two numbers have transport blocks of exactly the bytes asked
for. -/
theorem nrFindNbRb_least_iff (f : TbsFormat) (bytes : Nat) {nbRbs : Nat} (hfits : f.plain.product nbRbs < 2 ^ 32) :
    (∀ nbRbMin nbRbMax, nbRbMin ≤ nbRbMax → nbRbMax ≤ nbRbs →
      ((∃ r, nrFindNbRbTbs f.tbsBytes false bytes nbRbMin nbRbMax = .ok r ∧
        FoundLeast (AllowedRbs false) f.tbsBytes bytes nbRbMin nbRbMax r ∧ FoundSize f.tbsBytes bytes nbRbMax r) ↔
      FindsLeast (AllowedRbs false) f.tbsBytes bytes nbRbMin nbRbMax)) ∧
    ((∀ nbRbMin nbRbMax, 1 ≤ nbRbMin → nbRbMin ≤ nbRbMax → nbRbMax ≤ nbRbs →
      ∃ r, nrFindNbRbTbs f.tbsBytes false bytes nbRbMin nbRbMax = .ok r ∧
        FoundLeast (AllowedRbs false) f.tbsBytes bytes nbRbMin nbRbMax r ∧ FoundSize f.tbsBytes bytes nbRbMax r) ↔
      ∀ n n', 1 ≤ n → n < n' → n' ≤ nbRbs → ¬ (f.tbsBytes n = bytes ∧ f.tbsBytes n' = bytes)) := by
  have hmono : ∀ n n', n ≤ n' → n' ≤ nbRbs → f.tbsBytes n ≤ f.tbsBytes n' := fun n n' h h' =>
    f.tbsBytes_mono h (lt_of_le_of_lt (mul_le_mul_left _ h') hfits)
  have hbounds : ∀ nbRbMin nbRbMax, nbRbMin ≤ nbRbMax → nbRbMax ≤ nbRbs →
      ((∃ r, nrFindNbRbTbs f.tbsBytes false bytes nbRbMin nbRbMax = .ok r ∧
        FoundLeast (AllowedRbs false) f.tbsBytes bytes nbRbMin nbRbMax r ∧ FoundSize f.tbsBytes bytes nbRbMax r) ↔
      FindsLeast (AllowedRbs false) f.tbsBytes bytes nbRbMin nbRbMax) := by
    intro nbRbMin nbRbMax hle hmax
    obtain ⟨r, hr, hsize, hleast⟩ := @nrFindNbRbTbs_spec f.tbsBytes false bytes _ nbRbMax nbRbMax
      ⟨⟨nofun, le_rfl⟩, fun n hn => hn.2⟩ hle fun n n' _ h h' => hmono n n' h (h'.trans hmax)
    rw [← hleast]
    exact ⟨fun ⟨r', hr', h⟩ => by cases hr.symm.trans hr'; exact h.1, fun h => ⟨r, hr, h, hsize⟩⟩
  refine ⟨hbounds, fun h n n' hpos hlt hle hboth => ?_, fun hunique nbRbMin nbRbMax hpos hle hmax => ?_⟩
  · obtain hnot | ⟨m, hm, h⟩ := (hbounds n n' hlt.le hle).mp (h n n' hpos hlt.le hle)
    · omega
    · -- the largest number is tried first, and fits exactly
      rw [if_pos hboth.2.symm] at h
      exact absurd (hm.2 ⟨nofun, le_rfl, hboth.1.ge⟩) (by omega)
  · refine (hbounds _ _ hle hmax).mpr ((lt_or_ge _ _).imp_right fun henough => ?_)
    obtain ⟨m, hm⟩ : ∃ m, IsLeast {n | AllowedRbs false n ∧ nbRbMin ≤ n ∧ bytes ≤ f.tbsBytes n} m :=
      ⟨_, isLeast_csInf ⟨nbRbMax, nofun, hle, henough⟩⟩
    -- a number that fits exactly is the least one that is enough, since no other one fits
    have hexact : ∀ p, nbRbMin ≤ p → p ≤ nbRbMax → f.tbsBytes p = bytes → p = m := fun p hlo hhi hp => by
      refine (eq_of_le_of_not_lt (hm.2 ⟨nofun, hlo, hp.ge⟩) fun hlt => ?_).symm
      have hmp := hmono m p hlt.le (hhi.trans hmax)
      exact hunique m p (hpos.trans hm.1.2.1) hlt (hhi.trans hmax) ⟨le_antisymm (hmp.trans_eq hp) hm.1.2.2, hp⟩
    refine ⟨m, hm, ?_⟩
    split_ifs with htop hsmall
    · exact (hexact _ hle le_rfl htop.symm).symm
    · exact le_antisymm (hm.2 ⟨nofun, le_rfl, hsmall⟩) hm.1.2.1
    · have hlo : nbRbMin < m := lt_of_le_of_ne hm.1.2.1 fun heq => hsmall (heq ▸ hm.1.2.2)
      exact arrivesAt_of_unique _ _ hlo (hm.2 ⟨nofun, hle, henough⟩) fun p h h' => hexact p h.le h'.le

def oneLayer : TbsFormat :=
  { fourLayers with
    qm := 2
    r := 1200
    nl := 1
    qm_le := by decide
    r_le := by decide
    nl_pos := one_pos
    nl_le := le_add_left 1 3 }

/-- 26 and 27 resource blocks both carry 123 bytes, and 28 carry more than 124. -/
theorem searches_for_124_bytes : ∃ r, nrFindNbRbTbs oneLayer.tbsBytes false 124 26 275 = .ok r ∧
      FoundLeast (AllowedRbs false) oneLayer.tbsBytes 124 26 275 r ∧ FoundSize oneLayer.tbsBytes 124 275 r := by
  have hfits : ∀ {n}, n ≤ maxBwpSize → oneLayer.plain.product n < 2 ^ 32 := oneLayer.plain.product_bwp_lt
  refine (nrFindNbRb_least_iff oneLayer 124 (hfits (Nat.le_refl _))).2.mpr ?_ 26 275 (by decide) (by decide) (by decide)
  rintro n n' - hlt hle ⟨hn, -⟩
  have hlow : oneLayer.tbsBytes 27 = 123 := by decide
  have hhigh : oneLayer.tbsBytes 28 = 129 := by decide
  rcases lt_or_ge n 28 with h | h
  · have := oneLayer.tbsBytes_mono (le_of_lt_succ h) (hfits (by decide))
    omega
  · have := oneLayer.tbsBytes_mono h (hfits (by omega))
    omega

/-- Between 26 and 27 resource blocks, 27 are taken for 123 bytes, which 26 carry. -/
theorem one_block_too_many :
    nrFindNbRbTbs oneLayer.tbsBytes false 123 26 27 = .ok ⟨true, 123, 27⟩ ∧ oneLayer.tbsBytes 26 = 123 := by
  decide

end Tbs

end OaiNr.Mac
