import Mathlib.Data.Set.Lattice
import Mathlib.Order.CompletePartialOrder
import OaiNr.Lib.Fallible
import OaiNr.Mac.VrbMap

/-!
# What the searches of the map find
-/

namespace OaiNr.Mac

open Nat

variable {rb fuel : Nat}

def resources (mask : Nat) (rbs : Nat → Prop) : Set (Nat × Nat) := {p | rbs p.1 ∧ mask.testBit p.2}

namespace VrbMap

variable {map : VrbMap} {mask bwpStart bwpSize : Nat}

def occupied (map : VrbMap) : Set (Nat × Nat) := {p | (map p.1).testBit p.2}

theorem isFree_iff : map.isFree mask rb ↔ map rb &&& mask = 0 := by simp [isFree]

theorem disjoint_occupied {rbs : Nat → Prop} (h : ∀ rb, rbs rb → map.isFree mask rb) :
    Disjoint (resources mask rbs) map.occupied := by
  rw [Set.disjoint_left]
  rintro ⟨rb, i⟩ ⟨hrb, hi⟩ hocc
  have hbit : (map rb &&& mask).testBit i = true := by rw [testBit_and, hi, hocc]; rfl
  simp [isFree_iff.mp (h rb hrb)] at hbit

theorem occupied_mark (map : VrbMap) (mask : Nat) (rbs : Nat → Bool) :
    (map.mark mask rbs).occupied = map.occupied ∪ resources mask fun rb => rbs rb := by
  ext ⟨rb, i⟩
  simp only [occupied, mark, resources, Set.mem_union, Set.mem_ofPred_eq]
  cases rbs rb <;> simp

def FreeRun (map : VrbMap) (mask bwpStart start len : Nat) : Prop :=
  ∀ rb, start ≤ rb → rb < start + len → map.isFree mask (bwpStart + rb)

theorem FreeRun.mono {start len len' : Nat} (h : map.FreeRun mask bwpStart start len) (hle : len' ≤ len) :
    map.FreeRun mask bwpStart start len' := fun rb hlo hhi => h rb hlo (by omega)

theorem FreeRun.snoc {start len : Nat} (h : map.FreeRun mask bwpStart start len)
    (hfree : map.isFree mask (bwpStart + (start + len))) : map.FreeRun mask bwpStart start (len + 1) := by
  intro rb hlo hhi
  rcases lt_or_eq_of_le (le_of_lt_succ hhi) with hlt | rfl
  · exact h rb hlo hlt
  · exact hfree

section LargestBlock

structure Searched (map : VrbMap) (mask bwpStart : Nat) (s : Block × Block) (rb : Nat) : Prop where
  best : map.FreeRun mask bwpStart s.1.start s.1.len
  best_le : s.1.start + s.1.len ≤ rb
  cur : map.FreeRun mask bwpStart s.2.start s.2.len
  cur_le : s.2.start + s.2.len ≤ rb
  cur_end : s.2.len = 0 ∨ s.2.start + s.2.len = rb

theorem Searched.longer {s : Block × Block} (h : map.Searched mask bwpStart s rb) :
    map.FreeRun mask bwpStart (s.1.longer s.2).start (s.1.longer s.2).len ∧
      (s.1.longer s.2).start + (s.1.longer s.2).len ≤ rb := by
  unfold Block.longer
  split
  · exact ⟨h.cur, h.cur_le⟩
  · exact ⟨h.best, h.best_le⟩

theorem Searched.step {s : Block × Block} (h : map.Searched mask bwpStart s rb) :
    map.Searched mask bwpStart (map.blockStep mask bwpStart s rb) (rb + 1) := by
  unfold blockStep
  split
  · next hfree =>
    rw [add_comm] at hfree
    refine ⟨h.best, le_succ_of_le h.best_le, ?_, ?_, ?_⟩
    all_goals simp only
    all_goals split
    · next hzero =>
      intro k hlo hhi
      rwa [show k = rb by simp at hlo hhi; omega]
    · next hpos =>
      have hend := h.cur_end.resolve_left hpos
      exact h.cur.snoc (by rwa [hend])
    all_goals have := h.cur_end
    all_goals simp
    all_goals omega
  · obtain ⟨hfree, hle⟩ := h.longer
    refine ⟨hfree, le_succ_of_le hle, ?_, ?_, .inl rfl⟩
    · intro k hlo hhi
      simp at hlo hhi
      omega
    · have := h.cur_le
      simp
      omega

theorem findLargestFreeBlock_spec (map : VrbMap) (mask bwpStart bwpSize : Nat) :
    let block := map.findLargestFreeBlock mask bwpStart bwpSize
    map.FreeRun mask bwpStart block.start block.len ∧ block.start + block.len ≤ bwpSize := by
  have hrun : map.Searched mask bwpStart
      ((List.range bwpSize).foldl (map.blockStep mask bwpStart) (⟨0, 0⟩, ⟨0, 0⟩)) bwpSize := by
    induction bwpSize with
    | zero =>
      refine ⟨?_, le_refl _, ?_, le_refl _, .inl rfl⟩
      all_goals exact fun rb _ hhi => absurd hhi (not_lt_zero rb)
    | succ n ih =>
      rw [List.range_succ, List.foldl_append]
      exact ih.step
  exact hrun.longer

end LargestBlock

theorem blockEnd_spec (fuel rbEnd : Nat) : rbEnd ≤ map.blockEnd mask bwpStart fuel rbEnd ∧
      map.blockEnd mask bwpStart fuel rbEnd ≤ rbEnd + fuel ∧
      ∀ rb, rbEnd ≤ rb → rb < map.blockEnd mask bwpStart fuel rbEnd → map.isFree mask (bwpStart + rb) := by
  induction fuel generalizing rbEnd with
  | zero => exact ⟨le_refl _, le_refl _, fun rb hlo hhi => absurd hhi (not_lt.mpr hlo)⟩
  | succ fuel ih =>
    unfold blockEnd
    split
    · next hfree =>
      obtain ⟨hle, hend, hall⟩ := ih (rbEnd + 1)
      refine ⟨by omega, by omega, fun rb hlo hhi => ?_⟩
      rcases eq_or_lt_of_le hlo with rfl | hlt
      · exact hfree
      · exact hall rb hlt hhi
    · exact ⟨le_refl _, by omega, fun rb hlo hhi => absurd hhi (not_lt.mpr hlo)⟩

end VrbMap

section FindNbRb

variable {tbs : Nat → Nat} {transformPrecoding : Bool} {bytes : Nat}

def AllowedRbs (transformPrecoding : Bool) (rb : Nat) : Prop :=
  transformPrecoding = true → multipleOf235 rb = .ok true

theorem divideOut_ok {p : Nat} (hp : 1 < p) (hrb : 0 < rb) (hfuel : rb < fuel) :
    ∃ r k, divideOut p fuel rb = .ok r ∧ 0 < r ∧ ¬ p ∣ r ∧ rb = p ^ k * r := by
  induction fuel generalizing rb with
  | zero => omega
  | succ fuel ih =>
    unfold divideOut
    split
    · next hmod =>
      have hdvd := dvd_of_mod_eq_zero hmod
      have hlt := div_lt_self hrb hp
      have hpos := Nat.div_pos (le_of_dvd hrb hdvd) (by omega)
      obtain ⟨r, k, hr, hr0, hnot, hpow⟩ := ih hpos (by omega)
      refine ⟨r, k + 1, hr, hr0, hnot, ?_⟩
      rw [Nat.pow_succ', Nat.mul_assoc, ← hpow, Nat.mul_div_cancel' hdvd]
    · next hmod => exact ⟨rb, 0, rfl, hrb, fun h => hmod (mod_eq_zero_of_dvd h), by simp⟩

theorem multipleOf235_spec (hrb : 0 < rb) : ∃ r a b c, multipleOf235 rb = .ok (r == 1) ∧
    rb = 2 ^ a * 3 ^ b * 5 ^ c * r ∧ ¬ 2 ∣ r ∧ ¬ 3 ∣ r ∧ ¬ 5 ∣ r := by
  obtain ⟨r₂, a, h₂, hpos₂, hnot₂, rfl⟩ := divideOut_ok one_lt_two hrb (lt_succ_self rb)
  obtain ⟨r₃, b, h₃, hpos₃, hnot₃, rfl⟩ := divideOut_ok (p := 3) (by decide) hpos₂ (lt_succ_self r₂)
  obtain ⟨r₅, c, h₅, _, hnot₅, rfl⟩ := divideOut_ok (p := 5) (by decide) hpos₃ (lt_succ_self r₃)
  refine ⟨r₅, a, b, c, bind_eq_ok.mpr ⟨_, h₂, bind_eq_ok.mpr ⟨_, h₃, bind_eq_ok.mpr ⟨_, h₅, rfl⟩⟩⟩, ?_, ?_, ?_, hnot₅⟩
  · simp only [Nat.mul_assoc]
  · exact fun h => hnot₂ (dvd_trans h ⟨3 ^ b * 5 ^ c, by simp only [mul_comm, mul_left_comm]⟩)
  · exact fun h => hnot₃ (dvd_trans h (dvd_mul_left _ _))

theorem multipleOf235_ok (hrb : 0 < rb) : ∃ b, multipleOf235 rb = .ok b := by
  obtain ⟨r, _, _, _, h, _⟩ := multipleOf235_spec hrb
  exact ⟨_, h⟩

theorem toAllowed_step {next : Nat → Nat} (fuel : Nat) (hrb : transformPrecoding = true → 0 < rb) :
    AllowedRbs transformPrecoding rb ∧ toAllowed next transformPrecoding (fuel + 1) rb = .ok rb ∨
      ¬ AllowedRbs transformPrecoding rb ∧ toAllowed next transformPrecoding (fuel + 1) rb =
        toAllowed next transformPrecoding fuel (next rb) := by
  cases transformPrecoding with
  | false => exact .inl ⟨fun h => absurd h (by simp), rfl⟩
  | true =>
    obtain ⟨b, hb⟩ := multipleOf235_ok (hrb rfl)
    cases b with
    | true => exact .inl ⟨fun _ => hb, by simp [toAllowed, hb]⟩
    | false =>
      refine .inr ⟨fun h => ?_, by simp [toAllowed, hb]⟩
      cases hb.symm.trans (h rfl)

theorem allowedRbs_one : AllowedRbs transformPrecoding 1 := fun _ => by decide

theorem toAllowed_down (hrb : transformPrecoding = true → 0 < rb) (hfuel : rb < fuel) :
    ∃ p, toAllowed (· - 1) transformPrecoding fuel rb = .ok p ∧ p ≤ rb ∧ AllowedRbs transformPrecoding p ∧
      ∀ n, AllowedRbs transformPrecoding n → n ≤ rb → n ≤ p := by
  induction fuel generalizing rb with
  | zero => omega
  | succ fuel ih =>
    rcases toAllowed_step fuel hrb with ⟨hallowed, heq⟩ | ⟨hnot, heq⟩
    · exact ⟨rb, heq, le_refl _, hallowed, fun n _ hle => hle⟩
    · have hne : ∀ n, AllowedRbs transformPrecoding n → n ≠ rb := by
        rintro n hn rfl
        exact hnot hn
      have hone := hne 1 allowedRbs_one
      have hpos : 0 < rb := by
        by_contra hzero
        exact hnot fun ht => absurd (hrb ht) hzero
      obtain ⟨p, hp, hle, hallowed, hlast⟩ := ih (fun _ => by omega : _ → 0 < rb - 1) (by omega)
      refine ⟨p, heq.trans hp, by omega, hallowed, fun n hn hle => hlast n hn ?_⟩
      have := hne n hn
      omega

theorem toAllowed_up {hi : Nat} (hrb : 0 < rb) (hle : rb ≤ hi)
    (hhi : AllowedRbs transformPrecoding hi) (hfuel : hi - rb < fuel) :
    ∃ p, toAllowed (· + 1) transformPrecoding fuel rb = .ok p ∧ rb ≤ p ∧ p ≤ hi ∧
      AllowedRbs transformPrecoding p ∧ ∀ n, AllowedRbs transformPrecoding n → rb ≤ n → p ≤ n := by
  induction fuel generalizing rb with
  | zero => omega
  | succ fuel ih =>
    rcases toAllowed_step fuel (fun _ => hrb) with ⟨hallowed, heq⟩ | ⟨hnot, heq⟩
    · exact ⟨rb, heq, le_refl _, hle, hallowed, fun n _ hle => hle⟩
    · have hne : ∀ n, AllowedRbs transformPrecoding n → n ≠ rb := by
        rintro n hn rfl
        exact hnot hn
      have hhi' := hne hi hhi
      obtain ⟨p, hp, hlo, hpi, hallowed, hfirst⟩ := ih (by omega : 0 < rb + 1) (by omega) (by omega)
      refine ⟨p, heq.trans hp, by omega, hpi, hallowed, fun n hn hle => hfirst n hn ?_⟩
      have := hne n hn
      omega

theorem searchNbRb_round {lo hi : Nat} (hgap : lo + 1 < hi) (hhi : AllowedRbs transformPrecoding hi) :
    ∃ p, lo < p ∧ (hi + lo) / 2 ≤ p ∧ p ≤ hi ∧ AllowedRbs transformPrecoding p ∧
      (∀ n, AllowedRbs transformPrecoding n → (hi + lo) / 2 ≤ n → p ≤ n) ∧
      ∀ bytes fuel, searchNbRb tbs transformPrecoding bytes (fuel + 1) lo hi = if p = hi then .ok hi
        else if bytes = tbs p then .ok p else if bytes < tbs p then searchNbRb tbs transformPrecoding bytes fuel lo p
        else searchNbRb tbs transformPrecoding bytes fuel p hi := by
  obtain ⟨p, hp, hlo, hpi, hallowed, hfirst⟩ := toAllowed_up (by omega : 0 < (hi + lo) / 2)
    (by omega) hhi (by omega : hi - (hi + lo) / 2 < hi + 1)
  refine ⟨p, by omega, hlo, hpi, hallowed, hfirst, fun bytes fuel => ?_⟩
  rw [searchNbRb, if_pos hgap, hp, ok_bind]
  rfl

end FindNbRb

namespace Pdcch

variable {p : Pdcch}

theorem bundle_pos (p : Pdcch) : 0 < p.regBundleSize ∧ p.regBundleSize ≤ 6 :=
  ⟨pos_of_dvd_of_pos p.bundle_size (by decide), le_of_dvd (by decide) p.bundle_size⟩

theorem cceBundles_lt {j k : Nat} (hj : j < p.numCces) (hk : k ∈ p.cceBundles j) : k < p.numRegs / p.regBundleSize := by
  have hregs : 6 * (j + 1) ≤ p.numRegs := by
    simp only [numCces, nrNbRegPerCce] at hj
    omega
  simp only [cceBundles, List.mem_range'_1] at hk
  calc k < 6 * j / p.regBundleSize + 6 / p.regBundleSize := hk.2
    _ ≤ (6 * j + 6) / p.regBundleSize := div_add_div_le_add_div
    _ ≤ p.numRegs / p.regBundleSize := Nat.div_le_div_right (by omega)

end Pdcch

end OaiNr.Mac
