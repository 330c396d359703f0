import OaiNr.Lib.Fallible
import OaiNr.Phy.RateMatching

/-!
# Rate matching against the bit selection of the specification

Both functions go through the circular buffer in pieces: up to the filler bits, behind them to the end, and around
again.
-/

namespace OaiNr.Phy

open Nat List

section Selection

variable {ncb k0 e j a n : Nat} {isFiller : Nat → Prop} {l : List Nat}

theorem mod_succ_of_lt {x m : Nat} (h : x % m = a) (hlt : a + 1 < m) : (x + 1) % m = a + 1 := by
  rw [add_mod, h, mod_eq_of_lt (by omega : 1 < m), mod_eq_of_lt hlt]

theorem BitSelection.run (hplace : 0 < n → (k0 + j) % ncb = a) (hend : a + n ≤ ncb)
    (hbits : ∀ i, a ≤ i → i < a + n → ¬ isFiller i) (h : BitSelection ncb k0 isFiller e (j + n) l) :
    BitSelection ncb k0 isFiller (e + n) j (List.range' a n ++ l) := by
  induction n generalizing a j with
  | zero => exact h
  | succ n ih =>
    have hj := hplace (succ_pos n)
    rw [List.range'_succ, cons_append, ← hj]
    refine .take (by rw [hj]; exact hbits a (Nat.le_refl a) (by omega)) ?_
    rw [hj]
    refine ih (fun hn => mod_succ_of_lt hj (by omega)) (by omega) (fun i hle hlt => hbits i (by omega) (by omega)) ?_
    rwa [show j + 1 + n = j + (n + 1) by omega]

theorem BitSelection.skips (hplace : 0 < n → (k0 + j) % ncb = a) (hend : a + n ≤ ncb)
    (hbits : ∀ i, a ≤ i → i < a + n → isFiller i) (h : BitSelection ncb k0 isFiller e (j + n) l)
    (he : 0 < e) : BitSelection ncb k0 isFiller e j l := by
  obtain _ | e := e
  · cases he
  induction n generalizing a j with
  | zero => exact h
  | succ n ih =>
    have hj := hplace (succ_pos n)
    refine .skip (by rw [hj]; exact hbits a (Nat.le_refl a) (by omega)) ?_
    refine ih (fun hn => mod_succ_of_lt hj (by omega)) (by omega) (fun i hle hlt => hbits i (by omega) (by omega)) ?_
    rwa [show j + 1 + n = j + (n + 1) by omega]

end Selection

section Loops

variable {β : Type} [Add β] {soft : Nat → β}

theorem addAt_append (k : Nat) (l l' : List Nat) (d : Nat → β) :
    addAt soft k (l ++ l') d = addAt soft (k + l.length) l' (addAt soft k l d) := by
  induction l generalizing k d with
  | nil => rfl
  | cons i l ih =>
    rw [cons_append, addAt, ih, addAt, length_cons, show k + 1 + l.length = k + (l.length + 1) by omega]

theorem addSoft_eq (e n : Nat) (s : RxState β) : addSoft soft e n s = ⟨s.ind + min n (e - s.k), s.k + min n (e - s.k),
      addAt soft s.k (List.range' s.ind (min n (e - s.k))) s.d⟩ := by
  induction n generalizing s with
  | zero => simp [addSoft, addAt]
  | succ n ih =>
    unfold addSoft
    split
    · next hlt =>
      have hmin : min (n + 1) (e - s.k) = min n (e - (s.k + 1)) + 1 := by omega
      rw [ih, hmin, List.range'_succ, addAt]
      simp only [RxState.mk.injEq, and_true]
      omega
    · next hge =>
      have hmin : min (n + 1) (e - s.k) = 0 := by omega
      rw [hmin]
      rfl

end Loops

namespace RateMatching

variable (p : RateMatching)

theorem z_bounds : 0 < p.z ∧ p.z ≤ 384 := by
  have hall : ∀ z ∈ liftingSizes, 0 < z ∧ z ≤ 384 := by decide
  exact hall p.z p.z_mem

theorem n_bounds : 0 < p.n ∧ p.n ≤ 25344 := by
  have hz := p.z_bounds
  unfold RateParams.n
  split <;> omega

theorem ncb_le : p.ncb ≤ p.n := by
  unfold RateParams.ncb
  split
  · exact Nat.le_refl _
  · exact min_le_left _ _

theorem indexK0_lt : indexK0 p.bg p.rvidx * p.z < p.n := by
  have hz := p.z_bounds
  have hindex : ∀ bg, bg = 1 ∨ bg = 2 → ∀ rv < 4, indexK0 bg rv < if bg = 1 then 66 else 50 := by
    rintro bg (rfl | rfl) <;> decide
  have hlt := hindex p.bg p.bg_eq p.rvidx p.rvidx_lt
  unfold RateParams.n
  split at hlt
  · next hbg =>
    rw [if_pos hbg]
    exact mul_lt_mul_of_pos_right hlt hz.1
  · next hbg =>
    rw [if_neg hbg]
    exact mul_lt_mul_of_pos_right hlt hz.1

theorem k0_lt (h : 0 < p.ncb) : p.k0 < p.ncb := by
  have hdiv : indexK0 p.bg p.rvidx * p.ncb / p.n * p.n ≤ indexK0 p.bg p.rvidx * p.ncb := div_mul_le_self _ _
  have hindex := p.indexK0_lt
  unfold RateParams.k0
  generalize indexK0 p.bg p.rvidx * p.ncb / p.n = q at hdiv
  refine Nat.lt_of_mul_lt_mul_right (a := p.n) ?_
  calc q * p.z * p.n = q * p.n * p.z := mul_right_comm _ _ _
    _ ≤ indexK0 p.bg p.rvidx * p.ncb * p.z := mul_le_mul_right _ hdiv
    _ = indexK0 p.bg p.rvidx * p.z * p.ncb := mul_right_comm _ _ _
    _ < p.n * p.ncb := mul_lt_mul_of_pos_right hindex h
    _ = p.ncb * p.n := mul_comm _ _

theorem readBits_ok {β : Type} (d : Nat → β) {start n : Nat} (h : start + n ≤ p.ncb) :
    readBits d start n = .ok ((List.range' start n).map d) := by
  have hncb := p.ncb_le
  have hn := p.n_bounds.2
  exact if_pos (by unfold codedBits; omega)

/-- These places are selected for the last `m` bits, and both functions visit them in their loops. -/
structure Repeats (m j : Nat) (places : List Nat) : Prop where
  selects : BitSelection p.ncb p.k0 p.IsFiller m j places
  length : places.length = m
  sent : ∀ (β : Type) (d : Nat → β) (fuel : Nat) (out : List β), out.length + m = p.e → m < fuel →
    repeatBits p.toRateParams d fuel out = .ok (out ++ places.map d)
  received : ∀ (β : Type) [Add β] (soft d : Nat → β) (fuel ind k : Nat), k + m = p.e → m < fuel →
    (addRepetitions p.toRateParams soft fuel ⟨ind, k, d⟩).map RxState.d = .ok (addAt soft k places d)

theorem repeats_nil (j : Nat) : p.Repeats 0 j [] := by
  refine ⟨.done j, rfl, fun β d fuel out hout hfuel => ?_, fun β _ soft d fuel ind k hk hfuel => ?_⟩
  · obtain ⟨fuel, rfl⟩ := Nat.exists_eq_add_one_of_ne_zero (Nat.ne_zero_of_lt hfuel)
    rw [repeatBits, if_neg (by omega)]
    simp
  · obtain ⟨fuel, rfl⟩ := Nat.exists_eq_add_one_of_ne_zero (Nat.ne_zero_of_lt hfuel)
    rw [addRepetitions, if_neg (by simp only; omega)]
    rfl

def roundPlaces (m : Nat) : List Nat :=
  List.range' 0 (min p.foffset m) ++
    List.range' (p.foffset + p.f) (min (p.ncb - p.foffset - p.f) (m - min p.foffset m))

theorem length_roundPlaces (m : Nat) :
    (p.roundPlaces m).length = min p.foffset m + min (p.ncb - p.foffset - p.f) (m - min p.foffset m) := by
  simp [roundPlaces]

theorem mod_add_of_lt {x m : Nat} (h : x % m = 0) {a : Nat} (ha : a < m) : (x + a) % m = a := by
  rw [add_mod, h, Nat.zero_add, mod_mod, mod_eq_of_lt ha]

theorem behind_selects {e n j : Nat} {places : List Nat} (he : 0 < e + n)
    (hplace : 0 < p.f → (p.k0 + j) % p.ncb = p.foffset)
    (hplace' : 0 < n → (p.k0 + (j + p.f)) % p.ncb = p.foffset + p.f) (hn : p.foffset + p.f + n ≤ p.ncb)
    (h : BitSelection p.ncb p.k0 p.IsFiller e (j + p.f + n) places) :
    BitSelection p.ncb p.k0 p.IsFiller (e + n) j (List.range' (p.foffset + p.f) n ++ places) := by
  refine .skips (n := p.f) hplace p.filler_le (fun i hle hlt => ⟨hle, hlt⟩) ?_ he
  refine .run hplace' hn (fun i hle hlt hfiller => ?_) h
  exact absurd hfiller.2 (not_lt.mpr hle)

theorem round_selects {m j : Nat} {places : List Nat} (hplace : 0 < m → (p.k0 + j) % p.ncb = 0)
    (h : BitSelection p.ncb p.k0 p.IsFiller (m - (p.roundPlaces m).length) (j + p.ncb) places) :
    BitSelection p.ncb p.k0 p.IsFiller m j (p.roundPlaces m ++ places) := by
  have hfiller := p.filler_le
  rw [length_roundPlaces] at h
  unfold roundPlaces
  have hbefore : ∀ n ≤ p.foffset, ∀ i, 0 ≤ i → i < 0 + n → ¬ p.IsFiller i := by
    intro n hn i _ hlt hi
    exact absurd hi.1 (by omega)
  rcases lt_or_ge p.foffset m with hmore | hless
  · have hj := hplace (by omega)
    rw [min_eq_left (Nat.le_of_lt hmore)] at h ⊢
    generalize hn : min (p.ncb - p.foffset - p.f) (m - p.foffset) = n at h ⊢
    have hm : m = (m - (p.foffset + n)) + n + p.foffset := by omega
    have hlast : BitSelection p.ncb p.k0 p.IsFiller (m - (p.foffset + n)) (j + p.foffset + p.f + n) places := by
      rcases Nat.eq_zero_or_pos (m - (p.foffset + n)) with hzero | hpos
      · rw [hzero] at h ⊢
        cases h
        exact .done _
      · rwa [show j + p.foffset + p.f + n = j + p.ncb by omega]
    rw [append_assoc, hm]
    refine .run (fun _ => hj) (by omega) (hbefore _ (Nat.le_refl _)) ?_
    refine p.behind_selects (by omega) (fun _ => ?_) (fun _ => ?_) (by omega) hlast
    · rw [← add_assoc]
      exact mod_add_of_lt hj (by omega)
    · rw [show p.k0 + (j + p.foffset + p.f) = p.k0 + j + (p.foffset + p.f) by omega]
      exact mod_add_of_lt hj (by omega)
  · rw [Nat.min_eq_right hless, Nat.sub_self, Nat.min_zero, Nat.add_zero, Nat.sub_self] at h
    rw [Nat.min_eq_right hless, Nat.sub_self, Nat.min_zero]
    cases h
    simp only [List.range'_zero, append_nil]
    have hrun := BitSelection.run (e := 0) (n := m) (l := []) hplace (by omega) (hbefore m hless) (.done _)
    rwa [Nat.zero_add, append_nil] at hrun

theorem repeatBits_round {β : Type} (d : Nat → β) (fuel : Nat) {m : Nat} {out : List β} (hout : out.length + m = p.e)
    (hm : 0 < m) {places : List Nat} (hlength : (p.roundPlaces m).length + places.length = m)
    (h : repeatBits p.toRateParams d fuel (out ++ (p.roundPlaces m).map d) =
      .ok (out ++ (p.roundPlaces m).map d ++ places.map d)) :
    repeatBits p.toRateParams d (fuel + 1) out = .ok (out ++ (p.roundPlaces m ++ places).map d) := by
  have hfiller := p.filler_le
  rw [length_roundPlaces] at hlength
  have hrest : p.e - out.length = m := by omega
  have hbefore : (if 0 < p.foffset then min p.foffset m else 0) = min p.foffset m := by
    split <;> omega
  rw [repeatBits, if_pos (by omega), hrest, hbefore, p.readBits_ok d (by omega)]
  simp only [bind, Except.bind]
  have hlen : (out ++ (List.range' 0 (min p.foffset m)).map d).length = out.length + min p.foffset m := by simp
  rw [hlen]
  split
  · next hend =>
    -- the loop is left before the second piece
    have hall : min p.foffset m = m := by omega
    have hnil : places = [] := eq_nil_of_length_eq_zero (by omega)
    simp [roundPlaces, hall, hnil, pure, Except.pure]
  · next hgoes =>
    have hbehind : (if 0 < p.ncb - p.foffset - p.f then
        min (p.ncb - p.foffset - p.f) (p.e - (out.length + min p.foffset m)) else 0) =
        min (p.ncb - p.foffset - p.f) (m - min p.foffset m) := by
      split <;> omega
    rw [hbehind, p.readBits_ok d (by omega)]
    simp only [roundPlaces, map_append, ← append_assoc] at h ⊢
    exact h

theorem addRepetitions_round {β : Type} [Add β] (soft d : Nat → β) (fuel ind : Nat) {m k : Nat} (hk : k + m = p.e)
    (hm : 0 < m) :
    ∃ ind', addRepetitions p.toRateParams soft (fuel + 1) ⟨ind, k, d⟩ = addRepetitions p.toRateParams soft fuel
      ⟨ind', k + (p.roundPlaces m).length, addAt soft k (p.roundPlaces m) d⟩ := by
  have hlt : k < p.e := by omega
  have hrest : p.e - k = m := by omega
  have hrest' : p.e - (k + min p.foffset m) = m - min p.foffset m := by omega
  rw [addRepetitions, if_pos hlt]
  simp only [addSoft_eq, hrest, hrest', ← Nat.sub_sub, roundPlaces, addAt_append, length_append,
    length_range', add_assoc]
  exact ⟨_, rfl⟩

theorem length_roundPlaces_le (m : Nat) : (p.roundPlaces m).length ≤ m := by
  rw [length_roundPlaces]
  omega

theorem length_roundPlaces_pos (hf : p.f < p.ncb) {m : Nat} (hm : 0 < m) : 0 < (p.roundPlaces m).length := by
  have hfiller := p.filler_le
  rw [length_roundPlaces]
  omega

theorem repeats (hf : p.f < p.ncb) (m : Nat) :
    ∀ j, (0 < m → (p.k0 + j) % p.ncb = 0) → ∃ places, p.Repeats m j places := by
  induction m using Nat.strongRecOn with
  | ind m ih =>
    intro j hplace
    rcases Nat.eq_zero_or_pos m with rfl | hm
    · exact ⟨[], p.repeats_nil j⟩
    · have hle := p.length_roundPlaces_le m
      have hpos := p.length_roundPlaces_pos hf hm
      obtain ⟨places, hplaces⟩ := ih (m - (p.roundPlaces m).length) (by omega) (j + p.ncb) fun _ => by
        rw [← add_assoc, add_mod_right]
        exact hplace hm
      have hlength := hplaces.length
      refine ⟨p.roundPlaces m ++ places, p.round_selects hplace hplaces.selects, ?_, ?_, ?_⟩
      · rw [length_append, hlength]
        omega
      · intro β d fuel out hout hfuel
        obtain _ | fuel := fuel
        · cases hfuel
        refine p.repeatBits_round d fuel hout hm (by omega) (hplaces.sent β d fuel _ ?_ (by omega))
        rw [length_append, length_map]
        omega
      · intro β _ soft d fuel ind k hk hfuel
        obtain _ | fuel := fuel
        · cases hfuel
        obtain ⟨ind', hround⟩ := p.addRepetitions_round soft d fuel ind hk hm
        rw [hround, addAt_append]
        exact hplaces.received β soft _ fuel ind' _ (by omega) (by omega)

structure Begins (first : List Nat) (m : Nat) : Prop where
  length : first.length + m = p.e
  selects : ∃ j, (0 < m → (p.k0 + j) % p.ncb = 0) ∧ ∀ places, BitSelection p.ncb p.k0 p.IsFiller m j places →
    BitSelection p.ncb p.k0 p.IsFiller p.e 0 (first ++ places)
  sent : ∀ (β : Type) (d : Nat → β), nrRateMatchingLdpc p.toRateParams d =
    (repeatBits p.toRateParams d (p.e + 1) (first.map d)).map some
  received : ∀ (β : Type) [Zero β] [Add β] (clear : Bool) (soft d : Nat → β), ∃ ind,
    nrRateMatchingLdpcRx p.toRateParams clear soft d =
      ((addRepetitions p.toRateParams soft (p.e + 1) ⟨ind, first.length, addAt soft 0 first
        (if clear then fun i => if i < p.ncb then 0 else d i else d)⟩).map RxState.d).map some

theorem valid : ¬ (p.c = 0 ∨ p.e < p.foffset ∨ p.ncb < p.foffset) := by
  have hc := p.c_pos
  have hfiller := p.filler_le
  have hoffset := p.foffset_le
  omega

theorem received_eq {β : Type} [Zero β] [Add β] (clear : Bool) (soft d : Nat → β) {s : RxState β} {a : Nat}
    (hs : addSoft soft p.e (p.foffset - p.k0) ⟨p.k0, 0, if clear then fun i => if i < p.ncb then 0 else d i else d⟩ = s)
    (ha : (if p.foffset ≤ s.ind ∧ s.ind < p.foffset + p.f then p.foffset + p.f else s.ind) = a) :
    nrRateMatchingLdpcRx p.toRateParams clear soft d = ((addRepetitions p.toRateParams soft (p.e + 1)
        (addSoft soft p.e (p.ncb - a) ⟨a, s.k, s.d⟩)).map RxState.d).map some := by
  have hskip : (if p.foffset ≤ s.ind ∧ s.ind < p.foffset + p.f then { s with ind := p.foffset + p.f } else s) =
      ⟨a, s.k, s.d⟩ := by
    rw [← ha]
    split <;> rfl
  rw [nrRateMatchingLdpcRx, if_neg p.valid]
  simp only [hs, hskip]
  cases addRepetitions p.toRateParams soft (p.e + 1) (addSoft soft p.e (p.ncb - a) ⟨a, s.k, s.d⟩) <;> rfl

theorem begins_before (hk0 : p.k0 < p.foffset) (hsum : p.e + p.f < 2 ^ 32) : ∃ first m, p.Begins first m := by
  have hfiller := p.filler_le
  have hoffset := p.foffset_le
  have hmod : p.k0 % p.ncb = p.k0 := mod_eq_of_lt (by omega)
  generalize hn : min (p.ncb - p.foffset - p.f) (p.e - (p.foffset - p.k0)) = n
  refine ⟨List.range' p.k0 (p.foffset - p.k0) ++ List.range' (p.foffset + p.f) n,
    p.e - (p.foffset - p.k0) - n, ?_, ⟨p.ncb - p.k0, ?_, ?_⟩, ?_, ?_⟩
  · simp only [length_append, length_range']
    omega
  · intro _
    rw [Nat.add_sub_cancel' (by omega), Nat.mod_self]
  · intro places h
    generalize hm : p.e - (p.foffset - p.k0) - n = m at h
    have he : p.e = m + n + (p.foffset - p.k0) := by omega
    have hlast : BitSelection p.ncb p.k0 p.IsFiller m (0 + (p.foffset - p.k0) + p.f + n) places := by
      rcases Nat.eq_zero_or_pos m with hzero | hpos
      · subst hzero
        cases h
        exact .done _
      · rwa [show 0 + (p.foffset - p.k0) + p.f + n = p.ncb - p.k0 by omega]
    rw [append_assoc, he]
    refine .run (fun _ => hmod) (by omega) (fun i hle hlt hi => absurd hi.1 (by omega)) ?_
    rcases Nat.eq_zero_or_pos (m + n) with hzero | hpos
    · obtain ⟨rfl, rfl⟩ : m = 0 ∧ n = 0 := by omega
      cases h
      exact .done _
    · refine p.behind_selects hpos (fun _ => ?_) (fun _ => ?_) (by omega) hlast
      · rw [show p.k0 + (0 + (p.foffset - p.k0)) = p.foffset by omega]
        exact mod_eq_of_lt (by omega)
      · rw [show p.k0 + (0 + (p.foffset - p.k0) + p.f) = p.foffset + p.f by omega]
        exact mod_eq_of_lt (by omega)
  · intro β d
    have hsize : (if (p.e + p.f) % 2 ^ 32 ≤ p.ncb - p.k0 then p.e - p.foffset + p.k0
        else p.ncb - p.foffset - p.f) = n := by
      rw [mod_eq_of_lt hsum]
      split <;> omega
    have hfirst : firstBits p.toRateParams d p.k0 =
        .ok ((List.range' p.k0 (p.foffset - p.k0) ++ List.range' (p.foffset + p.f) n).map d) := by
      rw [firstBits, if_pos hk0, hsize, p.readBits_ok d (by omega), p.readBits_ok d (by omega), map_append]
      rfl
    rw [nrRateMatchingLdpc, if_neg p.valid]
    simp only [if_neg (show ¬ (p.foffset ≤ p.k0 ∧ p.k0 < p.f + p.foffset) by omega), hfirst]
    rfl
  · intro β _ _ clear soft d
    have hn₁ : min (p.foffset - p.k0) (p.e - 0) = p.foffset - p.k0 := by omega
    have hrx := p.received_eq (a := p.foffset + p.f) clear soft d
      (by rw [addSoft_eq, hn₁, Nat.zero_add, Nat.add_sub_cancel' (Nat.le_of_lt hk0)]) (by simp only; split <;> omega)
    rw [addSoft_eq, ← Nat.sub_sub, hn] at hrx
    refine ⟨p.foffset + p.f + n, hrx.trans ?_⟩
    rw [addAt_append, length_append, length_range', length_range', Nat.zero_add]

theorem begins_behind (hk0 : p.foffset ≤ p.k0) (hf : p.f < p.ncb) : ∃ first m, p.Begins first m := by
  have hfiller := p.filler_le
  have hlt := p.k0_lt (by omega)
  have hmod : p.k0 % p.ncb = p.k0 := mod_eq_of_lt hlt
  generalize ha : max p.k0 (p.foffset + p.f) = a
  generalize hn : min (p.ncb - a) p.e = n
  refine ⟨List.range' a n, p.e - n, ?_, ⟨p.ncb - p.k0, ?_, ?_⟩, ?_, ?_⟩
  · simp only [length_range']
    omega
  · intro _
    rw [Nat.add_sub_cancel' (by omega), Nat.mod_self]
  · intro places h
    generalize hm : p.e - n = m at h
    have he : p.e = m + n := by omega
    have hlast : BitSelection p.ncb p.k0 p.IsFiller m (0 + (a - p.k0) + n) places := by
      rcases Nat.eq_zero_or_pos m with hzero | hpos
      · subst hzero
        cases h
        exact .done _
      · rwa [show 0 + (a - p.k0) + n = p.ncb - p.k0 by omega]
    rw [he]
    rcases Nat.eq_zero_or_pos (m + n) with hzero | hpos
    · obtain ⟨rfl, rfl⟩ : m = 0 ∧ n = 0 := by omega
      cases h
      exact .done _
    · refine .skips (n := a - p.k0) (fun _ => hmod) (by omega) (fun i hle hlt => ⟨by omega, by omega⟩) ?_ hpos
      refine .run (fun _ => ?_) (by omega) (fun i hle hlt hi => absurd hi.2 (by omega)) hlast
      rw [show p.k0 + (0 + (a - p.k0)) = a by omega]
      exact mod_eq_of_lt (by omega)
  · intro β d
    have hind : (if p.foffset ≤ p.k0 ∧ p.k0 < p.f + p.foffset then p.f + p.foffset else p.k0) = a := by
      split <;> omega
    have hsize : (if p.e ≤ p.ncb - a then p.e else p.ncb - a) = n := by
      split <;> omega
    have hfirst : firstBits p.toRateParams d a = .ok ((List.range' a n).map d) := by
      rw [firstBits, if_neg (by omega), hsize, p.readBits_ok d (by omega)]
    rw [nrRateMatchingLdpc, if_neg p.valid]
    simp only [hind, hfirst]
    rfl
  · intro β _ _ clear soft d
    have hrx := p.received_eq (a := a) clear soft d (by rw [Nat.sub_eq_zero_of_le hk0, addSoft])
      (by simp only; split <;> omega)
    rw [addSoft_eq, Nat.sub_zero, hn, Nat.zero_add] at hrx
    refine ⟨a + n, hrx.trans ?_⟩
    rw [length_range']

theorem begins_none (he : p.e = 0) : p.Begins [] 0 := by
  have hfiller := p.filler_le
  have hoffset : p.foffset = 0 := le_zero.mp (he ▸ p.foffset_le)
  have hk0 : p.k0 ≤ p.ncb := by
    rcases Nat.eq_zero_or_pos p.ncb with hzero | hpos
    · simp [RateParams.k0, hzero]
    · exact Nat.le_of_lt (p.k0_lt hpos)
  refine ⟨he.symm, ⟨0, fun h => absurd h (Nat.lt_irrefl 0), fun places h => ?_⟩, ?_, ?_⟩
  · rwa [he]
  · intro β d
    have hfirst : ∀ ind ≤ p.ncb, firstBits p.toRateParams d ind = .ok [] := by
      intro ind hind
      rw [firstBits, if_neg (by omega), if_pos (by omega), he, p.readBits_ok d (by omega)]
      rfl
    rw [nrRateMatchingLdpc, if_neg p.valid]
    simp only [hfirst _ (show (if p.foffset ≤ p.k0 ∧ p.k0 < p.f + p.foffset then p.f + p.foffset else p.k0) ≤ p.ncb
      by split <;> omega)]
    rfl
  · intro β _ _ clear soft d
    have hrx := p.received_eq clear soft d (by rw [hoffset, Nat.zero_sub, addSoft]) rfl
    rw [addSoft_eq, he, Nat.zero_sub, Nat.min_zero] at hrx
    exact ⟨_, by rw [he]; exact hrx⟩

/-- The sender outputs the bits at the places that are selected. The receiver adds each soft bit at the place
of its bit. -/
structure Agrees (places : List Nat) : Prop where
  selects : BitSelection p.ncb p.k0 p.IsFiller p.e 0 places
  sent : ∀ (β : Type) (d : Nat → β), nrRateMatchingLdpc p.toRateParams d = .ok (some (places.map d))
  received : ∀ (β : Type) [Zero β] [Add β] (clear : Bool) (soft d : Nat → β),
    nrRateMatchingLdpcRx p.toRateParams clear soft d =
      .ok (some (addAt soft 0 places (if clear then fun i => if i < p.ncb then 0 else d i else d)))

theorem Begins.agrees {first : List Nat} {m : Nat} (hfirst : p.Begins first m)
    (hplaces : ∀ j, (0 < m → (p.k0 + j) % p.ncb = 0) → ∃ places, p.Repeats m j places) : ∃ places, p.Agrees places := by
  obtain ⟨j, hplace, hselects⟩ := hfirst.selects
  obtain ⟨places, hrepeats⟩ := hplaces j hplace
  have hlength := hfirst.length
  refine ⟨first ++ places, hselects places hrepeats.selects, ?_, ?_⟩
  · intro β d
    rw [hfirst.sent, hrepeats.sent β d _ _ (by rw [length_map, hlength]) (by omega), map_append]
    rfl
  · intro β _ _ clear soft d
    obtain ⟨ind, hrx⟩ := hfirst.received β clear soft d
    rw [hrx, hrepeats.received β soft _ _ ind _ hlength (by omega), addAt_append, Nat.zero_add]
    rfl

theorem repeatBits_endless {β : Type} (d : Nat → β) (hoffset : p.foffset = 0) (hf : p.f = p.ncb) (fuel : Nat)
    (out : List β) (hout : out.length < p.e) : repeatBits p.toRateParams d fuel out = .error .endless := by
  induction fuel with
  | zero => rfl
  | succ fuel ih =>
    have hread : ∀ start ≤ p.ncb, readBits d start 0 = .ok [] := fun start h => p.readBits_ok d h
    rw [repeatBits, if_pos hout]
    simp only [hoffset, hf, Nat.lt_irrefl, if_false, Nat.sub_zero, Nat.sub_self, Nat.zero_add, false_and,
      hread 0 (Nat.zero_le _), hread p.ncb (Nat.le_refl _), bind, Except.bind, append_nil]
    exact ih

theorem filler_only_endless {β : Type} (d : Nat → β) (he : 0 < p.e) (hf : p.f = p.ncb) :
    nrRateMatchingLdpc p.toRateParams d = .error .endless := by
  have hfiller := p.filler_le
  have hoffset : p.foffset = 0 := by omega
  have hind : (if p.foffset ≤ p.k0 ∧ p.k0 < p.f + p.foffset then p.f + p.foffset else p.k0) = p.ncb := by
    rcases Nat.eq_zero_or_pos p.ncb with hzero | hpos
    · have hk0 : p.k0 = 0 := by simp [RateParams.k0, hzero]
      split <;> omega
    · have hk0 := p.k0_lt hpos
      split <;> omega
  have hfirst : firstBits p.toRateParams d p.ncb = .ok [] := by
    rw [firstBits, if_neg (by omega), if_neg (by omega), Nat.sub_self]
    exact p.readBits_ok d (Nat.le_refl _)
  rw [nrRateMatchingLdpc, if_neg p.valid]
  simp only [hind, hfirst, bind, Except.bind, p.repeatBits_endless d hoffset hf (p.e + 1) [] he]

theorem sum_wraps_outOfBounds {β : Type} (d : Nat → β) (hk0 : p.k0 < p.foffset) (hsum : 2 ^ 32 ≤ p.e + p.f) :
    nrRateMatchingLdpc p.toRateParams d = .error .outOfBounds := by
  have hfiller := p.filler_le
  have he := p.e_lt
  have hn := p.n_bounds.2
  have hncb := p.ncb_le
  have hoffset := p.foffset_le
  have hmod : (p.e + p.f) % 2 ^ 32 = p.e + p.f - 2 ^ 32 := by
    rw [mod_eq_sub_mod hsum, mod_eq_of_lt (by omega)]
  have hfirst : firstBits p.toRateParams d p.k0 = .error .outOfBounds := by
    rw [firstBits, if_pos hk0, p.readBits_ok d (by omega), hmod, if_pos (by omega)]
    simp only [bind, Except.bind, readBits]
    rw [if_neg (by unfold codedBits; omega)]
  rw [nrRateMatchingLdpc, if_neg p.valid]
  simp only [if_neg (show ¬ (p.foffset ≤ p.k0 ∧ p.k0 < p.f + p.foffset) by omega), hfirst, bind, Except.bind]

end RateMatching

/-- Sender and receiver agree on the places of the specification, unless the circular buffer has only filler
bits, or the 32-bit sum of output length and filler bits wraps. -/
theorem rate_matching_agrees_iff (p : RateMatching) : (∃ places, p.Agrees places) ↔
      (p.e = 0 ∨ p.f < p.ncb) ∧ ¬ (p.k0 < p.foffset ∧ 2 ^ 32 ≤ p.e + p.f) := by
  have hfiller := p.filler_le
  constructor
  · rintro ⟨places, hagrees⟩
    have hsent := hagrees.sent Unit fun _ => ()
    constructor
    · by_contra hnot
      rw [p.filler_only_endless _ (by omega) (by omega)] at hsent
      cases hsent
    · rintro ⟨hk0, hsum⟩
      rw [p.sum_wraps_outOfBounds _ hk0 hsum] at hsent
      cases hsent
  · rintro ⟨hbits, hsum⟩
    rcases Nat.eq_zero_or_pos p.e with he | he
    · exact (p.begins_none he).agrees p fun j _ => ⟨[], p.repeats_nil j⟩
    · have hf : p.f < p.ncb := by omega
      obtain ⟨first, m, hfirst⟩ : ∃ first m, p.Begins first m := by
        rcases lt_or_ge p.k0 p.foffset with hk0 | hk0
        · exact p.begins_before hk0 (by omega)
        · exact p.begins_behind hk0 hf
      exact hfirst.agrees p (p.repeats hf m)

/-- A buffer of 100 bits, all of them filler bits: neither loop ends. -/
theorem filler_only_never_ends :
    (nrRateMatchingLdpc ⟨0, 2, 2, 1, 100, 0, 0, 1⟩ fun _ => false).map (fun _ => ()) = .error .endless ∧
      (nrRateMatchingLdpcRx ⟨0, 2, 2, 1, 100, 0, 0, 1⟩ true (fun _ => (0 : Int)) fun _ => 0).map (fun _ => ()) =
        .error .endless := by
  decide

end OaiNr.Phy
