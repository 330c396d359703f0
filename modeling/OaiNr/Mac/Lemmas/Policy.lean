import Mathlib.Data.List.Perm.Basic
import OaiNr.Lib.Fallible
import OaiNr.Lib.Grouped
import OaiNr.Mac.Policy

/-!
# What the shared loops keep
-/

namespace OaiNr.Mac

open List

variable {σ κ : Type} {R : κ → κ → Prop} {cands out : List κ}
  {s : σ} {r : List κ × σ} {skipped due : κ → Bool} {phases : PfPhases σ κ} {pfOrder : List κ → List κ}
  {attempt : Attempt σ κ}

theorem forall₂_origin (h : List.Forall₂ R cands out) : ∀ o ∈ out, ∃ c ∈ cands, R c o := by
  induction h with
  | nil => simp
  | cons hR _ ih =>
    rintro o (_ | ⟨_, ho⟩)
    · exact ⟨_, mem_cons_self, hR⟩
    · obtain ⟨c, hc, hco⟩ := ih o ho
      exact ⟨c, mem_cons_of_mem _ hc, hco⟩

section Run

variable {granted : κ → Grant → κ} {maxNumUe : Nat} {I : PfState σ → List κ → Prop}

def PfState.grant (s : PfState σ) (maxNumUe : Nat) (slot : σ) : PfState σ :=
  ⟨slot, s.nScheduled + 1, maxNumUe ≤ s.nScheduled + 1⟩

theorem pfPhase_run (hstep : ∀ s pre c post g slot, s.full = false → due c → attempt s.slot c = .ok (some (g, slot)) →
      I s (pre ++ c :: post) → I (s.grant maxNumUe slot) (pre ++ granted c g :: post))
    {s : PfState σ} {r : List κ × PfState σ} (hok : pfPhase granted maxNumUe due attempt s cands = .ok r)
    (pre : List κ) (h : I s (pre ++ cands)) : I r.2 (pre ++ r.1) := by
  induction cands generalizing s r pre with
  | nil =>
    cases hok
    exact h
  | cons c cands ih =>
    -- the candidate stays as it is, and the loop goes on
    have hleft {r : List κ × PfState σ} (hok : (pfPhase granted maxNumUe due attempt s cands >>= fun r =>
        .ok (c :: r.1, r.2)) = .ok r) : I r.2 (pre ++ r.1) := by
      obtain ⟨r', hrest, hok⟩ := bind_eq_ok.mp hok
      cases hok
      have hnext := ih hrest (pre ++ [c]) (by simpa using h)
      simpa using hnext
    unfold pfPhase at hok
    split at hok
    · exact hleft hok
    · next hdue =>
      obtain ⟨tried, htried, hok⟩ := bind_eq_ok.mp hok
      cases tried with
      | none => exact hleft hok
      | some grant =>
        obtain ⟨g, slot⟩ := grant
        obtain ⟨r', hrest, hok⟩ := bind_eq_ok.mp hok
        cases hok
        simp only [Bool.or_eq_true, Bool.not_eq_eq_eq_not, Bool.not_true, not_or, Bool.not_eq_true,
          Bool.not_eq_false] at hdue
        have hgranted := hstep s pre c cands g slot hdue.1 hdue.2 htried h
        have hnext := ih hrest (pre ++ [granted c g]) (by simpa [PfState.grant] using hgranted)
        simpa using hnext

theorem pfPhase_idle (s : PfState σ)
    (h : ∀ c ∈ cands, due c = false) : pfPhase granted maxNumUe due attempt s cands = .ok (cands, s) := by
  induction cands with
  | nil => rfl
  | cons c cands ih =>
    obtain ⟨hc, hcands⟩ := forall_mem_cons.mp h
    simp only [pfPhase, hc, Bool.not_false, Bool.or_true, ↓reduceIte, ih hcands, ok_bind, pure_eq_ok]

variable (granted) in
theorem pfPhase_all {cand : Nat → κ} {g : Nat → Grant} {S : Nat → σ} (hdue : ∀ j, due (cand j) = true)
    (hattempt : ∀ j < max 1 maxNumUe, attempt (S j) (cand j) = .ok (some (g j, S (j + 1))))
    {m j : Nat} (hm : j + m = max 1 maxNumUe) (full : Bool) (hfull : full = true → m = 0) :
    ∃ full', pfPhase granted maxNumUe due attempt ⟨S j, j, full⟩ ((List.range' j m).map cand) =
      .ok ((List.range' j m).map fun j => granted (cand j) (g j), ⟨S (j + m), j + m, full'⟩) := by
  induction m generalizing j full with
  | zero => exact ⟨full, rfl⟩
  | succ m ih =>
    have hopen : full = false := by
      cases full with
      | false => rfl
      | true => exact absurd (hfull rfl) (Nat.succ_ne_zero m)
    obtain ⟨full', hrest⟩ := ih (j := j + 1) (by omega) (decide (maxNumUe ≤ j + 1)) (by simp; omega)
    refine ⟨full', ?_⟩
    rw [List.range'_succ, map_cons, map_cons]
    simp only [pfPhase, hopen, hdue, Bool.not_true, Bool.or_self, Bool.false_eq_true, ↓reduceIte,
      hattempt j (by omega), ok_bind, hrest, pure_eq_ok]
    rw [show j + 1 + m = j + (m + 1) by omega]

theorem proportionalFair_all {cand : Nat → κ} {g : Nat → Grant}
    {S : Nat → σ} (hskipped : ∀ j, skipped (cand j) = false) (hdue : ∀ j, phases.due₁ (cand j) = true)
    (hdone : ∀ j, phases.due₂ (granted (cand j) (g j)) = false ∧ phases.due₃ (granted (cand j) (g j)) = false)
    (hattempt : ∀ j < max 1 maxNumUe, phases.attempt₁ (S j) (cand j) = .ok (some (g j, S (j + 1)))) :
    proportionalFair granted skipped id phases maxNumUe (S 0) ((List.range (max 1 maxNumUe)).map cand) =
      .ok ((List.range (max 1 maxNumUe)).map fun j => granted (cand j) (g j), S (max 1 maxNumUe)) := by
  have hnone : ∀ c ∈ (List.range (max 1 maxNumUe)).map cand, skipped c = false :=
    forall_mem_map.mpr fun j _ => hskipped j
  have hfilter : ((List.range (max 1 maxNumUe)).map cand).filter skipped = [] :=
    filter_eq_nil_iff.mpr fun c hc => by simp [hnone c hc]
  have horder : (((List.range (max 1 maxNumUe)).map cand).filter fun c => !skipped c) =
      (List.range (max 1 maxNumUe)).map cand :=
    filter_eq_self.mpr fun c hc => by simp [hnone c hc]
  obtain ⟨full, hfirst⟩ := pfPhase_all granted hdue hattempt (Nat.zero_add _) false
    (fun h => absurd h Bool.false_ne_true)
  rw [← range_eq_range', Nat.zero_add] at hfirst
  have hidle : ∀ due attempt (s : PfState σ), (∀ j, due (granted (cand j) (g j)) = false) →
      pfPhase granted maxNumUe due attempt s ((List.range (max 1 maxNumUe)).map fun j =>
        granted (cand j) (g j)) = .ok ((List.range (max 1 maxNumUe)).map fun j => granted (cand j) (g j), s) :=
    fun due attempt s h => pfPhase_idle s (forall_mem_map.mpr fun j _ => h j)
  have hsecond := fun s => hidle phases.due₂ phases.attempt₂ s fun j => (hdone j).1
  have hthird := fun s => hidle phases.due₃ phases.attempt₃ s fun j => (hdone j).2
  simp only [proportionalFair, horder, hfilter, id_eq, hfirst, ok_bind, hsecond, hthird, pure_eq_ok, append_nil]

theorem proportionalFair_run (hstep : ∀ s pre c post g slot, s.full = false → phases.Grants s.slot c g slot →
      I s (pre ++ c :: post) → I (s.grant maxNumUe slot) (pre ++ granted c g :: post))
    (hok : proportionalFair granted skipped pfOrder phases maxNumUe s cands = .ok r)
    (h : I ⟨s, 0, false⟩ (pfOrder (cands.filter fun c => !skipped c))) :
    ∃ order s', r = (order ++ cands.filter skipped, PfState.slot s') ∧ I s' order := by
  obtain ⟨r₁, h₁, hok⟩ := bind_eq_ok.mp hok
  obtain ⟨r₂, h₂, hok⟩ := bind_eq_ok.mp hok
  obtain ⟨r₃, h₃, hok⟩ := bind_eq_ok.mp hok
  cases hok
  have hrun₁ := pfPhase_run (fun s pre c post g slot hf hd ha =>
    hstep s pre c post g slot hf (.inl ⟨hd, ha⟩)) h₁ [] h
  have hrun₂ := pfPhase_run (fun s pre c post g slot hf hd ha =>
    hstep s pre c post g slot hf (.inr (.inl ⟨hd, ha⟩))) h₂ [] hrun₁
  have hrun₃ := pfPhase_run (fun s pre c post g slot hf hd ha =>
    hstep s pre c post g slot hf (.inr (.inr ⟨hd, ha⟩))) h₃ [] hrun₂
  exact ⟨r₃.1, r₃.2, rfl, hrun₃⟩

theorem proportionalFair_count {scheduled : κ → Bool} (horder : ∀ cands, (pfOrder cands).Perm cands)
    (hfresh : ∀ c ∈ cands, scheduled c = false)
    (hok : proportionalFair granted skipped pfOrder phases maxNumUe s cands = .ok r) :
    r.1.countP scheduled ≤ max 1 maxNumUe := by
  have hnone : ∀ {l : List κ}, (∀ c ∈ l, c ∈ cands) → l.countP scheduled = 0 := fun hl =>
    countP_eq_zero.mpr fun c hc => by simp [hfresh c (hl c hc)]
  obtain ⟨order, s', rfl, hle, hmax, _⟩ := proportionalFair_run
    (I := fun s l => l.countP scheduled ≤ s.nScheduled ∧ s.nScheduled ≤ max 1 maxNumUe ∧
      (s.full = false → s.nScheduled = 0 ∨ s.nScheduled < maxNumUe)) (fun s pre c post g slot hfull _ h => by
      obtain ⟨hle, _, hlimit⟩ := h
      have hlimit := hlimit hfull
      refine ⟨?_, ?_, ?_⟩
      · simp only [countP_append, countP_cons, PfState.grant] at hle ⊢
        split <;> omega
      · simp only [PfState.grant]
        omega
      · simp only [PfState.grant, decide_eq_false_iff_not]
        omega) hok
    ⟨by rw [hnone fun c hc => (mem_filter.mp ((horder _).mem_iff.mp hc)).1], Nat.zero_le _, fun _ => .inl rfl⟩
  rw [countP_append, hnone fun c hc => (mem_filter.mp hc).1]
  omega

end Run

section Groups

variable {beamOf : κ → Int} {rbAlloc : σ → List κ → Except Fault (List κ × σ)} {scheduled : κ → Bool}

/-- With a limit for each beam, the loop over the beams schedules no more than that for each beam there
is. A group without a beam is left alone. -/
theorem allocPerBeam_count {limit : Nat}
    (hcount : ∀ s c cands r, rbAlloc s (c :: cands) = .ok r → (∀ d ∈ c :: cands, scheduled d = false) →
      r.1.countP scheduled ≤ if beamOf c < 0 then 0 else limit) {fuel : Nat} {lo hi : Int}
    (hsorted : cands.Pairwise fun a c => beamOf a ≤ beamOf c) (hfresh : ∀ c ∈ cands, scheduled c = false)
    (hbounds : ∀ c ∈ cands, lo ≤ beamOf c ∧ beamOf c < hi) (hok : allocPerBeam beamOf rbAlloc fuel s cands = .ok r) :
    r.1.countP scheduled ≤ (hi - max lo 0).toNat * limit := by
  induction fuel generalizing s cands r lo with
  | zero => cases hok
  | succ fuel ih =>
    cases cands with
    | nil =>
      cases hok
      exact Nat.zero_le _
    | cons c cands =>
      obtain ⟨⟨group, s₁⟩, hgroup, hok⟩ := bind_eq_ok.mp hok
      obtain ⟨⟨rest, s₂⟩, hrest, hok⟩ := bind_eq_ok.mp hok
      cases hok
      have hgroups : cands.dropWhile (fun d => beamOf d == beamOf c) = cands.filter fun d => !(beamOf d == beamOf c) :=
        Grouped.dropWhile_eq_filter (Grouped.group_tail (v := beamOf c) (by simp) hsorted (by simp))
      obtain ⟨hfirst, hsorted⟩ := pairwise_cons.mp hsorted
      have hdropped : ∀ d ∈ cands.dropWhile (fun d => beamOf d == beamOf c), d ∈ cands :=
        fun d hd => (dropWhile_sublist _).subset hd
      have hlater : ∀ d ∈ cands.dropWhile (fun d => beamOf d == beamOf c), beamOf c + 1 ≤ beamOf d := by
        intro d hd
        have hge := hfirst d (hdropped d hd)
        rw [hgroups] at hd
        have hne : beamOf d ≠ beamOf c := by simpa using (mem_filter.mp hd).2
        omega
      have hcountGroup := hcount _ _ _ _ hgroup fun d hd => hfresh d (by
        rcases mem_cons.mp hd with rfl | hd
        · exact mem_cons_self
        · exact mem_cons_of_mem _ ((takeWhile_sublist _).subset hd))
      have hcountRest := ih (hsorted.sublist (dropWhile_sublist _))
        (fun d hd => hfresh d (mem_cons_of_mem _ (hdropped d hd)))
        (fun d hd => ⟨hlater d hd, (hbounds d (mem_cons_of_mem _ (hdropped d hd))).2⟩) hrest
      have hc := hbounds c mem_cons_self
      rw [countP_append]
      split at hcountGroup
      · next hneg =>
        have hzero : group.countP scheduled = 0 := Nat.le_zero.mp hcountGroup
        rw [show max (beamOf c + 1) 0 = max lo 0 by omega] at hcountRest
        rw [hzero, Nat.zero_add]
        exact hcountRest
      · next hbeam =>
        have hbeams : (hi - max (beamOf c + 1) 0).toNat + 1 ≤ (hi - max lo 0).toNat := by omega
        calc group.countP scheduled + rest.countP scheduled
            ≤ limit + (hi - max (beamOf c + 1) 0).toNat * limit := Nat.add_le_add hcountGroup hcountRest
          _ = ((hi - max (beamOf c + 1) 0).toNat + 1) * limit := by rw [Nat.succ_mul, Nat.add_comm]
          _ ≤ (hi - max lo 0).toNat * limit := Nat.mul_le_mul_right _ hbeams

instance beamOf_total (beamOf : κ → Int) : Std.Total fun a c => beamOf a ≤ beamOf c :=
  ⟨fun a c => Int.le_total (beamOf a) (beamOf c)⟩

instance beamOf_trans (beamOf : κ → Int) : IsTrans κ fun a c => beamOf a ≤ beamOf c :=
  ⟨fun _ _ _ => Int.le_trans⟩

theorem sortAndAllocPerBeam_count {limit numBeams : Nat}
    (hcount : ∀ s c cands r, rbAlloc s (c :: cands) = .ok r → (∀ d ∈ c :: cands, scheduled d = false) →
      r.1.countP scheduled ≤ if beamOf c < 0 then 0 else limit) (hfresh : ∀ c ∈ cands, scheduled c = false)
    (hbounds : ∀ c ∈ cands, -1 ≤ beamOf c ∧ beamOf c < numBeams)
    (hok : sortAndAllocPerBeam beamOf rbAlloc s cands = .ok r) : r.1.countP scheduled ≤ numBeams * limit :=
  allocPerBeam_count hcount (pairwise_insertionSort _ _)
    (fun c hc => hfresh c ((mem_insertionSort _).mp hc))
    (fun c hc => hbounds c ((mem_insertionSort _).mp hc)) hok

theorem allocPerBeam_cons {c : κ} {group rest : List κ} (hgroup : ∀ d ∈ group, beamOf d = beamOf c)
    (hrest : ∀ d ∈ rest, beamOf d ≠ beamOf c) (fuel : Nat) (s : σ) :
    allocPerBeam beamOf rbAlloc (fuel + 1) s (c :: (group ++ rest)) = (do
      let (first, s) ← rbAlloc s (c :: group)
      let (others, s) ← allocPerBeam beamOf rbAlloc fuel s rest
      return (first ++ others, s)) := by
  have hsame : ∀ d ∈ group, (beamOf d == beamOf c) = true := fun d hd => by simp [hgroup d hd]
  have hothers : rest.takeWhile (fun d => beamOf d == beamOf c) = [] ∧
      rest.dropWhile (fun d => beamOf d == beamOf c) = rest := by
    cases rest with
    | nil => exact ⟨rfl, rfl⟩
    | cons d rest => simp [hrest d mem_cons_self]
  rw [allocPerBeam, takeWhile_append_of_pos hsame, dropWhile_append_of_pos hsame, hothers.1,
    hothers.2, append_nil]

/-- If there is a grant for each candidate of each beam, all of them are scheduled. `T` is the state of
the slot before each group. -/
theorem allocPerBeam_all {cand : Nat → Nat → κ} {out : Nat → List κ} {T : Nat → σ} {limit : Nat}
    (hlimit : 0 < limit) (hbeam : ∀ i j, beamOf (cand i j) = i)
    (hgroup : ∀ i, rbAlloc (T i) ((List.range limit).map (cand i)) = .ok (out i, T (i + 1)))
    (m i : Nat) {fuel : Nat} (hfuel : m < fuel) : allocPerBeam beamOf rbAlloc fuel (T i)
        ((List.range' i m).flatMap fun i => (List.range limit).map (cand i)) =
      .ok ((List.range' i m).flatMap out, T (i + m)) := by
  obtain _ | limit := limit
  · cases hlimit
  induction m generalizing i fuel with
  | zero =>
    obtain _ | fuel := fuel
    · cases hfuel
    rfl
  | succ m ih =>
    obtain _ | fuel := fuel
    · cases hfuel
    have hrest := ih (i + 1) (Nat.lt_of_succ_lt_succ hfuel)
    have hfirst := hgroup i
    have hhead : (List.range limit.succ).map (cand i) = cand i 0 :: ((List.range limit).map Nat.succ).map (cand i) := by
      rw [range_succ_eq_map, map_cons]
    rw [List.range'_succ, flatMap_cons, flatMap_cons, hhead, cons_append, allocPerBeam_cons,
      ← hhead, hfirst]
    · simp only [ok_bind, hrest, pure_eq_ok]
      rw [show i + 1 + m = i + (m + 1) by omega]
    · intro d hd
      obtain ⟨j, _, rfl⟩ := mem_map.mp hd
      rw [hbeam, hbeam]
    · intro d hd
      obtain ⟨i', hi', hd⟩ := mem_flatMap.mp hd
      obtain ⟨j, _, rfl⟩ := mem_map.mp hd
      have hlater := (mem_range'_1.mp hi').1
      rw [hbeam, hbeam]
      omega

variable (beamOf) in
theorem sortAndAllocPerBeam_all {cand : Nat → Nat → κ} {out : Nat → List κ} {T : Nat → σ} {limit : Nat}
    (hlimit : 0 < limit) (hbeam : ∀ i j, beamOf (cand i j) = i)
    (hgroup : ∀ i, rbAlloc (T i) ((List.range limit).map (cand i)) = .ok (out i, T (i + 1))) (m : Nat) :
    sortAndAllocPerBeam beamOf rbAlloc (T 0) ((List.range m).flatMap fun i => (List.range limit).map (cand i)) =
      .ok ((List.range m).flatMap out, T m) := by
  unfold sortAndAllocPerBeam
  have hlength : ((List.range m).flatMap fun i => (List.range limit).map (cand i)).length = m * limit := by
    simp [length_flatMap]
  have hsorted : ((List.range m).flatMap fun i => (List.range limit).map (cand i)).Pairwise
      fun a c => beamOf a ≤ beamOf c := by
    refine pairwise_flatMap.mpr ⟨fun i _ => ?_, ?_⟩
    · refine pairwise_map.mpr (pairwise_lt_range.imp fun {j j'} _ => ?_)
      rw [hbeam, hbeam]
    · refine pairwise_lt_range.imp fun {i i'} hlt a ha c hc => ?_
      obtain ⟨j, _, rfl⟩ := mem_map.mp ha
      obtain ⟨j', _, rfl⟩ := mem_map.mp hc
      rw [hbeam, hbeam]
      omega
  have hall := allocPerBeam_all hlimit hbeam hgroup m 0 (Nat.lt_succ_of_le (Nat.le_mul_of_pos_right m hlimit))
  rw [← range_eq_range', Nat.zero_add] at hall
  rw [hsorted.insertionSort_eq, hlength, hall]

end Groups

end OaiNr.Mac
