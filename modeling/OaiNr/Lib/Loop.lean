import Mathlib.Data.Nat.Find
import Mathlib.Logic.Function.Iterate

/-!
# While loops

`run cond body fuel s` makes at most `fuel` tests of `while (cond) body`, starting from `s`. The
loop of the program ends exactly when some fuel is enough.
-/

namespace OaiNr.Loop

variable {σ : Type*} (cond : σ → Prop) [DecidablePred cond] (body : σ → σ)

def run : Nat → σ → Option σ
  | 0, _ => none
  | fuel + 1, s => if cond s then run fuel (body s) else some s

variable {cond body} {fuel : Nat} {s t : σ}

theorem run_eq_some : run cond body fuel s = some t ↔
      ∃ j < fuel, t = body^[j] s ∧ ¬cond t ∧ ∀ i < j, cond (body^[i] s) := by
  induction fuel generalizing s with
  | zero => simp [run]
  | succ fuel ih =>
    by_cases hc : cond s
    · simp only [run, hc, ↓reduceIte, ih]
      constructor
      · rintro ⟨j, hj, rfl, ht, hall⟩
        refine ⟨j + 1, by omega, rfl, ht, fun i hi => ?_⟩
        cases i with
        | zero => exact hc
        | succ i => exact hall i (by omega)
      · rintro ⟨j, hj, rfl, ht, hall⟩
        cases j with
        | zero => exact absurd hc ht
        | succ j => exact ⟨j, by omega, rfl, ht, fun i hi => hall (i + 1) (by omega)⟩
    · simp only [run, hc, ↓reduceIte, Option.some.injEq]
      constructor
      · rintro rfl
        exact ⟨0, by omega, rfl, hc, fun i hi => absurd hi (by omega)⟩
      · rintro ⟨j, _, rfl, ht, hall⟩
        cases j with
        | zero => rfl
        | succ j => exact absurd (hall 0 (by omega)) hc

theorem run_mono {fuel' : Nat} (h : run cond body fuel s = some t) (hle : fuel ≤ fuel') :
    run cond body fuel' s = some t := by
  obtain ⟨j, hj, ht⟩ := run_eq_some.mp h
  exact run_eq_some.mpr ⟨j, by omega, ht⟩

theorem run_eq_none : run cond body fuel s = none ↔ ∀ i < fuel, cond (body^[i] s) := by
  induction fuel generalizing s with
  | zero => simp [run]
  | succ fuel ih =>
    by_cases hc : cond s
    · simp only [run, hc, ↓reduceIte, ih]
      constructor
      · intro h i hi
        cases i with
        | zero => exact hc
        | succ i => exact h i (by omega)
      · exact fun h i hi => h (i + 1) (by omega)
    · simp only [run, hc, ↓reduceIte, reduceCtorEq, false_iff, not_forall]
      exact ⟨0, by omega, hc⟩

theorem exists_run_iff (cond : σ → Prop) [DecidablePred cond] (body : σ → σ) (s : σ) :
    (∃ fuel, run cond body fuel s ≠ none) ↔ ∃ j, ¬cond (body^[j] s) := by
  constructor
  · rintro ⟨fuel, h⟩
    obtain ⟨t, ht⟩ := Option.ne_none_iff_exists'.mp h
    obtain ⟨j, _, rfl, hj, _⟩ := run_eq_some.mp ht
    exact ⟨j, hj⟩
  · rintro ⟨j, hj⟩
    exact ⟨j + 1, fun h => hj (run_eq_none.mp h j (by omega))⟩

theorem run_inv (P : σ → Prop) (hbody : ∀ s, cond s → P s → P (body s)) (h0 : P s)
    (h : run cond body fuel s = some t) : P t ∧ ¬cond t := by
  induction fuel generalizing s with
  | zero => simp [run] at h
  | succ fuel ih =>
    by_cases hc : cond s
    · simp only [run, hc, ↓reduceIte] at h
      exact ih (hbody s hc h0) h
    · simp only [run, hc, ↓reduceIte, Option.some.injEq] at h
      subst h
      exact ⟨h0, hc⟩

end OaiNr.Loop
