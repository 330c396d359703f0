import Mathlib.Init

/-!
# Interleavings of threads

A system takes the steps of its threads in any order. A step that is not possible, since its thread waits, is no step.
-/

namespace OaiNr.Interleave

variable {σ ε : Type} (step : σ → ε → Option σ)

def run : σ → List ε → Option σ
  | s, [] => some s
  | s, e :: es => (step s e).bind (run · es)

variable {step} {Inv : σ → Prop} {s t : σ} {es : List ε}

theorem run_cons {e : ε} (h : run step s (e :: es) = some t) : ∃ s', step s e = some s' ∧ run step s' es = some t :=
  Option.bind_eq_some_iff.mp h

theorem run_invariant (hkeep : ∀ s e s', Inv s → step s e = some s' → Inv s') (hs : Inv s)
    (h : run step s es = some t) : Inv t := by
  induction es generalizing s with
  | nil =>
    cases h
    exact hs
  | cons e es ih =>
    obtain ⟨s', hstep, hrun⟩ := run_cons h
    exact ih (hkeep s e s' hs hstep) hrun

/-- What every step of a thread adds to counts its steps. -/
theorem add_countP_le (hkeep : ∀ s e s', Inv s → step s e = some s' → Inv s') (mine : ε → Bool) (progress : σ → Int)
    (hadd : ∀ s e s', Inv s → step s e = some s' → progress s + (if mine e then 1 else 0 : Nat) ≤ progress s')
    (hs : Inv s) (h : run step s es = some t) : progress s + es.countP mine ≤ progress t := by
  induction es generalizing s with
  | nil =>
    cases h
    simp
  | cons e es ih =>
    obtain ⟨s', hstep, hrun⟩ := run_cons h
    have hrest := ih (hkeep s e s' hs hstep) hrun
    have hfirst := hadd s e s' hs hstep
    rw [List.countP_cons]
    omega

theorem run_concat {e : ε} {t' : σ} (h : run step s es = some t) (hstep : step t e = some t') :
    run step s (es ++ [e]) = some t' := by
  induction es generalizing s with
  | nil =>
    cases h
    simp [run, hstep]
  | cons e' es ih =>
    obtain ⟨s', hfirst, hrun⟩ := run_cons h
    simp [run, hfirst, ih hrun]

variable (step) in
def Reaches (mine : ε) [DecidableEq ε] (P : σ → Prop) (s : σ) : Prop :=
  ∃ bound, ∀ es t, run step s es = some t → P t ∨ es.count mine < bound ∧ (step t mine).isSome

/-- What is never the case is not reached. -/
theorem not_reaches [DecidableEq ε] {mine : ε} {P : σ → Prop} (hnever : ∀ es t, run step s es = some t → ¬ P t) :
    ¬ Reaches step mine P s := by
  rintro ⟨bound, h⟩
  have hruns : ∀ n, ∃ es t, run step s es = some t ∧ es.count mine = n := fun n => by
    induction n with
    | zero => exact ⟨[], s, rfl, rfl⟩
    | succ n ih =>
      obtain ⟨es, t, hrun, hcount⟩ := ih
      obtain ⟨t', hstep⟩ := Option.isSome_iff_exists.mp ((h es t hrun).resolve_left (hnever es t hrun)).2
      exact ⟨es ++ [mine], t', run_concat hrun hstep, by simp [hcount]⟩
  obtain ⟨es, t, hrun, hcount⟩ := hruns bound
  have := ((h es t hrun).resolve_left (hnever es t hrun)).1
  omega

end OaiNr.Interleave
