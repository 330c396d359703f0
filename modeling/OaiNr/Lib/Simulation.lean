import Mathlib.Init

/-!
# Simulation of machines that show events

A machine that runs, one action after the other, is simulated by the steps of an abstract machine that show the same
events. Steps that show nothing are steps with an empty list of events.
-/

namespace OaiNr.Simulation

variable {σ τ α ε φ : Type}

inductive Runs (step : τ → List ε → τ → Prop) : τ → List ε → τ → Prop where
  | refl (t : τ) : Runs step t [] t
  | tail {t t' t'' : τ} {es es' : List ε} (runs : Runs step t es t') (last : step t' es' t'') :
      Runs step t (es ++ es') t''

def runAll (next : σ → α → Except φ (σ × List ε)) : σ → List α → Except φ (σ × List ε)
  | s, [] => .ok (s, [])
  | s, a :: as => do
    let r ← next s a
    let r' ← runAll next r.1 as
    return (r'.1, r.2 ++ r'.2)

variable {step : τ → List ε → τ → Prop} {next : σ → α → Except φ (σ × List ε)} {t t' t'' : τ} {es es' : List ε}

theorem Runs.single (h : step t es t') : Runs step t es t' := (Runs.refl t).tail h

theorem Runs.trans (h : Runs step t es t') (h' : Runs step t' es' t'') : Runs step t (es ++ es') t'' := by
  induction h' with
  | refl => rwa [List.append_nil]
  | tail _ last ih =>
    rw [← List.append_assoc]
    exact ih.tail last

def Simulates (next : σ → α → Except φ (σ × List ε)) (step : τ → List ε → τ → Prop) (R : σ → τ → Prop) : Prop :=
  ∀ s t a, R s t → ∃ s' es t', next s a = .ok (s', es) ∧ Runs step t es t' ∧ R s' t'

theorem Simulates.runAll {R : σ → τ → Prop} (h : Simulates next step R) {s : σ} (hs : R s t) (as : List α) :
    ∃ s' es t', runAll next s as = .ok (s', es) ∧ Runs step t es t' ∧ R s' t' := by
  induction as generalizing s t with
  | nil => exact ⟨s, [], t, rfl, .refl t, hs⟩
  | cons a as ih =>
    obtain ⟨s₁, es₁, t₁, hnext, hruns₁, hs₁⟩ := h s t a hs
    obtain ⟨s₂, es₂, t₂, hall, hruns₂, hs₂⟩ := ih hs₁
    refine ⟨s₂, es₁ ++ es₂, t₂, ?_, hruns₁.trans hruns₂, hs₂⟩
    rw [Simulation.runAll, hnext]
    show (Simulation.runAll next s₁ as >>= _) = _
    rw [hall]
    rfl

end OaiNr.Simulation
