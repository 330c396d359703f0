import Mathlib.Init

/-!
# Runs of a deterministic machine
-/

namespace OaiNr.Trace

variable {σ ε : Type} (step : σ → ε → σ)

def Along (P : σ → ε → Prop) : σ → List ε → Prop
  | _, [] => True
  | s, e :: es => P s e ∧ Along P (step s e) es

variable {step} {P Q : σ → ε → Prop}

theorem along_iff (Inv : σ → Prop) (hsame : ∀ s e, Inv s → (P s e ↔ Q s e))
    (hkeep : ∀ s e, Inv s → P s e → Inv (step s e)) {s : σ} (hs : Inv s) (es : List ε) :
    Along step P s es ↔ Along step Q s es := by
  induction es generalizing s with
  | nil => exact Iff.rfl
  | cons e es ih =>
    rw [Along, Along, ← hsame s e hs]
    exact and_congr_right fun he => ih (hkeep s e hs he)

section Stopping

variable {φ : Type} (step : σ → ε → Except φ σ)

/-- Every event that a machine gets through, which may stop, meets a condition on the state it comes in. -/
def AlongOk (P : σ → ε → Prop) : σ → List ε → Prop
  | _, [] => True
  | s, e :: es => ∀ s', step s e = .ok s' → P s e ∧ AlongOk P s' es

variable {step}

theorem alongOk_iff (Inv : σ → Prop) (hsame : ∀ s e s', Inv s → step s e = .ok s' → (P s e ↔ Q s e))
    (hkeep : ∀ s e s', Inv s → step s e = .ok s' → P s e → Inv s') {s : σ} (hs : Inv s) (es : List ε) :
    AlongOk step P s es ↔ AlongOk step Q s es := by
  induction es generalizing s with
  | nil => exact Iff.rfl
  | cons e es ih =>
    refine forall_congr' fun s' => forall_congr' fun hstep => ?_
    rw [← hsame s e s' hs hstep]
    exact and_congr_right fun he => ih (hkeep s e s' hs hstep he)

variable (step) in
/-- Every event of a run meets a condition on the state it comes in, also the one that stops the machine. -/
def Throughout (P : σ → ε → Prop) : σ → List ε → Prop
  | _, [] => True
  | s, e :: es => P s e ∧ ∀ s', step s e = .ok s' → Throughout P s' es

theorem throughout_iff (Inv : σ → Prop) (hsame : ∀ s e, Inv s → (P s e ↔ Q s e))
    (hkeep : ∀ s e s', Inv s → step s e = .ok s' → Inv s') {s : σ} (hs : Inv s) (es : List ε) :
    Throughout step P s es ↔ Throughout step Q s es := by
  induction es generalizing s with
  | nil => exact Iff.rfl
  | cons e es ih =>
    refine and_congr (hsame s e hs) (forall_congr' fun s' => forall_congr' fun hstep => ?_)
    exact ih (hkeep s e s' hs hstep)

theorem throughout_congr (hsame : ∀ s e, P s e ↔ Q s e) (s : σ) (es : List ε) :
    Throughout step P s es ↔ Throughout step Q s es :=
  throughout_iff (fun _ => True) (fun s e _ => hsame s e) (fun _ _ _ _ _ => trivial) trivial es

end Stopping

end OaiNr.Trace
