import Mathlib.Init

/-!
# Bisection
-/

namespace OaiNr

/-- The bounds come closer until they are neighbours. The lower one moves where the test is met. -/
def bisect (p : Nat → Bool) (jl ju : Nat) : Nat :=
  if 1 < ju - jl then
    if p ((ju + jl) / 2) then bisect p ((ju + jl) / 2) ju else bisect p jl ((ju + jl) / 2)
  else jl
  termination_by ju - jl
  decreasing_by all_goals omega

theorem bisect_spec {p : Nat → Bool} {jl ju : Nat} (hlt : jl < ju) (hp : p jl = true) :
    bisect p jl ju < ju ∧ p (bisect p jl ju) = true ∧ (p (bisect p jl ju + 1) = false ∨ bisect p jl ju + 1 = ju) := by
  induction jl, ju using bisect.induct p with
  | case1 jl ju hwide hmid ih =>
    rw [bisect, if_pos hwide, if_pos hmid]
    exact ih (by omega) hmid
  | case2 jl ju hwide hmid ih =>
    rw [bisect, if_pos hwide, if_neg hmid]
    obtain ⟨hless, hmet, hnext⟩ := ih (by omega) hp
    refine ⟨by omega, hmet, .inl ?_⟩
    rcases hnext with hnext | hnext
    · exact hnext
    · rw [hnext]
      simpa using hmid
  | case3 jl ju hclose =>
    rw [bisect, if_neg hclose]
    exact ⟨hlt, hp, .inr (by omega)⟩

end OaiNr
