/-!
# Computations that can fail
-/

namespace OaiNr

variable {ε α β : Type} {x : Except ε α} {b : β} {r : ε}

@[simp] theorem ok_bind (a : α) (f : α → Except ε β) : (.ok a >>= f : Except ε β) = f a := rfl

@[simp] theorem error_bind (r : ε) (f : α → Except ε β) : (.error r >>= f : Except ε β) = .error r := rfl

@[simp] theorem pure_eq_ok (a : α) : (pure a : Except ε α) = .ok a := rfl

theorem bind_eq_ok {f : α → Except ε β} : x >>= f = .ok b ↔ ∃ a, x = .ok a ∧ f a = .ok b := by
  cases x <;> simp [bind, Except.bind]

theorem bind_eq_error {f : α → Except ε β} : x >>= f = .error r ↔ x = .error r ∨ ∃ a, x = .ok a ∧ f a = .error r := by
  cases x <;> simp [bind, Except.bind]

theorem map_eq_error {f : α → β} : x.map f = .error r ↔ x = .error r := by
  cases x <;> simp [Except.map]

theorem map_eq_ok {f : α → β} : x.map f = .ok b ↔ ∃ a, x = .ok a ∧ f a = b := by
  cases x <;> simp [Except.map]

theorem toOption_eq_some {a : α} : x.toOption = some a ↔ x = .ok a := by
  cases x <;> simp [Except.toOption]

end OaiNr
