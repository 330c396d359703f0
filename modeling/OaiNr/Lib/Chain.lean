import Mathlib.Data.List.Nodup

/-!
# Chains in a table of successors

A table `next` links indices to each other. A link is an index, or negative when nothing follows.
-/

namespace OaiNr

/-- The links that start with `h` go through `xs` and then to `e`. -/
def Chain (next : Nat → Int) : Int → List Nat → Int → Prop
  | h, [], e => h = e
  | h, x :: xs, e => h = x ∧ Chain next (next x) xs e

def lastLink (xs : List Nat) : Int := xs.getLast?.elim (-1) (↑)

@[simp] theorem lastLink_nil : lastLink [] = -1 := rfl

@[simp] theorem lastLink_concat (xs : List Nat) (x : Nat) : lastLink (xs ++ [x]) = x := by
  simp [lastLink]

theorem lastLink_cons_of_ne {x : Nat} {xs : List Nat} (hx : xs ≠ []) : lastLink (x :: xs) = lastLink xs := by
  simp [lastLink, List.getLast?_cons, List.getLast?_eq_some_getLast hx]

theorem lastLink_append_of_ne {xs ys : List Nat} (hy : ys ≠ []) : lastLink (xs ++ ys) = lastLink ys := by
  simp [lastLink, List.getLast?_append, List.getLast?_eq_some_getLast hy]

namespace Chain

variable {next : Nat → Int} {h e v : Int} {x : Nat} {xs ys : List Nat}

@[simp] theorem nil_iff : Chain next h [] e ↔ h = e := .rfl

@[simp] theorem cons_iff : Chain next h (x :: xs) e ↔ h = x ∧ Chain next (next x) xs e := .rfl

theorem append_iff : Chain next h (xs ++ ys) e ↔ ∃ m, Chain next h xs m ∧ Chain next m ys e := by
  induction xs generalizing h with
  | nil => simp
  | cons x xs ih => simp [ih, and_assoc]

theorem congr {next' : Nat → Int} (he : ∀ x ∈ xs, next' x = next x) (hc : Chain next h xs e) : Chain next' h xs e := by
  induction xs generalizing h with
  | nil => exact hc
  | cons x xs ih =>
    refine ⟨hc.1, ?_⟩
    rw [he x (by simp)]
    exact ih (fun y hy => he y (by simp [hy])) hc.2

theorem update (hx : x ∉ xs) (hc : Chain next h xs e) : Chain (Function.update next x v) h xs e :=
  hc.congr fun y hy => Function.update_of_ne (fun heq => hx (by rwa [← heq])) _ _

theorem head_neg_iff (hc : Chain next h xs (-1)) : h < 0 ↔ xs = [] := by
  cases xs with
  | nil => simp only [nil_iff] at hc; simp [hc]
  | cons x xs => simp [hc.1]

end Chain

end OaiNr
