import OaiNr.Lib.Fallible

/-!
# Loops over a sequence that change it
-/

namespace OaiNr.Rrc

inductive Fault where
  | devAssert
  | nullDeref
  | outOfBounds
  deriving DecidableEq, Repr

variable {α β : Type}

/-- `FOR_EACH_SEQ_ARR`, with the iterator as an index. The body may erase elements. The loop ends where the iterator
equals the end, and one that has passed the end goes on behind it. -/
def forEachSeqArr (body : Nat → α → List α → β → Except Fault (List α × β)) :
    (fuel i : Nat) → List α → β → Except Fault (List α × β)
  | 0, _, _, _ => .error .outOfBounds
  | fuel + 1, i, arr, acc =>
    if i = arr.length then .ok (arr, acc)
    else match arr[i]? with
      | none => .error .outOfBounds
      | some a => do
        let (arr, acc) ← body i a arr acc
        forEachSeqArr body fuel (i + 1) arr acc

variable {body : Nat → α → List α → β → Except Fault (List α × β)} {fuel i : Nat} {arr arr' : List α} {acc acc' : β}

/-- A body that leaves the sequence as it is is run for each element. -/
theorem forEachSeqArr_keeps (Inv : β → Prop)
    (hbody : ∀ i a acc, arr[i]? = some a → Inv acc → ∃ acc', body i a arr acc = .ok (arr, acc') ∧ Inv acc')
    (hfuel : arr.length - i < fuel) (hi : i ≤ arr.length) (hinv : Inv acc) :
    ∃ acc', forEachSeqArr body fuel i arr acc = .ok (arr, acc') ∧ Inv acc' := by
  induction fuel generalizing i acc with
  | zero => omega
  | succ fuel ih =>
    rw [forEachSeqArr]
    split
    · exact ⟨acc, rfl, hinv⟩
    · next hne =>
      have hlt : i < arr.length := by omega
      obtain ⟨acc₁, hok, hinv₁⟩ := hbody i arr[i] acc (List.getElem?_eq_getElem hlt) hinv
      simp only [List.getElem?_eq_getElem hlt, hok, ok_bind]
      exact ih (by omega) hlt hinv₁

end OaiNr.Rrc
