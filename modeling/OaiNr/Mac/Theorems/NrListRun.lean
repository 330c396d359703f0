import OaiNr.Mac.Lemmas.NrList

/-!
# Runs of an `NR_list_t`
-/

namespace OaiNr.Mac.NrList

variable {l : NrList} {xs ys : List Nat} {x n : Nat}

theorem seekEnd_eq (pre : List Nat) {fuel : Nat} (hc : Chain l.next l.head (pre ++ ys) (-1))
    (hb : ∀ y ∈ pre ++ ys, y < l.len) (hx : x ∉ ys) (hf : ys.length < fuel) :
    l.seekEnd x fuel (linkAfter pre) = .ok (linkAfter (pre ++ ys)) := by
  induction ys generalizing pre fuel with
  | nil =>
    obtain ⟨fuel, rfl⟩ := Nat.exists_eq_add_of_lt hf
    rw [List.append_nil] at hc hb ⊢
    simp [seekEnd, deref_linkAfter hc hb]
  | cons y ys ih =>
    obtain ⟨fuel, rfl⟩ := Nat.exists_eq_add_of_lt hf
    obtain ⟨m, hpre, rfl, _⟩ := Chain.append_iff.mp hc
    have hd := deref_linkAfter hpre fun z hz => hb z (by simp [hz])
    have hyx : (y : Int) ≠ x := fun heq => hx (by simp [Int.ofNat.inj heq])
    have hneg : ¬(y : Int) < 0 := by omega
    have hrest := @ih (pre ++ [y]) ((y :: ys).length + fuel) (by simpa using hc) (by simpa using hb)
      (fun hm => hx (by simp [hm])) (by simp; omega)
    simpa [seekEnd, hd, hyx, hneg] using hrest

theorem Repr.add_eq_addTail (h : l.Repr xs) (hx : x ∉ xs) (hn : x < l.len) : l.add x = l.addTail x := by
  have hlen : xs.length < l.len + 1 := by
    have hsub := h.nodup.length_le_of_subset fun y hy => List.mem_range.mpr (h.bound y hy)
    simp at hsub
    omega
  have hseek : l.seekEnd x (l.len + 1) .head = .ok (linkAfter xs) := seekEnd_eq [] h.chain h.bound hx hlen
  have hclear := h.clear x hn hx
  -- `next[id]` is -1 before, so that writing it makes no difference
  rcases List.eq_nil_or_concat xs with rfl | ⟨ys, t, rfl⟩
  · have ht : l.tail < 0 := by simp [h.tail]
    simp [NrList.add, NrList.addTail, hseek, store, getNext_natCast, setNext_natCast, hn, hclear, ht]
  · rw [List.concat_eq_append] at *
    have ht : l.tail = t := by simp [h.tail]
    have htn : t < l.len := h.bound t (by simp)
    have htx : x ≠ t := fun heq => hx (by simp [heq])
    have hneg : ¬(t : Int) < 0 := by omega
    simp [NrList.add, NrList.addTail, hseek, store, getNext_natCast, setNext_natCast, hn, hclear, ht, htn, hneg,
      Function.update_of_ne htx]

theorem Repr.addFront (h : l.Repr xs) (hx : x ∉ xs) (hn : x < l.len) :
    ∃ l', l.addFront x = .ok l' ∧ l'.Repr (x :: xs) ∧ l'.len = l.len := by
  refine ⟨⟨x, Function.update l.next x l.head, if l.tail < 0 then x else l.tail, l.len⟩, ?_, ⟨?_, ?_, ?_, ?_, ?_⟩, rfl⟩
  · simp [NrList.addFront, setNext, hn]
  · exact ⟨rfl, by simpa using h.chain.update hx⟩
  · rcases List.eq_nil_or_concat xs with rfl | ⟨ys, t, rfl⟩
    · simp [h.tail, lastLink]
    · rw [List.concat_eq_append] at *
      have hneg : ¬(t : Int) < 0 := by omega
      simp [h.tail, lastLink_cons_of_ne, hneg]
  · exact List.nodup_cons.mpr ⟨hx, h.nodup⟩
  · exact List.forall_mem_cons.mpr ⟨hn, h.bound⟩
  · intro i hi hm
    simp only [List.mem_cons, not_or] at hm
    exact (Function.update_of_ne hm.1 ..).trans (h.clear i hi hm.2)

inductive Op where
  | add (id : Nat)
  | addTail (id : Nat)
  | addFront (id : Nat)
  | remove (id : Nat)
  | removeFront
  | resize (len : Nat)

def exec (l : NrList) : Op → Except Fault NrList
  | .add id => l.add id
  | .addTail id => l.addTail id
  | .addFront id => l.addFront id
  | .remove id => l.remove id
  | .removeFront => l.removeFront
  | .resize len => l.resize len

/-- The operations on a bound and a sequence of numbers below it, where the callers may use them -/
def Op.apply (len : Nat) (xs : List Nat) : Op → Option (Nat × List Nat)
  | .add id | .addTail id => if id < len ∧ id ∉ xs then some (len, xs ++ [id]) else none
  | .addFront id => if id < len ∧ id ∉ xs then some (len, id :: xs) else none
  | .remove id => if id ∈ xs then some (len, xs.erase id) else none
  | .removeFront => if xs = [] then none else some (len, xs.tail)
  | .resize newLen => if len ≤ newLen then some (newLen, xs) else none

theorem Repr.exec {op : Op} {s : Nat × List Nat} (h : l.Repr xs) (hop : op.apply l.len xs = some s) :
    ∃ l', l.exec op = .ok l' ∧ l'.Repr s.2 ∧ l'.len = s.1 := by
  cases op with simp only [Op.apply, Option.ite_none_right_eq_some, Option.ite_none_left_eq_some, Option.some.injEq] at hop
  | add id =>
    obtain ⟨⟨hn, hx⟩, rfl⟩ := hop
    obtain ⟨l', hl, h'⟩ := h.addTail hx hn
    exact ⟨l', (h.add_eq_addTail hx hn).trans hl, h'⟩
  | addTail id =>
    obtain ⟨⟨hn, hx⟩, rfl⟩ := hop
    exact h.addTail hx hn
  | addFront id =>
    obtain ⟨⟨hn, hx⟩, rfl⟩ := hop
    exact h.addFront hx hn
  | remove id =>
    obtain ⟨hx, rfl⟩ := hop
    exact h.remove hx
  | removeFront =>
    obtain ⟨hne, rfl⟩ := hop
    obtain ⟨x, xs, rfl⟩ := List.exists_cons_of_ne_nil hne
    exact h.removeFront
  | resize len =>
    obtain ⟨hle, rfl⟩ := hop
    exact h.resize hle

theorem Repr.run (ops : List Op) {s : Nat × List Nat} (h : l.Repr xs)
    (hops : ops.foldlM (fun s op => op.apply s.1 s.2) (l.len, xs) = some s) :
    ∃ l', ops.foldlM NrList.exec l = .ok l' ∧ l'.Repr s.2 ∧ l'.len = s.1 := by
  induction ops generalizing l xs with
  | nil =>
    cases hops
    exact ⟨l, rfl, h, rfl⟩
  | cons op ops ih =>
    rw [List.foldlM_cons] at hops
    obtain ⟨s₁, hop, hops⟩ := Option.bind_eq_some_iff.mp hops
    obtain ⟨l₁, hexec, h₁, hlen⟩ := h.exec hop
    obtain ⟨l', hrun, h'⟩ := ih h₁ (by rwa [hlen])
    exact ⟨l', by rw [List.foldlM_cons, hexec]; exact hrun, h'⟩

/-- Whatever the abstract sequence goes through, the list represents it at the end. -/
theorem nrList_refines (n : Nat) (ops : List Op) {s : Nat × List Nat}
    (hops : ops.foldlM (fun s op => op.apply s.1 s.2) (n, []) = some s) :
    ∃ l, ops.foldlM NrList.exec (.create n) = .ok l ∧ l.Repr s.2 ∧ l.len = s.1 :=
  (Repr.create n).run ops hops

/-- A list of three with an element taken out of the middle. -/
theorem add_and_remove : ∃ l, [.add 1, .addFront 2, .addTail 0, .remove 1].foldlM NrList.exec (.create 3) = .ok l ∧
    l.Repr [2, 0] ∧ l.len = 3 :=
  nrList_refines 3 _ (s := (3, [2, 0])) rfl

end OaiNr.Mac.NrList
