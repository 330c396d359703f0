import OaiNr.Lib.Chain
import OaiNr.Lib.Fallible
import OaiNr.Mac.NrList

/-!
# An `NR_list_t` is a list of numbers

`Repr l xs` says that the links of `l` go through `xs`. Each operation then does on `xs` what its
name says, and meets no assertion.
-/

namespace OaiNr.Mac.NrList

open Function List

structure Repr (l : NrList) (xs : List Nat) : Prop where
  chain : Chain l.next l.head xs (-1)
  tail : l.tail = lastLink xs
  nodup : xs.Nodup
  bound : ∀ x ∈ xs, x < l.len
  clear : ∀ i < l.len, i ∉ xs → l.next i = -1

variable {l : NrList} {xs ys : List Nat} {x n : Nat} {v : Int}

/-! ## Access to the links -/

theorem getNext_natCast (hx : x < l.len) : l.getNext x = .ok (l.next x) := by
  simp [getNext, hx]

theorem setNext_natCast (hx : x < l.len) : l.setNext x v = .ok { l with next := Function.update l.next x v } := by
  simp [setNext, hx]

theorem update_neg_one {next : Nat → Int} {i : Nat} (h : i ≠ x → next i = -1) : Function.update next x (-1) i = -1 := by
  by_cases hi : i = x
  · rw [hi, update_self]
  · rw [update_of_ne hi, h hi]

namespace Repr

theorem head_neg_iff (h : l.Repr xs) : l.head < 0 ↔ xs = [] := h.chain.head_neg_iff

theorem head_eq (h : l.Repr (x :: xs)) : l.head = x := h.chain.1

theorem length_lt (h : l.Repr xs) : xs.length < l.len + 1 := by
  have hsub : xs ⊆ List.range l.len := fun y hy => mem_range.mpr (h.bound y hy)
  have hle := h.nodup.length_le_of_subset hsub
  rw [length_range] at hle
  omega

theorem create (n : Nat) : (NrList.create n).Repr [] :=
  ⟨rfl, rfl, .nil, by simp, fun _ _ _ => rfl⟩

theorem resize (h : l.Repr xs) (hn : l.len ≤ n) : ∃ l', l.resize n = .ok l' ∧ l'.Repr xs ∧ l'.len = n := by
  rcases Nat.lt_or_eq_of_le hn with hlt | rfl
  · refine ⟨{ l with next := fun i => if l.len ≤ i ∧ i < n then -1 else l.next i, len := n }, ?_,
      ⟨?_, h.tail, h.nodup, fun x hx => Nat.lt_trans (h.bound x hx) hlt, fun i hi hxs => ?_⟩, rfl⟩
    · rw [NrList.resize, if_neg (by omega), if_pos hlt]
    · refine h.chain.congr fun x hx => ?_
      have := h.bound x hx
      simp only [ite_eq_right_iff, and_imp]
      omega
    · simp only [ite_eq_left_iff] at hi ⊢
      exact fun hold => h.clear i (by omega) hxs
  · exact ⟨l, by simp [NrList.resize], h, rfl⟩

theorem addTail (h : l.Repr xs) (hx : x ∉ xs) (hn : x < l.len) :
    ∃ l', l.addTail x = .ok l' ∧ l'.Repr (xs ++ [x]) ∧ l'.len = l.len := by
  have hbound : ∀ y ∈ xs ++ [x], y < l.len := by
    intro y hy
    rcases mem_append.mp hy with hy | hy
    · exact h.bound y hy
    · rwa [mem_singleton.mp hy]
  have hnodup : (xs ++ [x]).Nodup := by
    simpa [nodup_append] using ⟨h.nodup, fun y hy heq => hx (heq ▸ hy)⟩
  rcases eq_nil_or_concat xs with rfl | ⟨ys, t, rfl⟩
  · refine ⟨{ l with head := x, next := Function.update l.next x (-1), tail := x }, ?_,
      ⟨by simp, (lastLink_concat [] x).symm, hnodup, hbound,
        fun i hi _ => update_neg_one fun _ => h.clear i hi (by simp)⟩, rfl⟩
    have ht : l.tail < 0 := by simp [h.tail]
    simp [NrList.addTail, ht, store, setNext, hn]
  · rw [concat_eq_append] at *
    have ht : l.tail = t := by simp [h.tail]
    have htn : t < l.len := h.bound t (by simp)
    obtain ⟨m, hys, rfl, hend⟩ := Chain.append_iff.mp h.chain
    have htys : t ∉ ys := fun hm => (nodup_append.mp h.nodup).2.2 t hm t (by simp) rfl
    have hxys : x ∉ ys := fun hm => hx (by simp [hm])
    have htx : t ≠ x := fun heq => hx (by simp [heq])
    refine ⟨{ l with next := Function.update (Function.update l.next t x) x (-1), tail := x }, ?_,
      ⟨?_, (lastLink_concat (ys ++ [t]) x).symm, hnodup, hbound, fun i hi hxs => ?_⟩, rfl⟩
    · have hneg : ¬(t : Int) < 0 := by omega
      simp [NrList.addTail, ht, hneg, store, setNext, hn, htn]
    · refine Chain.append_iff.mpr ⟨x, Chain.append_iff.mpr ⟨t, (hys.update htys).update hxys, ?_⟩, ?_⟩
      · simp [update_of_ne htx]
      · simp
    · refine update_neg_one fun _ => ?_
      rw [update_of_ne fun heq => hxs (by simp [heq]), h.clear i hi fun hm => hxs (mem_append_left _ hm)]

theorem removeFront (h : l.Repr (x :: xs)) : ∃ l', l.removeFront = .ok l' ∧ l'.Repr xs ∧ l'.len = l.len := by
  have hx : x < l.len := h.bound x (by simp)
  have hxs : x ∉ xs := (nodup_cons.mp h.nodup).1
  refine ⟨⟨l.next x, Function.update l.next x (-1), if l.next x < 0 then -1 else l.tail, l.len⟩, ?_,
    ⟨h.chain.2.update hxs, ?_, (nodup_cons.mp h.nodup).2, fun y hy => h.bound y (by simp [hy]),
      fun i hi hm => update_neg_one fun hne => h.clear i hi (by simp [hne, hm])⟩, rfl⟩
  · simp [NrList.removeFront, h.head_eq, getNext_natCast hx, setNext_natCast hx, Int.not_lt.mpr (Int.natCast_nonneg x)]
  · simp only [h.chain.2.head_neg_iff]
    split
    case isTrue hnil => simp [hnil]
    case isFalse hne => rw [h.tail, lastLink_cons_of_ne hne]

end Repr

/-! ## Taking a number out of the middle -/

/-- The pointer to the link that comes after `xs`, the first numbers of the list. -/
def linkAfter (xs : List Nat) : Link := xs.getLast?.elim .head fun x => .next x

@[simp] theorem linkAfter_nil : linkAfter [] = .head := rfl

@[simp] theorem linkAfter_concat (xs : List Nat) (x : Nat) : linkAfter (xs ++ [x]) = .next x := by
  simp [linkAfter]

theorem deref_linkAfter (hc : Chain l.next l.head xs v) (hb : ∀ x ∈ xs, x < l.len) :
    l.deref (linkAfter xs) = .ok v := by
  rcases eq_nil_or_concat xs with rfl | ⟨ys, y, rfl⟩
  · exact congrArg _ hc
  · rw [concat_eq_append] at *
    obtain ⟨m, _, rfl, hv⟩ := Chain.append_iff.mp hc
    rw [linkAfter_concat, deref, getNext_natCast (hb y (by simp))]
    exact congrArg _ hv

theorem seek_eq (pre : List Nat) {zs : List Nat} {fuel : Nat} (hc : Chain l.next l.head (pre ++ ys ++ x :: zs) (-1))
    (hb : ∀ y ∈ pre ++ ys, y < l.len) (hx : x ∉ ys) (hf : ys.length < fuel) :
    l.seek x fuel (linkAfter pre.dropLast) (linkAfter pre) =
      .ok (linkAfter (pre ++ ys).dropLast, linkAfter (pre ++ ys)) := by
  induction ys generalizing pre fuel with
  | nil =>
    obtain _ | fuel := fuel
    · cases hf
    obtain ⟨m, hpre, rfl, _⟩ := Chain.append_iff.mp hc
    rw [append_nil] at hpre hb
    simp [seek, deref_linkAfter hpre hb]
  | cons y ys ih =>
    obtain _ | fuel := fuel
    · cases hf
    have hsplit : pre ++ y :: ys = pre ++ [y] ++ ys := by simp
    have hyx : (y : Int) ≠ x := fun heq => hx (by simp [Int.ofNat.inj heq])
    rw [hsplit] at hc hb ⊢
    obtain ⟨m, hpre, hy⟩ := Chain.append_iff.mp (by simpa using hc :
      Chain l.next l.head (pre ++ y :: (ys ++ x :: zs)) (-1))
    obtain ⟨rfl, _⟩ := hy
    have hstep : l.seek x (fuel + 1) (linkAfter pre.dropLast) (linkAfter pre) =
        l.seek x fuel (linkAfter (pre ++ [y]).dropLast) (linkAfter (pre ++ [y])) := by
      have hd := deref_linkAfter hpre fun z hz => hb z (by simp [hz])
      have hne : (y : Int) ≠ -1 := by omega
      simp [seek, hd, hyx, hne]
    rw [hstep]
    exact ih _ hc hb (fun hm => hx (by simp [hm])) (by simp at hf; omega)

theorem remove_eq {zs : List Nat} (h : l.Repr (ys ++ x :: zs)) : l.remove x = (do
      let l ← l.store (l.next x) (linkAfter ys)
      let l ← l.setNext x (-1)
      let p ← l.deref (linkAfter ys.dropLast)
      if p < 0 then return { l with tail := p }
      let n ← l.getNext p
      return { l with tail := if 0 ≤ n then l.tail else p }) := by
  have hx : x ∉ ys := fun hm => (nodup_append.mp h.nodup).2.2 x hm x (by simp) rfl
  have hlen : ys.length < l.len + 1 := by
    have hsub : ys.length ≤ (List.range l.len).length :=
      (nodup_append.mp h.nodup).1.length_le_of_subset fun y hy =>
        mem_range.mpr (h.bound y (by simp [hy]))
    simp at hsub
    omega
  have hseek : l.seek x (l.len + 1) .head .head = .ok (linkAfter ys.dropLast, linkAfter ys) :=
    seek_eq [] h.chain (fun y hy => h.bound y (mem_append_left _ hy)) hx hlen
  obtain ⟨m, hys, rfl, _⟩ := Chain.append_iff.mp h.chain
  have hne : (x : Int) ≠ -1 := by omega
  simp [remove, hseek, deref_linkAfter hys fun y hy => h.bound y (by simp [hy]), hne,
    getNext_natCast (h.bound x (by simp))]

theorem Repr.remove (h : l.Repr xs) (hx : x ∈ xs) :
    ∃ l', l.remove x = .ok l' ∧ l'.Repr (xs.erase x) ∧ l'.len = l.len := by
  obtain ⟨ys, zs, hys, rfl, herase⟩ := exists_erase_eq hx
  obtain ⟨m, hpre, rfl, hzs⟩ := Chain.append_iff.mp h.chain
  have hxn : x < l.len := h.bound x (by simp)
  have hsub : (ys ++ zs).Sublist (ys ++ x :: zs) :=
    (sublist_cons_self x zs).append_left ys
  have hxzs : x ∉ zs := (nodup_cons.mp (nodup_append.mp h.nodup).2.1).1
  rw [herase, remove_eq h]
  rcases eq_nil_or_concat ys with rfl | ⟨ws, q, rfl⟩
  · -- the head is taken, and `*prev` is the new head
    refine ⟨{ l with head := l.next x, next := Function.update l.next x (-1), tail := lastLink zs },
      ?_, ⟨hzs.update hxzs, rfl, h.nodup.sublist hsub, fun y hy => h.bound y (hsub.subset hy),
        fun i hi hm => update_neg_one fun hne => h.clear i hi (by simpa [hne] using hm)⟩, rfl⟩
    cases zs with
    | nil =>
      have hend : l.next x = -1 := hzs
      simp [store, setNext_natCast, hxn, deref, hend]
    | cons z zs =>
      obtain ⟨hz, hzs⟩ := hzs
      have hne : z ≠ x := fun heq => hxzs (by simp [heq])
      have hzn : z < l.len := h.bound z (by simp)
      have hneg : ¬(z : Int) < 0 := by omega
      have htail : (if 0 ≤ l.next z then l.tail else (z : Int)) = lastLink (z :: zs) := by
        have hnil := hzs.head_neg_iff
        split
        case isTrue hle => simpa [lastLink_cons_of_ne] using h.tail
        case isFalse hlt => rw [hnil.mp (by omega)]; rfl
      simp [store, setNext_natCast, hxn, deref, hz, hneg, getNext_natCast, hzn,
        update_of_ne hne, htail]
  · -- the predecessor `q` is linked to what follows
    rw [concat_eq_append] at *
    obtain ⟨_, hws, rfl, -⟩ := Chain.append_iff.mp hpre
    have hqn : q < l.len := h.bound q (by simp)
    have hneg : ¬(q : Int) < 0 := by omega
    have hnodup : ((ws ++ [q]) ++ zs).Nodup := h.nodup.sublist hsub
    have hqx : q ≠ x := fun heq => hys (by simp [heq])
    have hxws : x ∉ ws := fun hm => hys (by simp [hm])
    have hqws : q ∉ ws := fun hm =>
      (nodup_append.mp (nodup_append.mp hnodup).1).2.2 q hm q (by simp) rfl
    have hqzs : q ∉ zs := fun hm => (nodup_append.mp hnodup).2.2 q (by simp) q hm rfl
    have hws' : Chain (Function.update (Function.update l.next q (l.next x)) x (-1)) l.head ws q :=
      (hws.update hqws).update hxws
    refine ⟨{ l with next := Function.update (Function.update l.next q (l.next x)) x (-1)
                     tail := lastLink (ws ++ [q] ++ zs) }, ?_, ⟨?_, rfl, hnodup,
        fun y hy => h.bound y (hsub.subset hy), fun i hi hm => ?_⟩, rfl⟩
    · have htail : (if 0 ≤ l.next x then l.tail else (q : Int)) = lastLink (ws ++ [q] ++ zs) := by
        have hnil := hzs.head_neg_iff
        split
        case isTrue hle =>
          have hne : zs ≠ [] := fun heq => by have := hnil.mpr heq; omega
          rw [h.tail, lastLink_append_of_ne (by simp), lastLink_cons_of_ne hne, lastLink_append_of_ne hne]
        case isFalse hlt => rw [hnil.mp (by omega), append_nil, lastLink_concat]
      have hderef : deref { l with next := Function.update (Function.update l.next q (l.next x)) x (-1) }
          (linkAfter ws) = .ok (q : Int) :=
        deref_linkAfter hws' fun y hy => h.bound y (by simp [hy])
      simp [store, setNext_natCast, hxn, hqn, hderef, hneg, getNext_natCast,
        update_of_ne hqx, htail]
    · refine Chain.append_iff.mpr ⟨l.next x, Chain.append_iff.mpr ⟨q, hws', ?_⟩, (hzs.update hqzs).update hxzs⟩
      simp [update_of_ne hqx]
    · refine update_neg_one fun hne => ?_
      rw [update_of_ne fun heq => hm (by simp [heq]), h.clear i hi (by simpa [hne] using hm)]

end OaiNr.Mac.NrList
