import Mathlib.Data.List.TakeWhile
import Mathlib.Order.Lattice

/-!
# Lists in the order of a key

In a list that is in the order of a key, the elements below a bound are a prefix, and the elements with one
key stand together.
-/

namespace OaiNr.Grouped

open List

variable {α κ : Type*} {l : List α} {p : α → Bool}

theorem takeWhile_eq_filter (h : l.Pairwise fun a b => p b → p a) : l.takeWhile p = l.filter p := by
  induction l with
  | nil => rfl
  | cons a l ih =>
    obtain ⟨ha, hl⟩ := pairwise_cons.mp h
    by_cases hp : p a
    · rw [takeWhile_cons_of_pos hp, filter_cons_of_pos hp, ih hl]
    · rw [takeWhile_cons_of_neg hp, filter_cons_of_neg hp, Eq.comm, filter_eq_nil_iff]
      exact fun b hb hpb => hp (ha b hb hpb)

theorem dropWhile_eq_filter (h : l.Pairwise fun a b => p b → p a) : l.dropWhile p = l.filter (fun a => !p a) := by
  induction l with
  | nil => rfl
  | cons a l ih =>
    obtain ⟨ha, hl⟩ := pairwise_cons.mp h
    by_cases hp : p a
    · rw [dropWhile_cons_of_pos hp, filter_cons_of_neg (by simp [hp]), ih hl]
    · rw [dropWhile_cons_of_neg hp, Eq.comm, filter_eq_self]
      intro b hb
      rcases mem_cons.mp hb with rfl | hb
      · simpa using hp
      · simpa using fun hpb => hp (ha b hb hpb)

section Key

variable [LinearOrder κ] {k : α → κ} {v : κ}

theorem group_tail {a : α} (hp : ∀ b ∈ a :: l, p b ↔ k b = v) (h : (a :: l).Pairwise fun a b => k a ≤ k b) (ha : p a) :
    l.Pairwise fun a b => p b → p a := by
  obtain ⟨hal, hl⟩ := pairwise_cons.mp h
  have hav := (hp a mem_cons_self).mp ha
  refine hl.imp_of_mem fun {b c} hb hc hbc hpc => ?_
  have hcv := (hp c (mem_cons_of_mem _ hc)).mp hpc
  exact (hp b (mem_cons_of_mem _ hb)).mpr (le_antisymm (hcv ▸ hbc) (hav ▸ hal b hb))

theorem group_eq_filter (hp : ∀ b ∈ l, p b ↔ k b = v) (h : l.Pairwise fun a b => k a ≤ k b) :
    (l.dropWhile fun a => !p a).takeWhile p = l.filter p := by
  induction l with
  | nil => rfl
  | cons a l ih =>
    by_cases ha : p a
    · rw [dropWhile_cons_of_neg (by simp [ha]), takeWhile_cons_of_pos ha,
        filter_cons_of_pos ha, takeWhile_eq_filter (group_tail hp h ha)]
    · rw [dropWhile_cons_of_pos (by simpa using ha), filter_cons_of_neg ha,
        ih (fun b hb => hp b (mem_cons_of_mem _ hb)) h.of_cons]

theorem replace_eq_map (f : α → α) (hp : ∀ b ∈ l, p b ↔ k b = v) (h : l.Pairwise fun a b => k a ≤ k b) :
    (l.takeWhile fun a => !p a) ++ (((l.dropWhile fun a => !p a).takeWhile p).map f ++
      (l.dropWhile fun a => !p a).dropWhile p) = l.map fun a => if p a then f a else a := by
  induction l with
  | nil => rfl
  | cons a l ih =>
    by_cases ha : p a
    · have htake : (l.takeWhile p).map f = (l.takeWhile p).map fun a => if p a then f a else a :=
        map_congr_left fun b hb => (if_pos (mem_takeWhile_imp hb)).symm
      have hdrop : (l.dropWhile p).map (fun a => if p a then f a else a) = l.dropWhile p := by
        rw [dropWhile_eq_filter (group_tail hp h ha)]
        refine (map_congr_left fun b hb => ?_).trans (map_id _)
        exact if_neg (by simpa using (mem_filter.mp hb).2)
      rw [takeWhile_cons_of_neg (by simp [ha]), dropWhile_cons_of_neg (by simp [ha]),
        takeWhile_cons_of_pos ha, dropWhile_cons_of_pos ha, nil_append, map_cons,
        cons_append, htake, ← hdrop, ← map_append, takeWhile_append_dropWhile, map_cons, if_pos ha]
    · rw [dropWhile_cons_of_pos (by simpa using ha), takeWhile_cons_of_pos (by simpa using ha),
        cons_append, ih (fun b hb => hp b (mem_cons_of_mem _ hb)) h.of_cons, map_cons, if_neg ha]

end Key

end OaiNr.Grouped
