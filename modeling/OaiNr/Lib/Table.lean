import Mathlib.Data.List.AList

/-!
# Tables
-/

namespace OaiNr.Table

variable {κ α β : Type} [DecidableEq κ] {t : AList fun _ : κ => α} {k k' : κ} {v : α}

theorem lookup_insert : (t.insert k v).lookup k' = if k' = k then some v else t.lookup k' := by
  split
  next h => rw [h, AList.lookup_insert]
  next h => rw [AList.lookup_insert_ne h]

theorem lookup_erase : (t.erase k).lookup k' = if k' = k then none else t.lookup k' := by
  split
  next h => rw [h, AList.lookup_erase]
  next h => rw [AList.lookup_erase_ne h]

open Classical in
theorem lookup_foldl_erase (f : β → κ) (l : List β) :
    (l.foldl (fun t e => t.erase (f e)) t).lookup k = if ∃ e ∈ l, f e = k then none else t.lookup k := by
  induction l generalizing t with
  | nil => simp
  | cons e l ih =>
    rw [List.foldl_cons, ih, lookup_erase]
    by_cases hl : ∃ e ∈ l, f e = k
    · obtain ⟨e', he', hk⟩ := hl
      rw [if_pos ⟨e', he', hk⟩, if_pos ⟨e', List.mem_cons_of_mem _ he', hk⟩]
    · rw [if_neg hl]
      refine if_congr ⟨fun hk => ⟨e, List.mem_cons_self, hk.symm⟩, ?_⟩ rfl rfl
      rintro ⟨e', he', hk⟩
      rcases List.mem_cons.mp he' with rfl | he'
      · exact hk.symm
      · exact absurd ⟨e', he', hk⟩ hl

theorem exists_entry_iff {P : κ → α → Prop} : (∃ e ∈ t.entries, P e.1 e.2) ↔ ∃ k v, t.lookup k = some v ∧ P k v := by
  constructor
  · rintro ⟨⟨k, v⟩, he, hP⟩
    exact ⟨k, v, AList.mem_lookup_iff.mpr he, hP⟩
  · rintro ⟨k, v, hv, hP⟩
    exact ⟨⟨k, v⟩, AList.mem_lookup_iff.mp hv, hP⟩

end OaiNr.Table
