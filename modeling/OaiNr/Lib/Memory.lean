import Mathlib.Algebra.BigOperators.Group.List.Basic

/-!
# Pieces of memory

An allocated piece of memory is the list of what its places hold. Records of one size lie in it one after the other.
-/

namespace OaiNr.Memory

open List

variable {α : Type} {mem mem' xs ys : List α} {off n : Nat}

def readAt (mem : List α) (off n : Nat) : Option (List α) :=
  if off + n ≤ mem.length then some ((mem.drop off).take n) else none

def writeAt (mem : List α) (off : Nat) (xs : List α) : Option (List α) :=
  if off + xs.length ≤ mem.length then some (mem.take off ++ xs ++ mem.drop (off + xs.length)) else none

theorem readAt_eq_some : readAt mem off n = some xs ↔ off + n ≤ mem.length ∧ (mem.drop off).take n = xs := by
  rw [readAt, Option.ite_none_right_eq_some, Option.some_inj]

theorem writeAt_eq_some : writeAt mem off xs = some mem' ↔
      off + xs.length ≤ mem.length ∧ mem.take off ++ xs ++ mem.drop (off + xs.length) = mem' := by
  rw [writeAt, Option.ite_none_right_eq_some, Option.some_inj]

variable (h : writeAt mem off xs = some mem')
include h

theorem length_writeAt : mem'.length = mem.length := by
  obtain ⟨hle, rfl⟩ := writeAt_eq_some.mp h
  simp only [length_append, length_take, length_drop]
  omega

theorem take_writeAt (hn : n ≤ off) : mem'.take n = mem.take n := by
  obtain ⟨hle, rfl⟩ := writeAt_eq_some.mp h
  rw [append_assoc, take_append_of_le_length (by rw [length_take]; omega), take_take,
    Nat.min_eq_left hn]

theorem take_writeAt_end : mem'.take (off + xs.length) = mem.take off ++ xs := by
  obtain ⟨hle, rfl⟩ := writeAt_eq_some.mp h
  refine take_left' ?_
  rw [length_append, length_take]
  omega

theorem drop_take_writeAt_end (hn : n ≤ off) :
    (mem'.drop n).take (off - n + xs.length) = (mem.drop n).take (off - n) ++ xs := by
  have hend := congrArg (List.drop n) (take_writeAt_end h)
  obtain ⟨hle, -⟩ := writeAt_eq_some.mp h
  rw [drop_append_of_le_length (by rw [length_take]; omega), drop_take, drop_take] at hend
  rwa [← Nat.sub_add_comm hn]

theorem drop_take_writeAt {m : Nat} (hn : n + m ≤ off ∨ off + xs.length ≤ n) :
    (mem'.drop n).take m = (mem.drop n).take m := by
  rcases hn with hn | hn
  · have htake := congrArg (List.drop n) (take_writeAt h hn)
    rwa [drop_take, drop_take, Nat.add_sub_cancel_left] at htake
  · obtain ⟨hle, rfl⟩ := writeAt_eq_some.mp h
    rw [drop_append, drop_eq_nil_of_le (by rw [length_append, length_take]; omega),
      nil_append, drop_drop, length_append, length_take]
    congr 2
    omega

omit h

section Records

variable {size : Nat} {rs : List (List α)}

theorem length_flatten_records (h : ∀ r ∈ rs, r.length = size) : rs.flatten.length = rs.length * size := by
  rw [length_flatten, map_congr_left h, map_const', sum_replicate, Nat.nsmul_eq_mul]

theorem take_flatten_records (h : ∀ r ∈ rs, r.length = size) (i : Nat) :
    (rs.take i).flatten = rs.flatten.take (i * size) := by
  induction rs generalizing i with
  | nil => simp
  | cons r rs ih =>
    obtain ⟨hr, hrs⟩ := forall_mem_cons.mp h
    cases i with
    | zero => simp
    | succ i =>
      rw [take_succ_cons, flatten_cons, flatten_cons, ih hrs, Nat.succ_mul, Nat.add_comm, ← hr,
        take_length_add_append]

theorem drop_flatten_records (h : ∀ r ∈ rs, r.length = size) (i : Nat) :
    (rs.drop i).flatten = rs.flatten.drop (i * size) := by
  induction rs generalizing i with
  | nil => simp
  | cons r rs ih =>
    obtain ⟨hr, hrs⟩ := forall_mem_cons.mp h
    cases i with
    | zero => simp
    | succ i =>
      rw [drop_succ_cons, flatten_cons, ih hrs, Nat.succ_mul, Nat.add_comm, ← hr, drop_length_add_append]

theorem record_of_take (h : ∀ r ∈ rs, r.length = size) (hmem : mem.take (rs.length * size) = rs.flatten) {i : Nat}
    (hi : i < rs.length) : (mem.drop (i * size)).take size = rs[i] := by
  have hnext : i * size + size ≤ rs.length * size := by
    rw [← Nat.succ_mul]
    exact Nat.mul_le_mul_right _ hi
  have hdrop : (rs.drop i).flatten = rs[i] ++ (rs.drop (i + 1)).flatten := by
    rw [drop_eq_getElem_cons hi, flatten_cons]
  rw [drop_flatten_records h, ← hmem, drop_take] at hdrop
  have htake := congrArg (List.take size) hdrop
  rwa [take_take, Nat.min_eq_left (by omega), take_left' (h _ (getElem_mem hi))] at htake

end Records

end OaiNr.Memory
