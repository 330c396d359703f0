import OaiNr.Lib.Fallible
import OaiNr.Ds.SpscQ

/-!
# The ring of the queue
-/

namespace OaiNr.Ds

open List

section Index

variable {cnt a i j : Nat}

theorem ring_mod (ha : a < cnt) (hi : i ≤ cnt) : (a + i) % cnt = if a + i < cnt then a + i else a + i - cnt := by
  split
  next h => exact Nat.mod_eq_of_lt h
  next h => rw [Nat.mod_eq_sub_mod (Nat.not_lt.mp h), Nat.mod_eq_of_lt (by omega)]

theorem ring_inj (ha : a < cnt) (hi : i < cnt) (hj : j < cnt) (h : (a + i) % cnt = (a + j) % cnt) : i = j := by
  rw [ring_mod ha (Nat.le_of_lt hi), ring_mod ha (Nat.le_of_lt hj)] at h
  split at h <;> split at h <;> omega

theorem ring_succ : ((a + i) % cnt + 1) % cnt = (a + (i + 1)) % cnt := by
  rw [Nat.mod_add_mod, Nat.add_assoc]

end Index

variable {cap : Nat} {q : SpscQ} {l : List (List UInt8)} {x : List UInt8}

structure Ring (cap : Nat) (q : SpscQ) (l : List (List UInt8)) : Prop where
  cnt_eq : q.cnt = cap + 1
  cnt_lt : q.cnt < 2 ^ 64
  size_lt : q.cnt * q.elsiz < 2 ^ 64
  room : q.buf.length = q.cnt * q.elsiz
  read_lt : q.readIdx < q.cnt
  write_eq : q.writeIdx = (q.readIdx + l.length) % q.cnt
  length_le : l.length ≤ cap
  slots : ∀ i (h : i < l.length), q.slot ((q.readIdx + i) % q.cnt) = l[i]

namespace Ring

variable (h : Ring cap q l)
include h

theorem cnt_pos : 0 < q.cnt := by
  rw [h.cnt_eq]
  exact Nat.succ_pos cap

theorem length_lt : l.length < q.cnt := by
  rw [h.cnt_eq]
  exact Nat.lt_succ_of_le h.length_le

theorem write_lt : q.writeIdx < q.cnt := by
  rw [h.write_eq]
  exact Nat.mod_lt _ h.cnt_pos

theorem next_eq {idx : Nat} (hidx : idx < q.cnt) : q.next idx = .ok ((idx + 1) % q.cnt) := by
  have hcnt := h.cnt_lt
  rw [SpscQ.next, if_neg (Nat.ne_of_gt h.cnt_pos), Nat.mod_eq_of_lt (show idx + 1 < 2 ^ 64 by omega)]

theorem address_lt {idx : Nat} (hidx : idx < q.cnt) :
    idx * q.elsiz + q.elsiz ≤ q.buf.length ∧ idx * q.elsiz % 2 ^ 64 = idx * q.elsiz := by
  have hle : idx * q.elsiz + q.elsiz ≤ q.cnt * q.elsiz := by
    rw [← Nat.succ_mul]
    exact Nat.mul_le_mul_right _ hidx
  have hlt := h.size_lt
  rw [h.room]
  exact ⟨hle, Nat.mod_eq_of_lt (by omega)⟩

theorem length_slot {idx : Nat} (hidx : idx < q.cnt) : (q.slot idx).length = q.elsiz := by
  have hle := (h.address_lt hidx).1
  rw [SpscQ.slot, length_take, length_drop]
  omega

theorem slot_ne {i : Nat} (hi : i < l.length) : (q.readIdx + i) % q.cnt ≠ q.writeIdx := by
  intro heq
  rw [h.write_eq] at heq
  have := ring_inj h.read_lt (Nat.lt_trans hi h.length_lt) h.length_lt heq
  omega

theorem empty_iff : q.writeIdx = q.readIdx ↔ l = [] := by
  have hread : (q.readIdx + 0) % q.cnt = q.readIdx := Nat.mod_eq_of_lt h.read_lt
  rw [h.write_eq, ← length_eq_zero_iff]
  constructor
  · intro heq
    exact ring_inj h.read_lt h.length_lt h.cnt_pos (heq.trans hread.symm)
  · intro hlen
    rw [hlen, hread]

theorem full_iff : (q.writeIdx + 1) % q.cnt = q.readIdx ↔ l.length = cap := by
  have hread := h.read_lt
  have hle := h.length_le
  rw [h.write_eq, ring_succ, ring_mod hread (by rw [h.cnt_eq]; omega)]
  rw [h.cnt_eq] at hread ⊢
  split <;> omega

theorem elements_eq : q.elements = l := by
  have hread := h.read_lt
  have hle := h.length_le
  have hcount : (q.writeIdx + q.cnt - q.readIdx) % q.cnt = l.length := by
    rw [h.write_eq, ring_mod hread (Nat.le_of_lt h.length_lt), h.cnt_eq]
    rw [h.cnt_eq] at hread
    split
    · rw [show q.readIdx + l.length + (cap + 1) - q.readIdx = l.length + (cap + 1) by omega, Nat.add_mod_right,
        Nat.mod_eq_of_lt (by omega)]
    · rw [show q.readIdx + l.length - (cap + 1) + (cap + 1) - q.readIdx = l.length by omega,
        Nat.mod_eq_of_lt (by omega)]
  rw [SpscQ.elements, hcount]
  refine ext_getElem (by simp) fun i hi hi' => ?_
  rw [getElem_map, getElem_range, h.slots i hi']

theorem write {n : Nat} {byte : UInt8} {buf : List UInt8} (hn : n < q.elsiz)
    (hbuf : Memory.writeAt q.buf (q.writeIdx * q.elsiz + n) [byte] = some buf) : Ring cap { q with buf := buf } l := by
  refine { h with room := (Memory.length_writeAt hbuf).trans h.room, slots := fun i hi => ?_ }
  rw [← h.slots i hi]
  refine Memory.drop_take_writeAt hbuf ?_
  rcases Nat.lt_or_gt_of_ne (h.slot_ne hi) with hlt | hlt
  · left
    have := Nat.mul_le_mul_right q.elsiz hlt
    rw [Nat.succ_mul] at this
    simp only
    omega
  · right
    have := Nat.mul_le_mul_right q.elsiz hlt
    rw [Nat.succ_mul] at this
    simp only [length_singleton]
    omega

omit h

theorem slot_write {n : Nat} {byte : UInt8} {buf : List UInt8}
    (hn : n < q.elsiz) (hbuf : Memory.writeAt q.buf (q.writeIdx * q.elsiz + n) [byte] = some buf) :
    (SpscQ.slot { q with buf := buf } q.writeIdx).take (n + 1) = (q.slot q.writeIdx).take n ++ [byte] := by
  have hend := Memory.drop_take_writeAt_end hbuf (Nat.le_add_right _ _)
  rw [Nat.add_sub_cancel_left] at hend
  rw [SpscQ.slot, SpscQ.slot, take_take, take_take, Nat.min_eq_left hn, Nat.min_eq_left (Nat.le_of_lt hn)]
  exact hend

theorem push (h : Ring cap q l) (hslot : q.slot q.writeIdx = x) (hroom : l.length < cap) :
    Ring cap { q with writeIdx := (q.writeIdx + 1) % q.cnt } (l ++ [x]) := by
  have hlength : (l ++ [x]).length = l.length + 1 := by rw [length_append, length_singleton]
  refine { h with write_eq := ?_, length_le := hlength ▸ hroom, slots := fun i hi => ?_ }
  · show (q.writeIdx + 1) % q.cnt = (q.readIdx + (l ++ [x]).length) % q.cnt
    rw [h.write_eq, ring_succ, hlength]
  · show q.slot ((q.readIdx + i) % q.cnt) = _
    rcases Nat.lt_or_ge i l.length with hlt | hge
    · rw [h.slots i hlt, getElem_append_left hlt]
    · obtain rfl : i = l.length := by omega
      rw [← h.write_eq, hslot, getElem_concat_length rfl]

theorem pop (h : Ring cap q (x :: l)) : Ring cap { q with readIdx := (q.readIdx + 1) % q.cnt } l := by
  refine { h with
    read_lt := Nat.mod_lt _ h.cnt_pos
    write_eq := ?_
    length_le := Nat.le_trans (Nat.le_succ _) h.length_le
    slots := fun i hi => ?_ }
  · show q.writeIdx = ((q.readIdx + 1) % q.cnt + l.length) % q.cnt
    rw [h.write_eq, length_cons, Nat.mod_add_mod, Nat.add_assoc, Nat.add_comm 1]
  · show q.slot (((q.readIdx + 1) % q.cnt + i) % q.cnt) = _
    rw [Nat.mod_add_mod, Nat.add_assoc, Nat.add_comm 1, h.slots (i + 1) (Nat.succ_lt_succ hi), getElem_cons_succ]

include h

theorem slot_read (hx : l.head? = some x) : q.slot q.readIdx = x := by
  obtain ⟨xs, rfl⟩ := List.head?_eq_some_iff.mp hx
  have hslot := h.slots 0 (Nat.succ_pos _)
  rwa [Nat.add_zero, Nat.mod_eq_of_lt h.read_lt] at hslot

theorem length_oldest (hx : l.head? = some x) : x.length = q.elsiz := by
  rw [← h.slot_read hx, h.length_slot h.read_lt]

theorem eq_oldest (hx : l.head? = some x) {seen : List UInt8} (hseen : seen = x.take seen.length)
    (hge : ¬ seen.length < q.elsiz) : seen = x := by
  rw [hseen, take_of_length_le]
  rw [h.length_oldest hx]
  omega

theorem readAt_oldest (hx : l.head? = some x) {seen : List UInt8}
    (hseen : seen = x.take seen.length) (hlt : seen.length < q.elsiz) :
    ∃ byte, Memory.readAt q.buf (q.readIdx * q.elsiz % 2 ^ 64 + seen.length) 1 = some byte ∧
      (seen ++ byte).length = seen.length + 1 ∧ seen ++ byte = x.take (seen ++ byte).length := by
  obtain ⟨hle, hmod⟩ := h.address_lt h.read_lt
  have hslot := h.slot_read hx
  have hone : ((q.buf.drop (q.readIdx * q.elsiz + seen.length)).take 1).length = 1 := by
    rw [length_take, length_drop]
    omega
  rw [hmod]
  refine ⟨_, Memory.readAt_eq_some.mpr ⟨by omega, rfl⟩, by rw [length_append, hone], ?_⟩
  have hbyte : (q.buf.drop (q.readIdx * q.elsiz + seen.length)).take 1 = (x.drop seen.length).take 1 := by
    rw [← hslot, SpscQ.slot, drop_take, drop_drop, take_take, Nat.min_eq_left (by omega)]
  rw [length_append, hone, hbyte, take_add, ← hseen]

end Ring

end OaiNr.Ds
