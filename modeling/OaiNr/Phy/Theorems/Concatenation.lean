import Mathlib.Algebra.BigOperators.Group.List.Basic
import Mathlib.Tactic.Ring
import OaiNr.Phy.Concatenation

/-!
# Where the bits of the code blocks go
-/

namespace OaiNr.Phy

open List WordArray

section Write

theorem testBit_segmentWord {w i j k : Nat} (f : Nat → Nat) :
    (segmentWord w f i j).testBit k = true ↔ k < w ∧ (f (i + k)).testBit j = true := by
  rw [segmentWord, Nat.testBit_ofBits]
  split
  · next h => simp [h]
  · next h => simp [h]

variable {w : Nat} {out : Nat → Nat} {f : Nat → Nat} {e base off j p : Nat}

theorem isSet_writeSegment (hw : 0 < w) (active : Bool) :
    IsSet w (writeSegment w f e (base * w) base active (out, off) j).1 p ↔ IsSet w out p ∨
      active = true ∧ off ≤ p ∧ base * w ≤ p - off ∧ p - off < base * w + w ∧ (f (p - off)).testBit j = true := by
  unfold writeSegment
  cases active with
  | false => simp
  | true =>
    have hoff := Nat.div_add_mod' off w
    have hword : segmentWord w f (base * w) j < 2 ^ w := Nat.ofBits_lt_two_pow _
    simp only [↓reduceIte, true_and]
    rw [isSet_orWord (Nat.mod_lt _ hw) hword, testBit_segmentWord, Nat.add_mul, Nat.add_assoc, hoff]
    refine or_congr_right ⟨?_, ?_⟩
    · rintro ⟨hle, hlt, hbit⟩
      rw [show base * w + (p - (base * w + off)) = p - off by omega] at hbit
      exact ⟨by omega, by omega, by omega, hbit⟩
    · rintro ⟨hle, hfrom, hto, hbit⟩
      refine ⟨by omega, by omega, ?_⟩
      rwa [show base * w + (p - (base * w + off)) = p - off by omega]

variable (out f e base off j p) in
theorem isSet_writeSegments (hw : 0 < w) (active : Bool) (n : Nat) :
    let s := (List.range' j n).foldl (writeSegment w f e (base * w) base active) (out, off)
    s.2 = off + n * e ∧ (IsSet w s.1 p ↔ IsSet w out p ∨ ∃ t < n, active = true ∧ off + t * e ≤ p ∧
      base * w ≤ p - (off + t * e) ∧ p - (off + t * e) < base * w + w ∧
      (f (p - (off + t * e))).testBit (j + t) = true) := by
  induction n generalizing out off j with
  | zero => simp
  | succ n ih =>
    rw [List.range'_succ, foldl_cons]
    obtain ⟨hoff, hbits⟩ := ih (writeSegment w f e (base * w) base active (out, off) j).1 (off + e) (j + 1)
    refine ⟨?_, ?_⟩
    · refine hoff.trans ?_
      ring
    · refine hbits.trans ?_
      rw [isSet_writeSegment hw, or_assoc]
      refine or_congr_right ⟨?_, ?_⟩
      · rintro (hfirst | ⟨t, ht, hrest⟩)
        · exact ⟨0, Nat.succ_pos n, by simpa using hfirst⟩
        · refine ⟨t + 1, Nat.succ_lt_succ ht, ?_⟩
          rwa [show off + (t + 1) * e = off + e + t * e by ring, show j + (t + 1) = j + 1 + t by omega]
      · rintro ⟨t, ht, hrest⟩
        cases t with
        | zero => exact .inl (by simpa using hrest)
        | succ t =>
          refine .inr ⟨t, Nat.lt_of_succ_lt_succ ht, ?_⟩
          rwa [show off + (t + 1) * e = off + e + t * e by ring, show j + (t + 1) = j + 1 + t by omega] at hrest

end Write

namespace TaskOutput

variable (t : TaskOutput)

def offset (j : Nat) : Nat :=
  if j < t.e2FirstSegment then t.eoffset + j * t.e
  else t.eoffset + t.e2FirstSegment * t.e + (j - t.e2FirstSegment) * t.e2

def bytes (j : Nat) : Nat → Nat := if j < t.e2FirstSegment then t.f else t.f2

structure Padded : Prop where
  f_zero : ∀ i, t.e ≤ i → t.f i = 0
  f2_zero : ∀ i, t.e2 ≤ i → t.f2 i = 0
  e_le : t.e ≤ t.e2
  first_le : t.e2FirstSegment ≤ t.nbSegments

end TaskOutput

variable {w : Nat} {t : TaskOutput} {out : Nat → Nat} {p : Nat}

theorem isSet_writeRound (hw : 0 < w) (h : t.Padded) (base : Nat) :
    IsSet w (writeRound w t out base) p ↔ IsSet w out p ∨ ∃ j < t.nbSegments, t.offset j ≤ p ∧
      base * w ≤ p - t.offset j ∧ p - t.offset j < base * w + w ∧ (t.bytes j (p - t.offset j)).testBit j = true := by
  have hfirst := h.first_le
  have hsegs := isSet_writeSegments out t.f t.e base t.eoffset 0 p hw (decide (base * w < t.e)) t.e2FirstSegment
  rw [← range_eq_range'] at hsegs
  unfold writeRound
  simp only
  generalize (List.range t.e2FirstSegment).foldl _ (out, t.eoffset) = s at hsegs
  obtain ⟨out₁, off₁⟩ := s
  obtain ⟨hoff, hbits⟩ := hsegs
  simp only at hoff hbits
  subst hoff
  obtain ⟨_, hbits₂⟩ := isSet_writeSegments out₁ t.f2 t.e2 base (t.eoffset + t.e2FirstSegment * t.e)
    t.e2FirstSegment p hw true (t.nbSegments - t.e2FirstSegment)
  rw [hbits₂, hbits, or_assoc]
  refine or_congr_right ⟨?_, ?_⟩
  · rintro (⟨j, hj, _, hrest⟩ | ⟨j, hj, _, hrest⟩)
    · refine ⟨j, by omega, ?_⟩
      rw [TaskOutput.offset, TaskOutput.bytes, if_pos hj, if_pos hj]
      simpa using hrest
    · refine ⟨t.e2FirstSegment + j, by omega, ?_⟩
      rw [TaskOutput.offset, TaskOutput.bytes, if_neg (by omega), if_neg (by omega), Nat.add_sub_cancel_left]
      exact hrest
  · rintro ⟨j, hj, hle, hfrom, hto, hbit⟩
    by_cases hfirst : j < t.e2FirstSegment
    · rw [TaskOutput.offset, if_pos hfirst] at hle hfrom hto hbit
      rw [TaskOutput.bytes, if_pos hfirst] at hbit
      have hactive : base * w < t.e := by
        by_contra hnot
        rw [h.f_zero _ (by omega), Nat.zero_testBit] at hbit
        exact Bool.false_ne_true hbit
      exact .inl ⟨j, hfirst, decide_eq_true hactive, hle, hfrom, hto, by simpa using hbit⟩
    · rw [TaskOutput.offset, if_neg hfirst] at hle hfrom hto hbit
      rw [TaskOutput.bytes, if_neg hfirst] at hbit
      refine .inr ⟨j - t.e2FirstSegment, by omega, rfl, hle, hfrom, hto, ?_⟩
      rwa [Nat.add_sub_cancel' (by omega)]

theorem isSet_writeRounds (hw : 0 < w) (h : t.Padded) (n : Nat) :
    IsSet w ((List.range n).foldl (writeRound w t) out) p ↔ IsSet w out p ∨ ∃ j < t.nbSegments,
      t.offset j ≤ p ∧ p - t.offset j < n * w ∧ (t.bytes j (p - t.offset j)).testBit j = true := by
  induction n with
  | zero => simp
  | succ n ih =>
    rw [range_succ, foldl_append, foldl_cons, foldl_nil, isSet_writeRound hw h, ih, or_assoc]
    refine or_congr_right ⟨?_, ?_⟩
    · rintro (⟨j, hj, hle, hto, hbit⟩ | ⟨j, hj, hle, _, hto, hbit⟩)
      · exact ⟨j, hj, hle, by rw [Nat.succ_mul]; omega, hbit⟩
      · exact ⟨j, hj, hle, by rwa [Nat.succ_mul], hbit⟩
    · rintro ⟨j, hj, hle, hto, hbit⟩
      rw [Nat.succ_mul] at hto
      rcases Nat.lt_or_ge (p - t.offset j) (n * w) with hlt | hge
      · exact .inl ⟨j, hj, hle, hlt, hbit⟩
      · exact .inr ⟨j, hj, hle, hge, hto, hbit⟩

theorem Simd.wordBits_pos (simd : Simd) : 0 < simd.wordBits := by
  cases simd <;> decide

theorem TaskOutput.Padded.bytes_zero (h : t.Padded) {i : Nat} (hi : t.e2 ≤ i) (j : Nat) : t.bytes j i = 0 := by
  unfold TaskOutput.bytes
  split
  · exact h.f_zero i (h.e_le.trans hi)
  · exact h.f2_zero i hi

theorem isSet_writeTaskOutput (simd : Simd) (h : t.Padded) :
    IsSet simd.wordBits (writeTaskOutput simd t out) p ↔ IsSet simd.wordBits out p ∨
      ∃ j < t.nbSegments, t.offset j ≤ p ∧ (t.bytes j (p - t.offset j)).testBit j = true := by
  have hw := simd.wordBits_pos
  rw [writeTaskOutput, isSet_writeRounds hw h]
  refine or_congr_right (exists_congr fun j => and_congr_right fun _ => and_congr_right fun _ => ?_)
  refine ⟨fun hbit => hbit.2, fun hbit => ⟨?_, hbit⟩⟩
  have hlt : p - t.offset j < t.e2 := by
    by_contra hnot
    rw [h.bytes_zero (Nat.not_lt.mp hnot), Nat.zero_testBit] at hbit
    exact Bool.false_ne_true hbit
  refine Nat.lt_of_lt_of_le hlt ?_
  have hup := Nat.lt_mul_div_succ (t.e2 + simd.wordBits - 1) hw
  rw [Nat.mul_succ, Nat.mul_comm] at hup
  omega

section Groups

def segmentStart (segE : Nat → Nat) (r : Nat) : Nat := ((List.range r).map segE).sum

structure OneStep (segE : Nat → Nat) (step low high : Nat) : Prop where
  eq : ∀ r, segE r = if r < step then low else high
  le : low ≤ high

section Start

variable (segE : Nat → Nat)

theorem segmentStart_succ (r : Nat) : segmentStart segE (r + 1) = segmentStart segE r + segE r := by
  simp [segmentStart, range_succ]

theorem segmentStart_const {m n v : Nat} (h : ∀ s < n, segE (m + s) = v) :
    segmentStart segE (m + n) = segmentStart segE m + n * v := by
  induction n with
  | zero => simp
  | succ n ih =>
    rw [← Nat.add_assoc, segmentStart_succ, ih fun s hs => h s (Nat.lt_succ_of_lt hs), h n (Nat.lt_succ_self n),
      Nat.succ_mul, Nat.add_assoc]

theorem segmentStart_mono {r r' : Nat} (h : r ≤ r') : segmentStart segE r ≤ segmentStart segE r' := by
  induction h with
  | refl => exact Nat.le_refl _
  | step _ ih =>
    rw [segmentStart_succ]
    exact ih.trans (Nat.le_add_right _ _)

end Start

variable {segE : Nat → Nat} {step low high first nb : Nat} {interleaved : Nat → Nat → Nat → Bool}

theorem OneStep.mono (h : OneStep segE step low high) {r r' : Nat} (hr : r ≤ r') : segE r ≤ segE r' := by
  have hle := h.le
  rw [h.eq, h.eq]
  split_ifs <;> omega

theorem OneStep.after (h : OneStep segE step low high) {r s r' : Nat} (hr : r ≤ s) (hne : segE s ≠ segE r)
    (hs : s ≤ r') : segE r' = segE s := by
  rw [h.eq, h.eq] at hne
  rw [h.eq, h.eq]
  split_ifs at * <;> omega

/-- The task has the lengths of the segments from `first` on. -/
structure HasLengths (segE : Nat → Nat) (first nb : Nat) (t : TaskOutput) : Prop where
  le : t.e2FirstSegment ≤ nb
  low : ∀ j < t.e2FirstSegment, segE (first + j) = t.e
  high : ∀ j < nb, t.e2FirstSegment ≤ j → segE (first + j) = t.e2
  e_le : t.e ≤ t.e2

variable (first nb interleaved) in
theorem groupTask_segE (h : OneStep segE step low high) :
    HasLengths segE first nb (groupTask interleaved segE first (first + nb)) := by
  simp only [groupTask, Nat.add_sub_cancel_left]
  cases hfind : (List.range' first nb).find? fun s => segE s != segE first with
  | none =>
    rw [List.find?_range'_eq_none] at hfind
    refine ⟨by simp, fun j hj => ?_, fun j hj hle => absurd hj (Nat.not_lt.mpr (by simpa using hle)), by simp⟩
    simpa using hfind (first + j) (by omega) (by simpa using hj)
  | some s =>
    obtain ⟨hne, hmem, hbefore⟩ := List.find?_range'_eq_some.mp hfind
    have hs := mem_range'_1.mp hmem
    have hne : segE s ≠ segE first := by simpa using hne
    refine ⟨by simp; omega, fun j hj => ?_, fun j hj hle => ?_, h.mono hs.1⟩
    · have hj : j < s - first := by simpa using hj
      simpa using hbefore (first + j) (by omega) (by omega)
    · have hle : s - first ≤ j := by simpa using hle
      exact h.after hs.1 hne (by omega)

theorem groupBytes_zero {e i : Nat} (hi : e ≤ i) : groupBytes interleaved e first nb i = 0 :=
  if_neg (Nat.not_lt.mpr hi)

theorem testBit_groupBytes {e i j : Nat} (hnb : nb ≤ 8) (hj : j < nb) :
    (groupBytes interleaved e first nb i).testBit j = true ↔ i < e ∧ interleaved e (first + j) i = true := by
  unfold groupBytes
  split
  · next hi =>
    rw [Nat.testBit_ofBits_lt _ j (by omega)]
    simp [hi, hj]
  · next hi => simp [hi]

theorem groupTask_padded (h : OneStep segE step low high) : (groupTask interleaved segE first (first + nb)).Padded := by
  have hlengths := groupTask_segE first nb interleaved h
  refine ⟨fun i hi => groupBytes_zero hi, fun i hi => groupBytes_zero hi, hlengths.e_le, ?_⟩
  simpa [groupTask] using hlengths.le

theorem HasLengths.offset {t : TaskOutput} (h : HasLengths segE first nb t)
    (hstart : t.eoffset = segmentStart segE first) {j : Nat} (hj : j < nb) :
    t.offset j = segmentStart segE (first + j) := by
  unfold TaskOutput.offset
  split
  · next hlt => rw [hstart, segmentStart_const segE fun s hs => h.low s (by omega)]
  · next hge =>
    have hge := Nat.not_lt.mp hge
    have hsum := segmentStart_const segE (m := first + t.e2FirstSegment) (n := j - t.e2FirstSegment) (v := t.e2)
      fun s hs => by
        rw [Nat.add_assoc]
        exact h.high _ (by omega) (by omega)
    rw [Nat.add_assoc, Nat.add_sub_cancel' hge] at hsum
    rw [hsum, segmentStart_const segE h.low, hstart]

theorem groupTask_offset (h : OneStep segE step low high) {j : Nat} (hj : j < nb) :
    (groupTask interleaved segE first (first + nb)).offset j = segmentStart segE (first + j) :=
  (groupTask_segE first nb interleaved h).offset rfl hj

theorem groupTask_bytes (h : OneStep segE step low high) (hnb : nb ≤ 8) {j : Nat} (hj : j < nb) (i : Nat) :
    ((groupTask interleaved segE first (first + nb)).bytes j i).testBit j = true ↔
      i < segE (first + j) ∧ interleaved (segE (first + j)) (first + j) i = true := by
  have hlengths := groupTask_segE first nb interleaved h
  unfold TaskOutput.bytes
  split
  · next hlt =>
    rw [hlengths.low j hlt]
    simp only [groupTask, Nat.add_sub_cancel_left]
    exact testBit_groupBytes hnb hj
  · next hge =>
    rw [hlengths.high j hj (Nat.not_lt.mp hge)]
    simp only [groupTask, Nat.add_sub_cancel_left]
    exact testBit_groupBytes hnb hj

/-- The bits that the segments from `first` on set -/
def SegmentBit (interleaved : Nat → Nat → Nat → Bool) (segE : Nat → Nat) (r p : Nat) : Prop :=
  segmentStart segE r ≤ p ∧ p - segmentStart segE r < segE r ∧
    interleaved (segE r) r (p - segmentStart segE r) = true

theorem isSet_writeGroups (simd : Simd) (h : OneStep segE step low high) {sizes : List Nat}
    (hsizes : ∀ n ∈ sizes, n ≤ 8) {out : Nat → Nat} {p : Nat} :
    IsSet simd.wordBits (writeGroups simd interleaved segE sizes first out) p ↔ IsSet simd.wordBits out p ∨
      ∃ j < sizes.sum, SegmentBit interleaved segE (first + j) p := by
  induction sizes generalizing first out with
  | nil => simp [writeGroups]
  | cons n sizes ih =>
    obtain ⟨hn, hsizes⟩ := forall_mem_cons.mp hsizes
    have htask : (groupTask interleaved segE first (first + n)).nbSegments = n :=
      Nat.add_sub_cancel_left first n
    rw [writeGroups, ih hsizes, isSet_writeTaskOutput simd (groupTask_padded h), htask, or_assoc, sum_cons]
    refine or_congr_right ⟨?_, ?_⟩
    · rintro (⟨j, hj, hle, hbit⟩ | ⟨j, hj, hbit⟩)
      · rw [groupTask_offset h hj] at hle hbit
        exact ⟨j, by omega, hle, (groupTask_bytes h hn hj _).mp hbit⟩
      · exact ⟨n + j, by omega, by rwa [← Nat.add_assoc]⟩
    · rintro ⟨j, hj, hbit⟩
      rcases Nat.lt_or_ge j n with hlt | hge
      · refine .inl ⟨j, hlt, ?_⟩
        rw [groupTask_offset h hlt]
        exact ⟨hbit.1, (groupTask_bytes h hn hlt _).mpr hbit.2⟩
      · refine .inr ⟨j - n, by omega, ?_⟩
        rwa [Nat.add_assoc, Nat.add_sub_cancel' hge]

theorem segmentBit_unique {r r' i : Nat} (hi : i < segE r)
    (h : SegmentBit interleaved segE r' (segmentStart segE r + i)) : r' = r := by
  have hr := segmentStart_succ segE r
  have hr' := segmentStart_succ segE r'
  obtain ⟨hle, hlt, _⟩ := h
  rcases Nat.lt_trichotomy r' r with hless | heq | hmore
  · have := segmentStart_mono segE (Nat.succ_le_of_lt hless)
    simp only [Nat.succ_eq_add_one] at this
    omega
  · exact heq
  · have := segmentStart_mono segE (Nat.succ_le_of_lt hmore)
    simp only [Nat.succ_eq_add_one] at this
    omega

end Groups

section Lengths

structure CodedBits where
  g : Nat
  c : Nat
  qm : Nat
  nl : Nat
  c_pos : 0 < c
  qm_pos : 0 < qm
  nl_pos : 0 < nl
  whole : qm * nl ∣ g

namespace CodedBits

variable (b : CodedBits)

def segE (r : Nat) : Nat := nrGetE b.g b.c b.qm b.nl r

def longer : Nat := b.g / (b.nl * b.qm) % b.c

theorem oneStep : OneStep b.segE (b.c - b.longer) (b.nl * b.qm * (b.g / (b.nl * b.qm * b.c)))
    (b.nl * b.qm * (b.g / (b.nl * b.qm * b.c) + 1)) := by
  refine ⟨fun r => ?_, Nat.mul_le_mul_left _ (Nat.le_succ _)⟩
  have hlonger : b.longer < b.c := Nat.mod_lt _ b.c_pos
  unfold segE nrGetE
  change (if r ≤ b.c - b.longer - 1 then _ else _) = _
  by_cases hr : r < b.c - b.longer
  · rw [if_pos hr, if_pos (by omega)]
  · rw [if_neg hr, if_neg (by omega)]

theorem segmentStart_c : segmentStart b.segE b.c = b.g := by
  have hlonger : b.longer < b.c := Nat.mod_lt _ b.c_pos
  obtain ⟨k, hk⟩ := b.whole
  have hpos : 0 < b.nl * b.qm := Nat.mul_pos b.nl_pos b.qm_pos
  have hk' : b.g / (b.nl * b.qm) = k := by
    rw [hk, Nat.mul_comm b.qm b.nl, Nat.mul_div_cancel_left _ hpos]
  have hq : b.g / (b.nl * b.qm * b.c) = k / b.c := by rw [← Nat.div_div_eq_div_mul, hk']
  have hlow : segmentStart b.segE (b.c - b.longer) = (b.c - b.longer) * (b.nl * b.qm * (k / b.c)) := by
    have hconst := segmentStart_const b.segE (m := 0) (n := b.c - b.longer) fun s hs => by
      rw [b.oneStep.eq, if_pos (by omega), hq]
    simpa [segmentStart] using hconst
  have hhigh := segmentStart_const b.segE (m := b.c - b.longer) (n := b.longer) fun s hs => by
    rw [b.oneStep.eq, if_neg (by omega), hq]
  rw [Nat.sub_add_cancel (Nat.le_of_lt hlonger), hlow] at hhigh
  have hlongerEq : b.longer = k % b.c := by rw [longer, hk']
  have hdiv := Nat.div_add_mod k b.c
  rw [hhigh, Nat.mul_succ, Nat.mul_add, ← Nat.add_assoc, ← Nat.add_mul, Nat.sub_add_cancel (Nat.le_of_lt hlonger), hk]
  calc b.c * (b.nl * b.qm * (k / b.c)) + b.longer * (b.nl * b.qm)
      = b.qm * b.nl * (b.c * (k / b.c) + b.longer) := by ring
    _ = b.qm * b.nl * k := by rw [hlongerEq, hdiv]

end CodedBits

structure TaskSplit (c : Nat) where
  sizes : List Nat
  size_le : ∀ n ∈ sizes, n ≤ 8
  sum_sizes : sizes.sum = c

/-- The split of `nrLDPC_launch_TB_encoding`: eight segments for a task, and the rest for the last one -/
def TaskSplit.eights (c : Nat) : TaskSplit c where
  sizes := (List.range ((c + 7) / 8)).map fun j => min (8 * j + 8) c - 8 * j
  size_le n hn := by
    obtain ⟨j, _, rfl⟩ := mem_map.mp hn
    omega
  sum_sizes := by
    have hsum : ∀ n, 8 * n ≤ c + 7 → ((List.range n).map fun j => min (8 * j + 8) c - 8 * j).sum = min (8 * n) c := by
      intro n hn
      induction n with
      | zero => simp
      | succ n ih =>
        rw [range_succ, map_append, sum_append, ih (by omega)]
        simp only [map_cons, map_nil, sum_cons, sum_nil]
        omega
    rw [hsum _ (by omega)]
    omega

/-- The lengths of the segments make up the whole, and the output has the bits of the segments one after
the other, however they are split into tasks. -/
theorem code_blocks_concatenated (b : CodedBits) :
    ((List.range b.c).map b.segE).sum = b.g ∧ (∀ r, b.qm * b.nl ∣ b.segE r) ∧
    (∃ step low high, OneStep b.segE step low high) ∧
    ∀ (simd : Simd) (interleaved : Nat → Nat → Nat → Bool) (split : TaskSplit b.c) (r : Fin b.c) (i : Fin (b.segE r)),
      IsSet simd.wordBits (writeGroups simd interleaved b.segE split.sizes 0 fun _ => 0)
        (((List.range r).map b.segE).sum + i) ↔ interleaved (b.segE r) r i = true := by
  refine ⟨b.segmentStart_c, fun r => ?_, ⟨_, _, _, b.oneStep⟩, fun simd interleaved split r i => ?_⟩
  · rw [b.oneStep.eq, Nat.mul_comm b.qm b.nl]
    split <;> exact Nat.dvd_mul_right _ _
  · rw [isSet_writeGroups simd b.oneStep split.size_le, split.sum_sizes, or_iff_right (isSet_zero _ _)]
    simp only [Nat.zero_add]
    change (∃ j < b.c, SegmentBit interleaved b.segE j (segmentStart b.segE r + i)) ↔ _
    constructor
    · rintro ⟨j, _, hbit⟩
      obtain rfl := segmentBit_unique i.isLt hbit
      simpa using hbit.2.2
    · intro hbit
      exact ⟨r, r.isLt, Nat.le_add_right _ _, by simp, by simpa using hbit⟩

end Lengths

end OaiNr.Phy
