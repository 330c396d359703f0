import OaiNr.Lib.Fallible
import OaiNr.Rlc.AmStatus
import OaiNr.Rlc.Lemmas.Codec

/-!
# The size of a status report
-/

namespace OaiNr.Rlc.Am

open Bits

variable {e : Am} {m : Missing} {w : StatusWriter} {maxsize size : Nat}

structure Filled (w : StatusWriter) (maxsize size : Nat) : Prop where
  byte : w.encoder.byte = size
  bit : w.encoder.bit = 0
  length : w.encoder.buffer.length = maxsize
  full : w.encoder.full = false

theorem Filled.forceSoEnd (h : Filled w maxsize size) : Filled (forceSoEnd w) maxsize size := by
  unfold Am.forceSoEnd
  split
  · exact h
  · exact ⟨h.byte, h.bit, by simpa using h.length, h.full⟩

section

variable (hlen : e.snFieldLength = 12 ∨ e.snFieldLength = 18)

include hlen

theorem Filled.putNack {snStart soStart snEnd soEnd : Int} (h : Filled w maxsize size)
    (hroom : size + e.nackSize snStart soStart snEnd soEnd ≤ maxsize) (snCount : Int) :
    Filled (e.putNack w snStart soStart snEnd soEnd snCount) maxsize
      (size + e.nackSize snStart soStart snEnd soEnd) := by
  obtain ⟨hbyte, hbit, hlength, hfull⟩ := h
  have hput : ∃ l n, (e.putNack w snStart soStart snEnd soEnd snCount).encoder = Encoder.putList n l ∧
      l.length = 8 * e.nackSize snStart soStart snEnd soEnd ∧ n.byte = size ∧ n.bit = 0 ∧ n.buffer.length = maxsize ∧
      n.full = false := by
    unfold Am.putNack nackSize
    by_cases hso : soStart = 0 ∧ soEnd = 0xffff <;> by_cases hsn : snStart = snEnd
    all_goals
      simp only [hso, hsn, ↓reduceIte, and_self, ne_eq, not_true, one_ne_zero, not_false_eq_true, Encoder.putBits_eq,
        ← Encoder.putList_append]
      refine ⟨_, _, rfl, ?_, hbyte, hbit, by simpa using hlength, hfull⟩
      simp only [List.length_append, length_toBits]
      split_ifs <;> omega
  obtain ⟨l, n, heq, hl, rfl, hbit, rfl, hfull⟩ := hput
  have hw := Encoder.putList_wrote (n := n) (l := l) (by omega) (by omega)
  have hpos := hw.pos
  have hlt := hw.bit_lt
  exact ⟨by rw [heq]; omega, by rw [heq]; omega, by rw [heq]; exact hw.length, by rw [heq, hw.full, hfull]⟩

theorem bits_div (snStart soStart snEnd soEnd : Int) : (e.snFieldLength + 3 + (if e.snFieldLength = 18 then 3 else 1) +
      (if soStart = 0 ∧ soEnd = 0xffff then 0 else 16 * 2) + (if snStart = snEnd then 0 else 8)) / 8 =
        e.nackSize snStart soStart snEnd soEnd := by
  unfold nackSize
  split_ifs <;> omega

theorem missingSizeLoop_filled (h : Filled w maxsize size) (turns : Nat) (snCount snStart lastNack : Int)
    (rangeCount : Nat) :
    let g := e.generateMissingLoop m turns snCount snStart lastNack w
    let s := e.missingSizeLoop m maxsize turns snCount snStart rangeCount size
    Filled g.1 maxsize s.2.1 ∧ s.2.2 = (if g.2.1 then [] else m.next) ∧
      (rangeCount ≠ 0 ∨ snCount ≠ 0 ∧ turns ≠ 0 → s.1 ≠ 0 ∨ s.2.2 = []) := by
  induction turns generalizing snCount snStart lastNack rangeCount size w with
  | zero => exact ⟨h, rfl, fun hpos => .inl (by simpa [missingSizeLoop] using hpos)⟩
  | succ turns ih =>
    simp only [generateMissingLoop, missingSizeLoop, bits_div hlen, h.byte, h.length]
    by_cases hzero : snCount = 0
    · simp only [if_pos hzero]
      exact ⟨h, rfl, fun hpos => .inl (by simpa [hzero] using hpos)⟩
    · simp only [if_neg hzero]
      generalize (if snStart = m.snStart then m.soStart else 0) = soStart
      generalize (if min snCount 255 = snCount then m.snEnd else (snStart + 254) % e.snModulus) = snEnd
      generalize (if min snCount 255 = snCount then m.soEnd else 0xffff) = soEnd
      by_cases hroom : maxsize < size + e.nackSize snStart soStart snEnd soEnd
      · simp only [gt_iff_lt, if_pos hroom]
        exact ⟨h, rfl, fun _ => .inr trivial⟩
      · simp only [gt_iff_lt, if_neg hroom]
        obtain ⟨hf, hnext, hcount⟩ := ih (h.putNack hlen (Nat.le_of_not_lt hroom) _) _ _ _ (rangeCount + 1)
        exact ⟨hf, hnext, fun _ => hcount (.inl (by omega))⟩

theorem missingSize_filled (hmod : 0 < e.snModulus) (h : Filled w maxsize size) : let g := e.generateMissing m w
    let s := e.missingSize m size maxsize
    Filled g.1 maxsize s.2.1 ∧ s.2.2 = (if g.2.1 then [] else m.next) ∧ (s.1 ≠ 0 ∨ s.2.2 = []) := by
  have hpos := Int.emod_nonneg (m.snEnd - m.snStart + e.snModulus) (Int.ne_of_gt hmod)
  obtain ⟨hf, hnext, hcount⟩ := missingSizeLoop_filled hlen h (m := m) _ _ m.snStart (-1) 0
  exact ⟨hf, hnext, hcount (.inr ⟨by omega, by omega⟩)⟩

/-- The writer of `generate_status` has as many bytes as `status_size` counts, or both fail. -/
inductive Agree (maxsize : Nat) : Except Fault (Int × StatusWriter) → Except Fault Nat → Prop where
  | error (f : Fault) : Agree maxsize (.error f) (.error f)
  | ok {w : StatusWriter} {size : Nat} (lastNack : Int) (h : Filled w maxsize size) :
      Agree maxsize (.ok (lastNack, w)) (.ok size)

theorem statusSizeLoop_agree (hmod : 0 < e.snModulus) (fuel turns : Nat) {cur : List Pdu} {nackCount : Nat}
    {checkHead : Bool} (lastNack : Int) (h : Filled w maxsize size)
    (hhead : cur ≠ [] → checkHead = decide (nackCount = 0)) :
    Agree maxsize (e.generateStatusLoop fuel turns cur checkHead lastNack w)
      (e.statusSizeLoop fuel maxsize turns cur nackCount size) := by
  induction turns generalizing cur nackCount checkHead lastNack size w with
  | zero =>
    cases cur with
    | nil => exact .ok _ h
    | cons cur rest => exact .error _
  | succ turns ih =>
    cases cur with
    | nil => exact .ok _ h
    | cons cur rest =>
      obtain rfl := hhead (List.cons_ne_nil _ _)
      simp only [generateStatusLoop, statusSizeLoop]
      cases e.nextMissing fuel cur rest (decide (nackCount = 0)) with
      | error f => exact .error f
      | ok m =>
        simp only
        by_cases hnone : m.snStart = -1
        · simp only [if_pos hnone]
          exact .ok _ h
        · obtain ⟨hf, hnext, hcount⟩ := missingSize_filled (m := m) hlen hmod h
          simp only [if_neg hnone, hnext] at hcount ⊢
          refine ih _ ?_ fun hne => (decide_eq_false ?_).symm
          · split
            · exact hf.forceSoEnd
            · exact hf
          · have := hcount.resolve_right hne
            omega

/-- `status_size` says how many bytes `generate_status` will write. -/
theorem statusSize_eq_generateStatus (hmod : 0 < e.snModulus) (fuel : Nat) (buffer : List UInt8) :
    e.statusSize fuel buffer.length = (e.generateStatus fuel buffer).map (·.2.2) := by
  unfold statusSize generateStatus
  by_cases hsmall : buffer.length < 3
  · simp [hsmall, Except.map]
  · simp only [if_neg hsmall]
    cases e.getFirstRxPdu fuel with
    | error f => rfl
    | ok cur =>
      have hinit : Filled ⟨(Encoder.init buffer).putBits 0 (8 * 3), 2, if e.snFieldLength = 18 then 1 else 7, none⟩
          buffer.length 3 := by
        obtain ⟨hbyte, hbit, hfull, hlength, -⟩ := Encoder.putList_init buffer (length_toBits (8 * 3) 0) (by omega)
        rw [Encoder.putBits_eq]
        exact ⟨hbyte, hbit, hlength, hfull⟩
      have hhead : cur ≠ [] → true = decide (0 = 0) := fun _ => rfl
      have hagree := statusSizeLoop_agree hlen hmod fuel fuel ((e.rxNext - 1 + e.snModulus) % e.snModulus) hinit hhead
      simp only [ok_bind]
      generalize generateStatusLoop _ _ _ _ _ _ _ = g at hagree ⊢
      generalize statusSizeLoop _ _ _ _ _ _ _ = s at hagree ⊢
      cases hagree with
      | error f => rfl
      | ok lastNack h => simp [ok_bind, h.full, h.byte, Except.map, pure, Except.pure]

end

/-- Five SDUs are missing before one that was received. -/
theorem status_of_gap :
    let e := { newNrRlcEntityAm .test1 with
      rxHighestStatus := 6
      rx := (newNrRlcEntityAm .test1).rx.addPdu (nrRlcNewPdu 5 0 true true [1]) }
    e.statusSize 10 6 = .ok 6 ∧ (e.generateStatus 10 (List.replicate 6 0)).map (·.2.2) = .ok 6 := by
  intro e
  have hsize : e.statusSize 10 6 = .ok 6 := by decide
  exact ⟨hsize, (statusSize_eq_generateStatus (.inl rfl) (by decide) 10 (List.replicate 6 0)).symm.trans hsize⟩

end OaiNr.Rlc.Am
