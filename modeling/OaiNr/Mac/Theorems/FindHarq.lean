import Mathlib.Data.List.TakeWhile
import OaiNr.Mac.Lemmas.Harq

/-!
# The process that some feedback is for

`find_harq` tells the past from the future by two comparisons modulo 1024 frames. Neither holds for feedback that is
exactly half a cycle away.
-/

namespace OaiNr.Mac.Harq

variable {h : Harq} {n roundMax : Nat} {av fb rt : List Nat}

def Before (frame slot frame' slot' : Nat) : Prop :=
  0 < (frame' + 1024 - frame) % 1024 ∧ (frame' + 1024 - frame) % 1024 < 512 ∨ frame = frame' ∧ slot < slot'

theorem past_iff {p : Process} {frame slot : Nat} (hf : frame < 1024) (hp : p.feedbackFrame < 1024) :
    Process.past p frame slot ↔ Before p.feedbackFrame p.feedbackSlot frame slot := by
  simp only [Process.past, frameBefore, Before, Bool.or_eq_true, Bool.and_eq_true, decide_eq_true_eq, beq_iff_eq]
  omega

theorem future_iff {p : Process} {frame slot : Nat} (hf : frame < 1024) (hp : p.feedbackFrame < 1024) :
    Process.future p frame slot ↔ Before frame slot p.feedbackFrame p.feedbackSlot := by
  simp only [Process.future, frameBefore, Before, Bool.or_eq_true, Bool.and_eq_true, decide_eq_true_eq, beq_iff_eq]
  omega

/-- Neither in the past nor in the future is what has the time itself, and what is half a cycle away. -/
theorem not_before_iff {frame slot frame' slot' : Nat} (hf : frame < 1024) (hf' : frame' < 1024)
    (hpast : ¬ Before frame slot frame' slot') (hfuture : ¬ Before frame' slot' frame slot) :
    frame = frame' ∧ slot = slot' ↔ (frame + 512) % 1024 ≠ frame' := by
  unfold Before at hpast hfuture
  omega

/-- `find_harq` handles the processes of the past in front, and takes none if the next one is in the future. The process
that it returns is the one of this slot if and only if its feedback is not half a cycle away. -/
theorem findHarq_exact_iff (hR : 0 < roundMax) (I : h.Held n roundMax [] av fb rt) (frame slot : Nat)
    (hframe : frame < 1024) (hfb : ∀ x ∈ fb, (h.processes x).feedbackFrame < 1024) :
    let rest := fb.dropWhile fun x => Process.past (h.processes x) frame slot
    ∃ found h' av' rt' handled, h.findHarq roundMax frame slot (h.feedback.len + 1) = .ok (found, h') ∧
      fb = handled ++ rest ∧ h'.Held n roundMax [] av' rest rt' ∧
      (∀ x ∈ handled, Before (h.processes x).feedbackFrame (h.processes x).feedbackSlot frame slot) ∧
      (found = false ↔ ∀ x ∈ rest.head?, Before frame slot (h.processes x).feedbackFrame (h.processes x).feedbackSlot) ∧
      ((found = true → ∀ x ∈ rest.head?, (h.processes x).feedbackFrame = frame ∧ (h.processes x).feedbackSlot = slot) ↔
        ∀ x ∈ rest.head?, ((h.processes x).feedbackFrame + 512) % 1024 ≠ frame) := by
  obtain ⟨h', av', rt', hrun, I', -⟩ := I.findHarq hR frame slot I.length_feedback_lt fun _ _ => rfl
  have hsplit := (List.takeWhile_append_dropWhile (p := fun i => Process.past (h.processes i) frame slot) (l := fb)).symm
  refine ⟨_, h', av', rt', _, hrun, hsplit, I', fun x hx => ?_, ?_⟩
  · have hmem : x ∈ fb := (List.takeWhile_prefix _).subset hx
    exact (past_iff hframe (hfb x hmem)).mp (@List.mem_takeWhile_imp _
      (fun i => Process.past (h.processes i) frame slot) _ _ hx)
  · rw [show fb.dropWhile _ = Held.due h.processes frame slot fb from rfl]
    cases hdue : Held.due h.processes frame slot fb with
    | nil => simp
    | cons x rest =>
      have hx : (h.processes x).feedbackFrame < 1024 :=
        hfb x ((List.dropWhile_suffix _).subset (hdue ▸ List.mem_cons_self : x ∈ Held.due h.processes frame slot fb))
      have hpast : Process.past (h.processes x) frame slot = false := by
        simpa [show fb.dropWhile _ = x :: rest from hdue] using
          List.head?_dropWhile_not (fun i => Process.past (h.processes i) frame slot) fb
      rw [← Bool.not_eq_true, past_iff hframe hx] at hpast
      simp only [List.head?_cons, Option.any_some, Option.mem_some_iff, forall_eq', Bool.not_eq_false', Bool.not_eq_true',
        ← Bool.not_eq_true (Process.future _ _ _), future_iff hframe hx, true_and]
      by_cases hfuture : Before frame slot (h.processes x).feedbackFrame (h.processes x).feedbackSlot
      · simp only [hfuture, not_true, false_imp_iff, true_iff]
        unfold Before at hfuture
        omega
      · simpa only [hfuture, not_false_eq_true, true_imp_iff] using not_before_iff hx hframe hpast hfuture

/-- Feedback that is due in the slot is found. -/
theorem findHarq_of_one : ∃ h : Harq, h.Held 2 4 [] [1] [0] [] ∧ ∃ h' av' rt',
    h.findHarq 4 5 3 (h.feedback.len + 1) = .ok (true, h') ∧ h'.Held 2 4 [] av' [0] rt' ∧
      (h.processes 0).feedbackFrame = 5 ∧ (h.processes 0).feedbackSlot = 3 := by
  obtain ⟨h₀, -, I₀⟩ := createList_zero (n := 2) 4 (by decide)
  obtain ⟨l, -, I₁⟩ := I₀.popAvailable (by decide)
  obtain ⟨h, -, I, hp⟩ := I₁.await (f := fun p => { p with feedbackFrame := 5, feedbackSlot := 3, isWaiting := true })
    fun p => ⟨rfl, rfl⟩
  have hdue : [0].dropWhile (fun x => Process.past (h.processes x) 5 3) = [0] := by
    simp [hp, Process.past, frameBefore]
  have hspec := findHarq_exact_iff (by decide) I 5 3 (by decide) (by simp [hp])
  simp only [List.nil_append, hdue, List.head?_cons, Option.mem_some_iff, forall_eq'] at hspec
  obtain ⟨found, h', av', rt', _, hrun, -, I', -, hfound, hexact⟩ := hspec
  cases found with
  | false =>
    have := hfound.mp rfl
    simp [hp, Before] at this
  | true => exact ⟨h, I, h', av', rt', hrun, I', hexact.mpr (by simp [hp]) rfl⟩

/-- A grant whose feedback is due in frame 512 is found in frame 0. -/
theorem feedback_half_a_cycle_away : (do
    let h ← (← Harq.zero.createDlList 2).setupDl (-1) (some (512, 3)) false
    let (found, h) ← h.findHarq 4 0 3 3
    return (found, h.feedback.head, (h.processes 0).feedbackFrame)) = (.ok (true, 0, 512) : Except Fault _) := by
  decide +kernel

end OaiNr.Mac.Harq
