import OaiNr.Threads.TimeSource

/-!
# Ticks and the end of the time source
-/

namespace OaiNr.Threads

variable {rate : Nat} {s s' : TimeSource} {e : TimeEvent}

@[simp] def SourcePc.pending : SourcePc → Nat
  | .unlock | .testBreak | .lockTick | .unlockTick | .tick => 1
  | _ => 0

@[simp] def SourcePc.ticking : SourcePc → Bool
  | .lockTick | .unlockTick | .tick => true
  | _ => false

def TimeSource.Leaving (s : TimeSource) : Prop :=
  s.exit = true ∧ (s.source = .unlock ∨ s.source = .testBreak ∨ s.source = .done)

structure TimeInv (rate : Nat) (s : TimeSource) : Prop where
  perSecond : s.iqSamplesPerSecond = rate ∨ s.iqSamplesPerSecond = 0 ∧ s.total = 0
  count : s.iqSamplesCount < 2 ^ 64
  mutex : s.source.holds = true → s.adder = .none
  taking : s.source = .take → s.exit = true ∨ ¬ s.TooFew
  waiting : s.source = .wait ∨ s.source = .blocked → s.adder = .signal ∨ s.TooFew
  bound : s.ticks * (rate / 1000) ≤ s.total
  account : s.Leaving ∨ ∃ wraps, (s.ticks + s.source.pending) * (rate / 1000) + s.iqSamplesCount + 2 ^ 64 * wraps = s.total
  unset : s.iqSamplesPerSecond = 0 → s.ticks = 0 ∧ s.source.ticking = false ∧ (s.source.pending = 1 → s.exit = true)
  ending : s.free ≠ .setExit → s.exit = true

theorem timeInv_new : TimeInv rate newTimeSource := by
  constructor <;> simp [newTimeSource]

variable (h : TimeInv rate s)
include h

theorem TimeInv.goto {pc : SourcePc} (hmutex : pc.holds = true → s.adder = .none)
    (htaking : pc = .take → s.exit = true ∨ ¬ s.TooFew)
    (hwaiting : pc = .wait ∨ pc = .blocked → s.adder = .signal ∨ s.TooFew)
    (hpending : (s.goto pc).Leaving ∨ ¬ s.Leaving ∧ pc.pending = s.source.pending)
    (hunset : s.iqSamplesPerSecond = 0 → pc.ticking = false ∧ (pc.pending = 1 → s.exit = true)) :
    TimeInv rate (s.goto pc) where
  perSecond := h.perSecond
  count := h.count
  mutex := hmutex
  taking := htaking
  waiting := hwaiting
  bound := h.bound
  account := by
    rcases hpending with hleaving | ⟨hleaving, heq⟩
    · exact .inl hleaving
    · refine .inr ?_
      rw [TimeSource.goto, heq]
      exact h.account.resolve_left hleaving
  unset := fun hzero => ⟨(h.unset hzero).1, hunset hzero⟩
  ending := h.ending

theorem TimeInv.take (hpc : s.source = .take) : TimeInv rate
    { s with iqSamplesCount := (s.iqSamplesCount + 2 ^ 64 - s.iqSamplesPerSecond / 1000) % 2 ^ 64, source := .unlock } := by
  have hcount := h.count
  have hmutex := h.mutex (by simp [hpc])
  rcases Bool.eq_false_or_eq_true s.exit with hexit | hexit
  · exact ⟨h.perSecond, Nat.mod_lt _ (by decide), fun _ => hmutex, by simp, by simp, h.bound,
      .inl ⟨hexit, .inl rfl⟩, fun hzero => ⟨(h.unset hzero).1, rfl, fun _ => hexit⟩, h.ending⟩
  · have hfew := (h.taking hpc).resolve_left (by simp [hexit])
    simp only [TimeSource.TooFew, not_or, Nat.not_lt] at hfew
    have hrate : s.iqSamplesPerSecond = rate := h.perSecond.resolve_right fun hzero => hfew.1 hzero.1
    obtain ⟨wraps, haccount⟩ := h.account.resolve_left (by simp [TimeSource.Leaving, hexit])
    rw [hpc] at haccount
    rw [hrate] at hfew ⊢
    have hless : (s.iqSamplesCount + 2 ^ 64 - rate / 1000) % 2 ^ 64 = s.iqSamplesCount - rate / 1000 := by omega
    refine ⟨.inl rfl, Nat.mod_lt _ (by decide), fun _ => hmutex, by simp, by simp, h.bound, .inr ⟨wraps, ?_⟩,
      fun hzero => absurd hzero hfew.1, h.ending⟩
    simp only [SourcePc.pending, hless, Nat.add_mul] at haccount ⊢
    omega

theorem TimeInv.tick (hpc : s.source = .tick) :
    TimeInv rate { s with ticks := s.ticks + 1, source := .loop } := by
  obtain ⟨wraps, haccount⟩ := h.account.resolve_left (by simp [TimeSource.Leaving, hpc])
  rw [hpc] at haccount
  refine ⟨h.perSecond, h.count, by simp, by simp, by simp, by simp at *; omega, .inr ⟨wraps, haccount⟩,
    fun hzero => ?_, h.ending⟩
  have := (h.unset hzero).2.1
  simp [hpc] at this

theorem TimeInv.source (hstep : s.sourceStep = some s') : TimeInv rate s' := by
  have hmutex := h.mutex
  have hwaiting := h.waiting
  have hunset := h.unset
  unfold TimeSource.sourceStep TimeSource.locked at hstep
  split at hstep
  case h_8 hpc =>
    cases hstep
    exact h.take hpc
  case h_13 hpc =>
    cases hstep
    exact h.tick hpc
  all_goals
    rename_i hpc
    simp only [Option.ite_none_right_eq_some, Option.some.injEq, reduceCtorEq] at hstep
  all_goals
    obtain ⟨hfree, rfl⟩ := hstep
    try split
    all_goals apply h.goto <;> simp_all [TimeSource.Leaving, TimeSource.goto]

omit h

theorem wake_cases (pc : SourcePc) : pc = .blocked ∧ pc.wake = .woken ∨ pc ≠ .blocked ∧ pc.wake = pc := by
  cases pc <;> simp [SourcePc.wake]

include h

theorem TimeInv.woken (hpc : s.source = .blocked) : TimeInv rate (s.goto .woken) := by
  apply h.goto <;> simp [hpc, TimeSource.Leaving]

theorem TimeInv.wake : TimeInv rate (s.goto s.source.wake) := by
  rcases wake_cases s.source with ⟨hpc, hwake⟩ | ⟨-, hwake⟩
  · rw [hwake]
    exact h.woken hpc
  · rw [hwake]
    exact h

theorem TimeInv.free (hstep : s.freeStep = some s') : TimeInv rate s' := by
  unfold TimeSource.freeStep at hstep
  split at hstep
  all_goals rename_i hpc
  · cases hstep
    exact ⟨h.perSecond, h.count, h.mutex, fun _ => .inl rfl, h.waiting, h.bound,
      h.account.imp (fun hleaving => ⟨rfl, hleaving.2⟩) id,
      fun hzero => ⟨(h.unset hzero).1, (h.unset hzero).2.1, fun _ => rfl⟩, fun _ => rfl⟩
  · cases hstep
    exact { h.wake with ending := fun _ => h.ending (by simp [hpc]) }
  · obtain ⟨-, hstep⟩ := Option.ite_none_right_eq_some.mp hstep
    cases hstep
    exact { h with ending := fun _ => h.ending (by simp [hpc]) }
  · cases hstep

theorem TimeInv.add (hstep : s.addStep rate = some s') : TimeInv rate s' := by
  have hidle : ∀ pc, s.adder = pc → pc ≠ .none → s.source.holds = false := fun pc hpc hne =>
    Bool.eq_false_iff.mpr fun hholds => hne (hpc.symm.trans (h.mutex hholds))
  unfold TimeSource.addStep at hstep
  split at hstep
  · cases hstep
  · next samples hpc =>
    have hholds := hidle _ hpc (by simp)
    cases hstep
    refine ⟨?_, Nat.mod_lt _ (by decide), fun hmutex => (nomatch hholds.symm.trans hmutex), ?_,
      fun _ => .inl rfl, ?_, ?_, ?_, h.ending⟩
    · rcases h.perSecond with hrate | ⟨hzero, -⟩ <;> simp [*]
    · intro (htake : s.source = .take)
      rw [htake] at hholds
      cases hholds
    · exact h.bound.trans (Nat.le_add_right _ _)
    · rcases h.account with hleaving | ⟨wraps, haccount⟩
      · exact .inl hleaving
      · refine .inr ⟨wraps + (s.iqSamplesCount + samples) / 2 ^ 64, ?_⟩
        simp only
        omega
    · intro hzero
      exact h.unset (by split at hzero <;> simp_all)
  · next hpc =>
    cases hstep
    have hholds := hidle _ hpc (by simp)
    have hwake := h.wake
    rcases wake_cases s.source with ⟨-, heq⟩ | ⟨hblocked, heq⟩
    · exact { hwake with mutex := by simp [heq], waiting := by simp [heq] }
    · refine { hwake with mutex := fun hmutex => ?_, waiting := fun hwait => ?_ }
      · rw [heq] at hmutex
        exact nomatch hholds.symm.trans hmutex
      · rw [heq] at hwait
        rw [hwait.resolve_right hblocked] at hholds
        cases hholds
  · next hpc =>
    cases hstep
    refine { h with mutex := fun _ => rfl, waiting := ?_ }
    exact fun hwait => .inr ((h.waiting hwait).resolve_left (by simp [hpc]))

omit h

theorem timeInv_run {es : List TimeEvent} (h : Interleave.run (timeStep rate) newTimeSource es = some s) :
    TimeInv rate s := by
  refine Interleave.run_invariant (fun s e s' hs hstep => ?_) timeInv_new h
  cases e with
  | source => exact hs.source hstep
  | free => exact hs.free hstep
  | adder => exact hs.add hstep
  | add samples =>
    obtain ⟨⟨hnone, hholds, -⟩, hstep⟩ := Option.ite_none_right_eq_some.mp hstep
    cases hstep
    refine { hs with mutex := fun hmutex => (nomatch hholds.symm.trans hmutex), waiting := ?_ }
    exact fun hwait => .inr ((hs.waiting hwait).resolve_left (by simp [hnone]))
  | spurious =>
    obtain ⟨hpc, hstep⟩ := Option.ite_none_right_eq_some.mp hstep
    cases hstep
    exact hs.woken hpc

/-- The call of `free_time_source` returns: the thread has few steps left, and nothing but a call that has the mutex
can hold it up. -/
def Finishes (rate : Nat) (s : TimeSource) : Prop :=
  ∀ es t, Interleave.run (timeStep rate) s es = some t →
    es.count .source ≤ 10 ∧ (t.free = .returned ∨ t.sourceStep.isSome ∨ t.freeStep.isSome ∨ t.adder ≠ .none)

def TimeSource.AboutToWait (s : TimeSource) : Prop := s.source = .wait ∨ s.source = .testCount ∧ s.TooFew

def SourcePc.left : SourcePc → Nat
  | .done => 0
  | .loop => 1
  | .tick => 2
  | .unlockTick => 3
  | .lockTick => 4
  | .testBreak => 5
  | .unlock => 6
  | .take => 7
  | .testCount | .testExit => 8
  | .lock | .woken => 9
  | .wait | .blocked => 10

structure Ending (s : TimeSource) : Prop where
  exit : s.exit = true
  free : s.free = .join ∨ s.free = .returned ∧ s.source = .done
  awake : s.source ≠ .blocked
  mutex : s.source.holds = true → s.adder = .none
  notWaiting : ¬ s.AboutToWait

theorem Ending.step (h : Ending s) (hstep : timeStep rate s e = some s') :
    Ending s' ∧ s'.source.left + (if e == .source then 1 else 0) ≤ s.source.left := by
  obtain ⟨hexit, hfree, hawake, hmutex, hwait⟩ := h
  have hwake : s.source.wake = s.source := ((wake_cases s.source).resolve_left fun hblocked => hawake hblocked.1).2
  cases e with
  | source =>
    simp only [timeStep, TimeSource.sourceStep, TimeSource.locked] at hstep
    split at hstep
    all_goals
      rename_i hpc
      simp only [Option.ite_none_right_eq_some, Option.some.injEq, reduceCtorEq] at hstep
    all_goals
      obtain ⟨hnone, rfl⟩ := hstep
      refine ⟨⟨?_, ?_, ?_, ?_, ?_⟩, ?_⟩ <;> simp_all [TimeSource.goto, TimeSource.AboutToWait, SourcePc.left]
  | free =>
    simp only [timeStep, TimeSource.freeStep] at hstep
    split at hstep
    all_goals rename_i hpc
    · simp [hpc] at hfree
    · simp [hpc] at hfree
    · obtain ⟨hdone, hstep⟩ := Option.ite_none_right_eq_some.mp hstep
      cases hstep
      exact ⟨⟨hexit, .inr ⟨rfl, hdone⟩, hawake, hmutex, hwait⟩, Nat.le_refl _⟩
    · cases hstep
  | add samples =>
    obtain ⟨⟨hnone, hholds, -⟩, hstep⟩ := Option.ite_none_right_eq_some.mp hstep
    cases hstep
    exact ⟨⟨hexit, hfree, hawake, fun hmutex => (nomatch hholds.symm.trans hmutex), hwait⟩, Nat.le_refl _⟩
  | adder =>
    have hidle : s.adder ≠ .none → s.source.holds = false := fun hne =>
      Bool.eq_false_iff.mpr fun hholds => hne (hmutex hholds)
    simp only [timeStep, TimeSource.addStep] at hstep
    split at hstep
    all_goals
      rename_i hpc
      cases hstep
    · have hholds := hidle (by simp [hpc])
      refine ⟨⟨hexit, hfree, hawake, fun hmutex => (nomatch hholds.symm.trans hmutex), ?_⟩, Nat.le_refl _⟩
      -- the thread has the mutex where it tests and where it goes to wait
      rintro (hsource | ⟨hsource, -⟩) <;> rw [show s.source = _ from hsource] at hholds <;> cases hholds
    · have hholds := hidle (by simp [hpc])
      simp only [hwake]
      exact ⟨⟨hexit, hfree, hawake, fun hmutex => (nomatch hholds.symm.trans hmutex), hwait⟩, Nat.le_refl _⟩
    · exact ⟨⟨hexit, hfree, hawake, fun _ => rfl, hwait⟩, Nat.le_refl _⟩
  | spurious => exact absurd (Option.ite_none_right_eq_some.mp hstep).1 hawake

theorem Ending.finishes (h : Ending s) : Finishes rate s := by
  have hkeep : ∀ s e s', Ending s → timeStep rate s e = some s' → Ending s' := fun _ _ _ hs hstep => (hs.step hstep).1
  intro es t hrun
  constructor
  · have hcount := Interleave.add_countP_le hkeep (· == .source) (fun s => -(s.source.left : Int))
      (fun _ _ _ hs hstep => by have := (hs.step hstep).2; omega) h hrun
    have hleft : s.source.left ≤ 10 := by cases s.source <;> simp [SourcePc.left]
    rw [List.count]
    omega
  · obtain ⟨-, hfree, hawake, -, -⟩ := Interleave.run_invariant hkeep h hrun
    rcases hfree with hfree | ⟨hfree, -⟩
    · by_cases hadder : t.adder = .none
      · cases hpc : t.source <;> simp_all [TimeSource.sourceStep, TimeSource.freeStep, TimeSource.locked]
      · exact .inr (.inr (.inr hadder))
    · exact .inl hfree

theorem not_finishes_of_aboutToWait (hfree : s.free = .join) (hadder : s.adder = .none) (hwait : s.AboutToWait) :
    ¬ Finishes rate s := by
  intro h
  rcases hwait with hpc | ⟨hpc, hfew⟩
  · have hblocked := (h [.source] (s.goto .blocked) (by simp [Interleave.run, timeStep, TimeSource.sourceStep, hpc])).2
    simp [TimeSource.goto, TimeSource.sourceStep, TimeSource.freeStep, hfree, hadder] at hblocked
  · have hblocked := (h [.source, .source] (s.goto .blocked)
      (by simp [Interleave.run, timeStep, TimeSource.sourceStep, TimeSource.goto, hpc, hfew])).2
    simp [TimeSource.goto, TimeSource.sourceStep, TimeSource.freeStep, hfree, hadder] at hblocked

/-- After any steps, the function has been called at most once for every millisecond of samples, and as often as that
when the thread waits and nothing is being added. When `free_time_source` signals, it returns from there on, if and only
if the thread is not about to wait. -/
theorem time_source_ticks_and_ends {rate : Nat} (hrate : 1000 ∣ rate) {es : List TimeEvent} {s : TimeSource}
    (hrun : Interleave.run (timeStep rate) newTimeSource es = some s) : s.ticks ≤ s.total / (rate / 1000) ∧
    (s.source = .blocked → s.adder = .none → s.total < 2 ^ 64 → s.ticks = s.total / (rate / 1000)) ∧
    (s.free = .signal → ∀ s', s.freeStep = some s' → (Finishes rate s' ↔ ¬ s.AboutToWait)) := by
  have hinv := timeInv_run hrun
  have hzero : rate / 1000 = 0 → s.ticks = 0 := fun hzero => by
    refine (hinv.unset ?_).1
    rcases hinv.perSecond with heq | ⟨heq, -⟩ <;> omega
  refine ⟨?_, fun hpc hadder htotal => ?_, fun hfree s' hstep => ?_⟩
  · rcases Nat.eq_zero_or_pos (rate / 1000) with hms | hms
    · simp [hzero hms]
    · exact (Nat.le_div_iff_mul_le hms).mpr hinv.bound
  · have hfew := (hinv.waiting (.inr hpc)).resolve_left (by simp [hadder])
    obtain ⟨wraps, haccount⟩ := hinv.account.resolve_left (by simp [TimeSource.Leaving, hpc])
    rw [hpc] at haccount
    rcases hinv.perSecond with heq | ⟨heq, hnone⟩
    · rcases hfew with hunset | hfew
      · simp [(hinv.unset hunset).1, ← heq, hunset]
      · rw [heq] at hfew
        refine (Nat.div_eq_of_lt_le ?_ ?_).symm <;>
          simp only [SourcePc.pending, Nat.add_zero, Nat.succ_mul] at haccount ⊢ <;> omega
    · simp [(hinv.unset heq).1, hnone]
  · simp only [TimeSource.freeStep, hfree, Option.some.injEq] at hstep
    have hexit := hinv.ending (by simp [hfree])
    rcases wake_cases s.source with ⟨hblocked, hwake⟩ | ⟨hblocked, hwake⟩ <;> rw [hwake] at hstep <;> subst hstep
    · refine iff_of_true (Ending.finishes ⟨hexit, .inl rfl, by simp, by simp, ?_⟩) ?_ <;>
        simp [TimeSource.AboutToWait, hblocked]
    · constructor
      · intro hfinishes hwait
        have hadder : s.adder = .none := hinv.mutex (by rcases hwait with hpc | ⟨hpc, -⟩ <;> simp [hpc])
        refine not_finishes_of_aboutToWait ?_ ?_ ?_ hfinishes
        exacts [rfl, hadder, hwait]
      · exact fun hwait => Ending.finishes ⟨hexit, .inl rfl, hblocked, hinv.mutex, hwait⟩

def quietEnd : List TimeEvent :=
  [.add 2500, .adder, .adder, .adder] ++ List.replicate 25 .source ++ [.free]

/-- The thread waits for samples when the signal is sent. -/
theorem ends_when_waiting : ∃ s, Interleave.run (timeStep 1000000) newTimeSource quietEnd = some s ∧ s.ticks = 2 ∧
    ∀ s', s.freeStep = some s' → Finishes 1000000 s' := by
  have hrun : Interleave.run (timeStep 1000000) newTimeSource quietEnd =
      some ⟨true, 500, 1000000, .blocked, .signal, .none, 2500, 2⟩ := by decide
  have hends := time_source_ticks_and_ends (by decide) hrun
  exact ⟨_, hrun, rfl, fun s' hs' => (hends.2.2 rfl s' hs').mpr (by simp [TimeSource.AboutToWait])⟩

/-- The thread has found the flag unset. It is set, and the signal is sent, before the thread waits: nothing wakes it up,
and `free_time_source` does not return. -/
theorem signal_before_wait : Interleave.run (timeStep 1000000) newTimeSource
    [.source, .source, .source, .free, .free, .source, .source] = some ⟨true, 0, 0, .blocked, .join, .none, 0, 0⟩ ∧
    TimeSource.sourceStep ⟨true, 0, 0, .blocked, .join, .none, 0, 0⟩ = none ∧
    TimeSource.freeStep ⟨true, 0, 0, .blocked, .join, .none, 0, 0⟩ = none := by
  decide

end OaiNr.Threads
