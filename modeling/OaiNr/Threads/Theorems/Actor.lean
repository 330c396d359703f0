import OaiNr.Threads.Actor

/-!
# What the actor processes
-/

namespace OaiNr.Threads

open List Interleave

variable {s s' t : Actor} {m : ActorMsg} {e : ActorEvent} {es : List ActorEvent}

@[simp] def ActorPc.current : ActorPc → List ActorMsg
  | .process m => [m]
  | _ => []

structure ShutDown (s : Actor) (call : Nat) : Prop where
  last : ∃ before, s.processed = before ++ [.shutdown call] ∧ ∀ call', .shutdown call' ∉ before
  thread : s.thread = .done ∨ s.thread = .respond (.shutdown call)
  fifo : s.fifo = []

structure ActorInv (s : Actor) : Prop where
  order : ∃ dropped, s.processed ++ s.thread.current ++ s.fifo ++ dropped = s.pushed ∧
    (s.abortFIFO = false → dropped = [])
  nodup : s.pushed.Nodup
  terminate : s.terminate = s.abortFIFO
  shut : s.abortFIFO = true → ∃ call, ShutDown s call
  alive : s.abortFIFO = false → s.thread ≠ .done ∧ ∀ call, .shutdown call ∉ s.processed
  sound : s.thread ≠ .failed
  last : ∀ m, s.thread = .respond m → ∃ before, s.processed = before ++ [m]
  responded : ∀ m ∈ s.processed, m.isCall = true → s.thread = .respond m ∨ m ∈ s.responses
  answered : ∀ m ∈ s.responses, m ∈ s.processed

theorem actorInv_init : ActorInv initActor := by
  constructor <;> simp [initActor]

theorem ActorInv.push (h : ActorInv s) (hnew : m ∉ s.pushed) : ActorInv (s.pushNotifiedFIFO m) := by
  obtain ⟨dropped, horder, hnone⟩ := h.order
  refine { h with order := ?_, nodup := ?_, shut := ?_ }
  · rw [Actor.pushNotifiedFIFO, ← horder]
    cases hab : s.abortFIFO with
    | true => exact ⟨dropped ++ [m], by simp, by simp⟩
    | false => exact ⟨[], by simp [hnone hab], by simp⟩
  · refine nodup_append.mpr ⟨h.nodup, by simp, fun a ha b hb heq => ?_⟩
    rw [mem_singleton.mp hb] at heq
    exact hnew (heq ▸ ha)
  · intro (hab : s.abortFIFO = true)
    obtain ⟨call, hshut⟩ := h.shut hab
    exact ⟨call, { hshut with fifo := by simpa [Actor.pushNotifiedFIFO, hab] using hshut.fifo }⟩

theorem ActorInv.running (h : ActorInv s) (hdone : s.thread ≠ .done) (hrespond : ∀ m, s.thread ≠ .respond m) :
    s.abortFIFO = false :=
  Bool.eq_false_iff.mpr fun hab => by
    obtain ⟨call, hshut⟩ := h.shut hab
    exact hshut.thread.elim hdone (hrespond _)

theorem ActorInv.process (h : ActorInv s) (hpc : s.thread = .process m) : ActorInv (s.process m) := by
  obtain ⟨dropped, horder, hnone⟩ := h.order
  have hab := h.running (by simp [hpc]) (by simp [hpc])
  have hdrop := hnone hab
  have halive := (h.alive hab).2
  have hresponded : ∀ m' ∈ s.processed ++ [m], m'.isCall = true → .respond m = ActorPc.respond m' ∨ m' ∈ s.responses := by
    intro m' hm' hcall
    rcases mem_append.mp hm' with hm' | hm'
    · exact .inr ((h.responded m' hm' hcall).resolve_left (by simp [hpc]))
    · simp [mem_singleton.mp hm']
  have hanswered : ∀ m' ∈ s.responses, m' ∈ s.processed ++ [m] := fun m' hm' => by simp [h.answered m' hm']
  rw [hpc, hdrop] at horder
  cases m with
  | shutdown call =>
    exact ⟨⟨s.fifo, by simpa [Actor.process] using horder, by simp [Actor.process]⟩, h.nodup, rfl,
      fun _ => ⟨call, ⟨s.processed, rfl, halive⟩, .inr rfl, rfl⟩, by simp [Actor.process], by simp [Actor.process],
      by simp [Actor.process], hresponded, hanswered⟩
  | _ =>
    exact ⟨⟨[], by simpa [Actor.process] using horder, fun _ => rfl⟩, h.nodup, h.terminate,
      fun hab' => (nomatch hab.symm.trans hab'), fun _ => by simpa [Actor.process] using halive, by simp [Actor.process],
      by simp [Actor.process], hresponded, hanswered⟩

theorem ActorInv.respond (h : ActorInv s) (hpc : s.thread = .respond m) : ActorInv (s.respond m) := by
  obtain ⟨dropped, horder, hnone⟩ := h.order
  obtain ⟨before, hlast⟩ := h.last m hpc
  have hanswer : ∀ m' ∈ (s.respond m).responses, m' ∈ s.processed := by
    intro m' hm'
    simp only [Actor.respond] at hm'
    split at hm'
    · rcases mem_cons.mp hm' with rfl | hm'
      · simp [hlast]
      · exact h.answered m' hm'
    · exact h.answered m' hm'
  refine ⟨⟨dropped, ?_, hnone⟩, h.nodup, h.terminate, ?_, ?_, ?_, ?_, ?_, hanswer⟩
  · rw [hpc] at horder
    simp only [Actor.respond]
    split <;> exact horder
  · intro hab
    obtain ⟨call, hshut⟩ := h.shut hab
    exact ⟨call, hshut.last, .inl (by simp [Actor.respond, h.terminate, show s.abortFIFO = true from hab]), hshut.fifo⟩
  · intro hab
    exact ⟨by simp [Actor.respond, h.terminate, show s.abortFIFO = false from hab], (h.alive hab).2⟩
  · simp only [Actor.respond]
    split <;> simp
  · intro m' hm'
    simp only [Actor.respond] at hm'
    split at hm' <;> cases hm'
  · intro m' hm' hcall
    rcases h.responded m' hm' hcall with heq | hmem
    · cases hpc.symm.trans heq
      simp [Actor.respond, hcall]
    · refine .inr ?_
      simp only [Actor.respond]
      split <;> simp [hmem]

theorem ActorInv.thread (h : ActorInv s) (hstep : s.threadStep = some s') : ActorInv s' := by
  unfold Actor.threadStep at hstep
  split at hstep
  · next hpc =>
    obtain ⟨dropped, horder, hnone⟩ := h.order
    have hab := h.running (by simp [hpc]) (by simp [hpc])
    have halive := (h.alive hab).2
    rw [Actor.pullNotifiedFIFO, if_neg (by simp [hab])] at hstep
    split at hstep
    · cases hstep
    · next m fifo hfifo =>
      cases hstep
      rw [hpc, hfifo] at horder
      refine { h with
        order := ⟨dropped, by simpa using horder, hnone⟩, shut := fun hab' => (nomatch hab.symm.trans hab'),
        alive := fun _ => ⟨by simp, halive⟩, sound := by simp, last := by simp, responded := fun m hm hcall => .inr ?_ }
      exact (h.responded m hm hcall).resolve_left (by simp [hpc])
  · next m hpc =>
    cases hstep
    exact h.process hpc
  · next m hpc =>
    cases hstep
    exact h.respond hpc
  · cases hstep
  · cases hstep

theorem ActorInv.step (h : ActorInv s) (hstep : actorStep s e = some s') : ActorInv s' := by
  cases e with
  | push m =>
    obtain ⟨hnew, hstep⟩ := Option.ite_none_left_eq_some.mp hstep
    cases hstep
    exact h.push hnew
  | thread => exact h.thread hstep

section Position

variable {before after : List ActorMsg}

theorem ActorInv.isPrefix (h : ActorInv s) : s.processed <+: s.pushed := by
  obtain ⟨dropped, horder, -⟩ := h.order
  rw [← horder, append_assoc, append_assoc]
  exact prefix_append _ _

theorem ActorInv.prefix_of_mem (h : ActorInv s) (hpushed : before ++ m :: after = s.pushed) (hm : m ∈ s.processed) :
    before ++ [m] <+: s.processed := by
  have hmessage : before ++ [m] <+: s.pushed := ⟨after, by simp [← hpushed]⟩
  refine prefix_of_prefix_length_le hmessage h.isPrefix (Nat.le_of_not_lt fun hlt => ?_)
  have hbefore : s.processed <+: before :=
    prefix_of_prefix_length_le h.isPrefix ⟨m :: after, hpushed⟩ (by simpa [Nat.lt_succ_iff] using hlt)
  have hnodup := h.nodup
  rw [← hpushed, nodup_append] at hnodup
  exact hnodup.2.2 m (hbefore.subset hm) m (by simp) rfl

theorem ActorInv.mem_of_lt (h : ActorInv s) (hpushed : before ++ m :: after = s.pushed)
    (hlt : before.length < s.processed.length) : m ∈ s.processed := by
  have hmessage : before ++ [m] <+: s.pushed := ⟨after, by simp [← hpushed]⟩
  exact (prefix_of_prefix_length_le hmessage h.isPrefix (by simpa [Nat.succ_le_iff] using hlt)).subset (by simp)

/-- Nothing is processed after the message that aborts the FIFO. -/
theorem ActorInv.not_shutdown (h : ActorInv s) (hpushed : before ++ m :: after = s.pushed) (hm : m ∈ s.processed)
    (call : Nat) : .shutdown call ∉ before := by
  intro hcall
  have hprefix := h.prefix_of_mem hpushed hm
  have hmem : .shutdown call ∈ s.processed := hprefix.subset (by simp [hcall])
  cases hab : s.abortFIFO with
  | false => exact (h.alive hab).2 call hmem
  | true =>
    obtain ⟨_, ⟨first, hfirst, hnone⟩, -, -⟩ := h.shut hab
    have hlen := hprefix.length_le
    have hbefore : before <+: first := by
      refine prefix_of_prefix_length_le ((prefix_append before [m]).trans hprefix) ?_ ?_
      · exact hfirst ▸ prefix_append _ _
      · simpa [hfirst] using hlen
    exact hnone call (hbefore.subset hcall)

end Position

section Return

def Actor.progress (s : Actor) : Nat :=
  match s.thread with
  | .process _ => 3 * s.processed.length + 1
  | .respond _ => 3 * s.processed.length - 1
  | _ => 3 * s.processed.length

theorem process_thread : (s.process m).thread = .respond m := by cases m <;> rfl

theorem process_processed : (s.process m).processed = s.processed ++ [m] := by cases m <;> rfl

theorem ActorInv.progress (h : ActorInv s) (hstep : actorStep s e = some s') :
    s.progress + (if e == .thread then 1 else 0) ≤ s'.progress := by
  cases e with
  | push m =>
    obtain ⟨-, hstep⟩ := Option.ite_none_left_eq_some.mp hstep
    cases hstep
    exact Nat.le_refl _
  | thread =>
    simp only [actorStep, Actor.threadStep] at hstep
    split at hstep
    · next hpc =>
      have hab := h.running (by simp [hpc]) (by simp [hpc])
      rw [Actor.pullNotifiedFIFO, if_neg (by simp [hab])] at hstep
      split at hstep <;> cases hstep
      simp [Actor.progress, hpc]
    · next m hpc =>
      cases hstep
      simp [Actor.progress, process_thread, process_processed, hpc]
      omega
    · next m hpc =>
      cases hstep
      obtain ⟨before, hlast⟩ := h.last m hpc
      have hlen : s.processed.length = before.length + 1 := by simp [hlast]
      by_cases hterminate : s.terminate = true
      all_goals
        simp only [Actor.progress, Actor.respond, hpc, hterminate, hlen, beq_self_eq_true, if_true, Bool.false_eq_true,
          if_false]
        omega
    · cases hstep
    · cases hstep

variable {before after : List ActorMsg}

theorem ActorInv.returned (h : ActorInv s) (hpushed : before ++ m :: after = s.pushed) (hcall : m.isCall = true)
    (hprogress : 3 * (before.length + 1) ≤ s.progress) : s.Returned m := by
  have hnot : s.thread ≠ .respond m := fun hpc => by
    obtain ⟨first, hfirst⟩ := h.last m hpc
    have hprefix := h.prefix_of_mem hpushed (by simp [hfirst])
    have hnodup := h.isPrefix.sublist.nodup h.nodup
    simp only [Actor.progress, hpc, hfirst, length_append, length_singleton] at hprogress
    rw [hfirst] at hprefix hnodup
    have hbefore : before ++ [m] <+: first :=
      prefix_of_prefix_length_le hprefix (prefix_append _ _) (by simp; omega)
    exact (nodup_append.mp hnodup).2.2 m (hbefore.subset (by simp)) m (by simp) rfl
  have hlt : before.length < s.processed.length := by
    unfold Actor.progress at hprogress
    split at hprogress <;> omega
  have hm := h.mem_of_lt hpushed hlt
  have hresponse := (h.responded m hm hcall).resolve_left hnot
  cases m with
  | job => cases hcall
  | flush call => exact hresponse
  | shutdown call =>
    refine ⟨hresponse, ?_⟩
    cases hab : s.abortFIFO with
    | false => exact absurd hm ((h.alive hab).2 call)
    | true =>
      obtain ⟨call', ⟨first, hfirst, hnone⟩, hthread, -⟩ := h.shut hab
      rw [hfirst, mem_append, mem_singleton] at hm
      rw [← hm.resolve_left (hnone call)] at hthread
      exact hthread.resolve_right hnot

theorem ActorInv.isSome (h : ActorInv s) (hpushed : before ++ m :: after = s.pushed)
    (hshut : ∀ call, .shutdown call ∉ before) (hprogress : s.progress < 3 * (before.length + 1)) :
    s.threadStep.isSome := by
  unfold Actor.progress at hprogress
  unfold Actor.threadStep
  cases hpc : s.thread with
  | process m => rfl
  | respond m => rfl
  | failed => exact absurd hpc h.sound
  | pull =>
    have hab := h.running (by simp [hpc]) (by simp [hpc])
    obtain ⟨dropped, horder, hnone⟩ := h.order
    simp only [hpc] at hprogress
    cases hfifo : s.fifo with
    | nil =>
      have hlen := congrArg List.length (horder.trans hpushed.symm)
      simp [hpc, hfifo, hnone hab] at hlen
      omega
    | cons m fifo => simp [Actor.pullNotifiedFIFO, hab, hfifo]
  | done =>
    simp only [hpc] at hprogress
    cases hab : s.abortFIFO with
    | false => exact absurd hpc (h.alive hab).1
    | true =>
      obtain ⟨call, ⟨first, hfirst, -⟩, -, -⟩ := h.shut hab
      have hbefore : s.processed <+: before :=
        prefix_of_prefix_length_le h.isPrefix ⟨m :: after, hpushed⟩ (by omega)
      exact absurd (hbefore.subset (by simp [hfirst])) (hshut call)

end Return

theorem pushed_grows {before : List ActorMsg} (hstep : actorStep s e = some s')
    (h : ∃ after, before ++ m :: after = s.pushed) : ∃ after, before ++ m :: after = s'.pushed := by
  obtain ⟨after, hpushed⟩ := h
  cases e with
  | push m' =>
    obtain ⟨-, hstep⟩ := Option.ite_none_left_eq_some.mp hstep
    cases hstep
    exact ⟨after ++ [m'], by simp [Actor.pushNotifiedFIFO, ← hpushed]⟩
  | thread =>
    refine ⟨after, hpushed.trans ?_⟩
    simp only [actorStep, Actor.threadStep, Actor.pullNotifiedFIFO, Actor.process, Actor.respond] at hstep
    split at hstep <;> try split at hstep
    all_goals try split at hstep
    all_goals cases hstep
    all_goals rfl

/-- The messages are processed in the order in which they were pushed, and none twice. A call is answered after every
message that was pushed before its own. It returns, if and only if `shutdown_actor` has not pushed its message before. -/
theorem actor_processes_in_order (hrun : run actorStep initActor es = some s) :
    (s.processed <+: s.pushed ∧ s.pushed.Nodup) ∧
    (∀ m before after, s.Returned m → before ++ m :: after = s.pushed → before ⊆ s.processed) ∧
    ∀ m before after, m.isCall = true → before ++ m :: after = s.pushed →
      (Reaches actorStep .thread (·.Returned m) s ↔ ∀ call, .shutdown call ∉ before) := by
  have hkeep : ∀ s e s', ActorInv s → actorStep s e = some s' → ActorInv s' := fun _ _ _ hs hstep => hs.step hstep
  have hinv := run_invariant hkeep actorInv_init hrun
  have hreturned : ∀ {t : Actor} {m}, ActorInv t → t.Returned m → m ∈ t.processed := by
    intro t m ht hm
    cases m with
    | job => exact hm.elim
    | flush call => exact ht.answered _ hm
    | shutdown call => exact ht.answered _ hm.1
  refine ⟨⟨hinv.isPrefix, hinv.nodup⟩, ?_, ?_⟩
  · intro m before after hm hpushed
    exact fun m' hm' => (hinv.prefix_of_mem hpushed (hreturned hinv hm)).subset (by simp [hm'])
  · intro m before after hcall hpushed
    have hlater : ∀ {es t}, run actorStep s es = some t → ActorInv t ∧ ∃ after, before ++ m :: after = t.pushed := by
      intro es t ht
      refine @run_invariant _ _ actorStep (fun t => ActorInv t ∧ ∃ after, before ++ m :: after = t.pushed) s t es ?_
        ⟨hinv, after, hpushed⟩ ht
      exact fun _ _ _ hs hstep => ⟨hs.1.step hstep, pushed_grows hstep hs.2⟩
    constructor
    · intro hreaches call hmem
      refine not_reaches (fun es t ht hm => ?_) hreaches
      obtain ⟨htinv, after', hpushed'⟩ := hlater ht
      exact htinv.not_shutdown hpushed' (hreturned htinv hm) call hmem
    · intro hshut
      refine ⟨3 * (before.length + 1), fun es t ht => ?_⟩
      obtain ⟨htinv, after', hpushed'⟩ := hlater ht
      rcases Nat.lt_or_ge t.progress (3 * (before.length + 1)) with hless | hmore
      · have hcount := add_countP_le hkeep (· == .thread) (Actor.progress ·)
          (fun _ _ _ hs hstep => by have := hs.progress hstep; omega) hinv ht
        exact .inr ⟨by rw [List.count]; omega, htinv.isSome hpushed' hshut hless⟩
      · exact .inl (htinv.returned hpushed' hcall hmore)

/-- A job and a flush are pushed: the flush returns, and it does after the job. -/
theorem flush_waits_for_job : ∃ s t, run actorStep initActor [.push (.job 0 0), .push (.flush 0)] = some s ∧
    Reaches actorStep .thread (·.Returned (.flush 0)) s ∧ run actorStep s (List.replicate 6 .thread) = some t ∧
    t.Returned (.flush 0) ∧ [.job 0 0] ⊆ t.processed ∧ t.processed <+: t.pushed := by
  have hpushed : run actorStep initActor [.push (.job 0 0), .push (.flush 0)] =
      some ⟨[.job 0 0, .flush 0], false, false, .pull, [], [.job 0 0, .flush 0], []⟩ := by decide
  have hrun : run actorStep initActor ([.push (.job 0 0), .push (.flush 0)] ++ List.replicate 6 .thread) =
      some ⟨[], false, false, .pull, [.flush 0], [.job 0 0, .flush 0], [.job 0 0, .flush 0]⟩ := by decide
  have hreturned : Actor.Returned ⟨[], false, false, .pull, [.flush 0], [.job 0 0, .flush 0], [.job 0 0, .flush 0]⟩
    (.flush 0) := by simp [Actor.Returned]
  obtain ⟨⟨horder, -⟩, hbefore, -⟩ := actor_processes_in_order hrun
  exact ⟨_, _, hpushed, ((actor_processes_in_order hpushed).2.2 (.flush 0) [.job 0 0] [] rfl rfl).mpr (by simp),
    by decide, hreturned, hbefore (.flush 0) [.job 0 0] [] hreturned rfl, horder⟩

/-- A call of `flush_actor` pushes its message while that of `shutdown_actor` is processed: the message is dropped, the
thread ends, and the call waits for ever. -/
theorem flush_during_shutdown : ∃ s, run actorStep initActor
    [.push (.shutdown 0), .thread, .push (.flush 1), .thread, .thread] = some s ∧
    s.thread = .done ∧ .flush 1 ∈ s.pushed ∧ .flush 1 ∉ s.responses ∧ s.threadStep = none :=
  ⟨⟨[], true, true, .done, [.shutdown 0], [.shutdown 0, .flush 1], [.shutdown 0]⟩, by decide, by decide⟩

end OaiNr.Threads
