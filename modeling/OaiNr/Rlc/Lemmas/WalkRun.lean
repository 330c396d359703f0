import Mathlib.Data.List.Perm.Subperm
import OaiNr.Rlc.Lemmas.SegOrder

/-!
# What the walk keeps, whatever the NACKs are
-/

namespace OaiNr.Rlc

open List Am

namespace Walk

variable {e : Am} {ackSn : Int} {bs : List NackBlock} {n : Nack} {w w' : Walk} {f : Flow} {l : List Segment}

theorem freeAcked_freed (e : Am) (x : Segment) : (e.freeAcked x).heap.freed = x :: e.heap.freed := by
  rw [freeAcked_heap]
  rfl

theorem nackedEntity_freed (e : Am) (x : Segment) : (nackedEntity e x).heap.freed = e.heap.freed := by
  show (e.countRetx x).heap.freed = _
  rw [countRetx_heap]
  rfl

theorem ackedRetxEntity_freed (e : Am) (x : Segment) :
    (ackedRetxEntity e x).heap.freed = x :: e.heap.freed := freeAcked_freed _ x

theorem Step.sameSn (h : Step ackSn n w f w') : w.entity.SameSn w'.entity := by
  cases h with
  | waitNacked => exact nackedEntity_sameSn ..
  | waitAcked => exact freeAcked_sameSn ..
  | retxAcked => exact ackedRetxEntity_sameSn ..
  | _ => exact SameSn.refl _

/-- One change of the walk for a status PDU with the blocks `bs`, seen from the entity `e`. -/
inductive Move (e : Am) (ackSn : Int) (bs : List NackBlock) (w : Walk) : Walk → Prop where
  | step {b : NackBlock} {n : Nack} {f : Flow} {w' : Walk} :
      b ∈ bs → n ∈ e.expand b → Step ackSn n w f w' → Move e ackSn bs w w'
  | poll {b : NackBlock} : b ∈ bs → Move e ackSn bs w (w.stopPollOnNack b)
  | ackWait {c : Segment} {cs : List Segment} : w.curWait = c :: cs →
      w.entity.snCompareTx (w.entity.snOf c) ackSn < 0 →
      Move e ackSn bs w { w.unlinkWait c cs with entity := w.entity.freeAcked c }
  | ackRetx {r : Segment} {rs : List Segment} : w.curRetx = r :: rs →
      w.entity.snCompareTx (w.entity.snOf r) ackSn < 0 →
      Move e ackSn bs w { w with entity := ackedRetxEntity w.entity r, curRetx := rs }

section Run

variable {P : Walk → Prop}

variable (hP : ∀ w w', P w → Move e ackSn bs w w' → P w')
include hP

theorem processNacks_run (hm : w.entity.snModulus = e.snModulus) (h : P w) {l : List NackBlock} (hl : ∀ b ∈ l, b ∈ bs) :
    P (processNacks ackSn l w) := by
  induction l generalizing w with
  | nil => exact h
  | cons b l ih =>
    have hb := hl b mem_cons_self
    have hexp : w.entity.expand b = e.expand b := by rw [expand, expand, hm]
    -- the modulus does not change on the way
    have hrange : P (processRange ackSn (e.expand b) w) ∧
        (processRange ackSn (e.expand b) w).entity.snModulus = e.snModulus :=
      processRange_run (P := fun v => P v ∧ v.entity.snModulus = e.snModulus)
        (fun n hn {v f v'} hv hs => ⟨hP v v' hv.1 (.step hb hn hs), hs.sameSn.snModulus.trans hv.2⟩)
        ⟨h, hm⟩
    rw [processNacks, hexp]
    exact ih hrange.2 (hP _ _ hrange.1 (.poll hb)) fun b hb => hl b (mem_cons_of_mem _ hb)

theorem ackWait_run (h : P w) (hcur : w.curWait = l) : P (ackWait ackSn l w) := by
  induction l generalizing w with
  | nil => exact h
  | cons x l ih =>
    rw [ackWait]
    split
    · exact ih (hP _ _ h (.ackWait hcur ‹_›)) rfl
    · exact h

theorem ackRetx_run (h : P w) (hcur : w.curRetx = l) : P (ackRetx ackSn l w) := by
  induction l generalizing w with
  | nil => exact h
  | cons x l ih =>
    rw [ackRetx]
    split
    · exact ih (hP _ _ h (.ackRetx hcur ‹_›)) rfl
    · exact h

theorem walkStatus_run (h : P (.init (e.stopPollOnAck ackSn))) : P (e.walkStatus ackSn bs) :=
  ackRetx_run hP (ackWait_run hP (processNacks_run hP rfl h fun _ hb => hb) rfl) rfl

end Run

/-! ## The poll timer -/

theorem freeAcked_timer (e : Am) (x : Segment) : (e.freeAcked x).tPollRetransmitStart = e.tPollRetransmitStart ∧
      (e.freeAcked x).pollSn = e.pollSn := by
  simp only [freeAcked]
  split <;> exact ⟨rfl, rfl⟩

theorem countRetx_timer (e : Am) (x : Segment) : (e.countRetx x).tPollRetransmitStart = e.tPollRetransmitStart ∧
      (e.countRetx x).pollSn = e.pollSn := by
  simp only [countRetx]
  split <;> exact ⟨rfl, rfl⟩

theorem Step.timer (h : Step ackSn n w f w') : w'.entity.tPollRetransmitStart = w.entity.tPollRetransmitStart ∧
      w'.entity.pollSn = w.entity.pollSn := by
  cases h with
  | waitNacked => exact countRetx_timer ..
  | waitAcked => exact freeAcked_timer ..
  | retxAcked => exact freeAcked_timer ..
  | _ => exact ⟨rfl, rfl⟩

theorem SameSn.nacksPoll {e' : Am} (h : e.SameSn e') (hp : e'.pollSn = e.pollSn) (b : NackBlock) :
    e'.NacksPoll b ↔ e.NacksPoll b := by
  rw [NacksPoll, NacksPoll, hp, h.snCompareTx, h.snCompareTx, h.snModulus]

theorem processNacks_timer (hs : e.SameSn w.entity) (hp : w.entity.pollSn = e.pollSn)
    (l : List NackBlock) : (processNacks ackSn l w).entity.tPollRetransmitStart =
      if ∃ b ∈ l, e.NacksPoll b then 0 else w.entity.tPollRetransmitStart := by
  induction l generalizing w with
  | nil => simp [processNacks]
  | cons b l ih =>
    have hrange : e.SameSn (processRange ackSn (w.entity.expand b) w).entity ∧
        (processRange ackSn (w.entity.expand b) w).entity.pollSn = e.pollSn ∧
        (processRange ackSn (w.entity.expand b) w).entity.tPollRetransmitStart = w.entity.tPollRetransmitStart :=
      processRange_run (P := fun v => e.SameSn v.entity ∧ v.entity.pollSn = e.pollSn ∧
          v.entity.tPollRetransmitStart = w.entity.tPollRetransmitStart)
        (fun _ _ _ _ _ hv hstep =>
          ⟨hv.1.trans hstep.sameSn, hstep.timer.2.trans hv.2.1, hstep.timer.1.trans hv.2.2⟩)
        ⟨hs, hp, rfl⟩
    obtain ⟨hs₁, hp₁, ht₁⟩ := hrange
    have ih₁ := ih (w := (processRange ackSn (w.entity.expand b) w).stopPollOnNack b)
      ⟨hs₁.txNextAck, hs₁.snModulus, hs₁.sn⟩ hp₁
    rw [processNacks, ih₁]
    simp only [stopPollOnNack, SameSn.nacksPoll hs₁ hp₁, ht₁, mem_cons, exists_eq_or_imp]
    by_cases hb : e.NacksPoll b
    · simp [hb]
    · simp [hb]

theorem ackWait_timer (ackSn : Int) (l : List Segment) (w : Walk) :
    (ackWait ackSn l w).entity.tPollRetransmitStart = w.entity.tPollRetransmitStart := by
  induction l generalizing w with
  | nil => rfl
  | cons x l ih =>
    rw [ackWait]
    split
    · rw [ih]
      exact (freeAcked_timer ..).1
    · rfl

theorem ackRetx_timer (ackSn : Int) (l : List Segment) (w : Walk) :
    (ackRetx ackSn l w).entity.tPollRetransmitStart = w.entity.tPollRetransmitStart := by
  induction l generalizing w with
  | nil => rfl
  | cons x l ih =>
    rw [ackRetx]
    split
    · rw [ih]
      exact (freeAcked_timer ..).1
    · rfl

theorem walkStatus_timer (e : Am) (ackSn : Int) (bs : List NackBlock) :
    (e.walkStatus ackSn bs).entity.tPollRetransmitStart =
      if e.snCompareTx e.pollSn ackSn < 0 ∨ ∃ b ∈ bs, e.NacksPoll b then 0 else e.tPollRetransmitStart := by
  rw [walkStatus, ackRetx_timer, ackWait_timer, processNacks_timer (e := e) ⟨rfl, rfl, fun _ => rfl⟩ rfl]
  show (if _ then _ else if e.snCompareTx e.pollSn ackSn < 0 then 0 else e.tPollRetransmitStart) = _
  by_cases h1 : e.snCompareTx e.pollSn ackSn < 0 <;> simp [h1]

/-! ## Where the segments go -/

def live (w : Walk) : List Segment :=
  w.waitDone ++ w.curWait ++ w.waitTail ++ (w.newRetx ++ w.curRetx)

structure Sound (e : Am) (w : Walk) : Prop where
  same : e.SameSn w.entity
  segCount : w.entity.heap.segCount = e.heap.segCount
  sduCount : w.entity.heap.sduCount = e.heap.sduCount
  waitEnd : w.entity.waitEnd = e.waitEnd
  wait : (w.waitDone ++ w.curWait ++ w.waitTail).Subperm e.waitList
  live : w.live.Subperm (e.waitList ++ e.retransmitList)
  nodes : (w.live ++ w.entity.heap.freed).Subperm (e.waitList ++ e.retransmitList ++ e.heap.freed)
  endWait : ∀ o ∈ w.endWait, ∀ x ∈ o, x ∈ e.waitList

theorem Sound.init (e : Am) (ackSn : Int) : Sound e (.init (e.stopPollOnAck ackSn)) where
  same := ⟨rfl, rfl, fun _ => rfl⟩
  segCount := rfl
  sduCount := rfl
  waitEnd := rfl
  wait := (List.Perm.of_eq (by simp [Walk.init, stopPollOnAck])).subperm
  live := (List.Perm.of_eq (by simp [Walk.init, Walk.live, stopPollOnAck])).subperm
  nodes := (List.Perm.of_eq (by simp [Walk.init, Walk.live, stopPollOnAck])).subperm
  endWait := by intro o ho; simp [Walk.init] at ho

theorem freeAcked_counts (e : Am) (x : Segment) : (e.freeAcked x).heap.segCount = e.heap.segCount ∧
      (e.freeAcked x).heap.sduCount = e.heap.sduCount ∧ (e.freeAcked x).waitEnd = e.waitEnd := by
  refine ⟨by rw [freeAcked_heap]; rfl, by rw [freeAcked_heap]; rfl, ?_⟩
  simp only [freeAcked]
  split <;> rfl

theorem countRetx_counts (e : Am) (x : Segment) : (e.countRetx x).heap.segCount = e.heap.segCount ∧
      (e.countRetx x).heap.sduCount = e.heap.sduCount ∧ (e.countRetx x).waitEnd = e.waitEnd := by
  refine ⟨by rw [countRetx_heap]; rfl, by rw [countRetx_heap]; rfl, ?_⟩
  simp only [countRetx]
  split <;> rfl

namespace Sound

theorem takeWait {c : Segment} {cs : List Segment} (h : Sound e w) (hc : w.curWait = c :: cs)
    (hsame : w.entity.SameSn w'.entity) (hcounts : w'.entity.heap.segCount = w.entity.heap.segCount ∧
      w'.entity.heap.sduCount = w.entity.heap.sduCount ∧ w'.entity.waitEnd = w.entity.waitEnd)
    (hend : w'.endWait = w.endWait ∨ w'.endWait = some w.waitDone.getLast?)
    (hcur : w'.curWait = cs) (htail : w'.waitTail = w.waitTail) (hretx : w'.curRetx = w.curRetx)
    (hmove : (w'.waitDone = w.waitDone ++ [c] ∧ w'.newRetx = w.newRetx ∧ w'.entity.heap.freed = w.entity.heap.freed) ∨
      (w'.waitDone = w.waitDone ∧ w'.newRetx = w.newRetx ++ [c] ∧ w'.entity.heap.freed = w.entity.heap.freed) ∨
      (w'.waitDone = w.waitDone ∧ w'.newRetx = w.newRetx ∧
        w'.entity.heap.freed = c :: w.entity.heap.freed)) : Sound e w' := by
  have hn := h.nodes
  have hw := h.wait
  have hl := h.live
  rw [subperm_iff_count] at hn hw hl
  simp only [Walk.live, hc, count_append, count_cons] at hn hw hl
  refine ⟨h.same.trans hsame, hcounts.1.trans h.segCount, hcounts.2.1.trans h.sduCount,
    hcounts.2.2.trans h.waitEnd, ?_, ?_, ?_, fun o ho x hx => ?_⟩
  · rw [subperm_iff_count]
    intro k
    have := hw k
    rcases hmove with ⟨h1, -, -⟩ | ⟨h1, -, -⟩ | ⟨h1, -, -⟩ <;>
      simp only [h1, hcur, htail, count_append, count_cons, count_nil] <;> omega
  · rw [subperm_iff_count]
    intro k
    have := hl k
    rcases hmove with ⟨h1, h2, -⟩ | ⟨h1, h2, -⟩ | ⟨h1, h2, -⟩ <;>
      simp only [Walk.live, h1, h2, hcur, htail, hretx, count_append, count_cons, count_nil] <;> omega
  · rw [subperm_iff_count]
    intro k
    have := hn k
    rcases hmove with ⟨h1, h2, h3⟩ | ⟨h1, h2, h3⟩ | ⟨h1, h2, h3⟩ <;>
      simp only [Walk.live, h1, h2, h3, hcur, htail, hretx, count_append, count_cons,
        count_nil] <;> omega
  · rcases hend with hend | hend
    · rw [hend] at ho
      exact h.endWait o ho x hx
    · rw [hend] at ho
      cases ho
      refine h.wait.subset ?_
      simp only [mem_append]
      exact .inl (.inl (mem_of_getLast? hx))

theorem takeRetx {r : Segment} {rs : List Segment} (h : Sound e w) (hr : w.curRetx = r :: rs)
    (hsame : w.entity.SameSn w'.entity) (hcounts : w'.entity.heap.segCount = w.entity.heap.segCount ∧
      w'.entity.heap.sduCount = w.entity.heap.sduCount ∧ w'.entity.waitEnd = w.entity.waitEnd)
    (hend : w'.endWait = w.endWait) (hdone : w'.waitDone = w.waitDone)
    (hcur : w'.curWait = w.curWait) (htail : w'.waitTail = w.waitTail) (hretx : w'.curRetx = rs)
    (hmove : (w'.newRetx = w.newRetx ++ [r] ∧ w'.entity.heap.freed = w.entity.heap.freed) ∨
      (w'.newRetx = w.newRetx ∧ w'.entity.heap.freed = r :: w.entity.heap.freed)) : Sound e w' := by
  have hn := h.nodes
  have hl := h.live
  rw [subperm_iff_count] at hn hl
  simp only [Walk.live, hr, count_append, count_cons] at hn hl
  refine ⟨h.same.trans hsame, hcounts.1.trans h.segCount, hcounts.2.1.trans h.sduCount,
    hcounts.2.2.trans h.waitEnd, ?_, ?_, ?_, ?_⟩
  · rw [hdone, hcur, htail]
    exact h.wait
  · rw [subperm_iff_count]
    intro k
    have := hl k
    rcases hmove with ⟨h1, -⟩ | ⟨h1, -⟩ <;>
      simp only [Walk.live, h1, hdone, hcur, htail, hretx, count_append, count_cons, count_nil] <;> omega
  · rw [subperm_iff_count]
    intro k
    have := hn k
    rcases hmove with ⟨h1, h2⟩ | ⟨h1, h2⟩ <;>
      simp only [Walk.live, h1, h2, hdone, hcur, htail, hretx, count_append, count_cons,
        count_nil] <;> omega
  · rw [hend]
    exact h.endWait

theorem unlinkWait_endWait (w : Walk) (c : Segment) (cs : List Segment) :
    (w.unlinkWait c cs).endWait = w.endWait ∨ (w.unlinkWait c cs).endWait = some w.waitDone.getLast? := by
  simp only [unlinkWait]
  split
  · exact .inr rfl
  · exact .inl rfl

theorem step (h : Sound e w) (hs : Step ackSn n w f w') : Sound e w' := by
  cases hs with
  | ended => exact h
  | @waitNacked c cs hf hc =>
    exact h.takeWait hf.1 (nackedEntity_sameSn ..) (countRetx_counts ..) (unlinkWait_endWait w c cs) rfl
      rfl rfl (.inr (.inl ⟨rfl, rfl, nackedEntity_freed ..⟩))
  | waitBehind => exact h
  | @waitAcked c cs hf h1 h2 h3 =>
    exact h.takeWait hf.1 (freeAcked_sameSn ..) (freeAcked_counts ..) (unlinkWait_endWait w c cs) rfl rfl
      rfl (.inr (.inr ⟨rfl, rfl, freeAcked_freed ..⟩))
  | @waitAbove c cs hf h1 h2 h3 =>
    have hsub : (w.waitDone ++ [] ++ c :: cs).Subperm (w.waitDone ++ w.curWait ++ w.waitTail) := by
      rw [hf.1, append_nil]
      exact (sublist_append_left ..).subperm
    have hlive : (w.waitDone ++ [] ++ c :: cs ++ (w.newRetx ++ w.curRetx)).Subperm w.live :=
      (subperm_append_right _).mpr hsub
    exact ⟨h.same, h.segCount, h.sduCount, h.waitEnd, hsub.trans h.wait, hlive.trans h.live,
      ((subperm_append_right _).mpr hlive).trans h.nodes, h.endWait⟩
  | waitSkip hf h1 h2 h3 =>
    exact h.takeWait hf.1 (SameSn.refl _) ⟨rfl, rfl, rfl⟩ (.inl rfl) rfl rfl rfl (.inl ⟨rfl, rfl, rfl⟩)
  | retxNacked hf hr =>
    exact h.takeRetx hf.1 (SameSn.refl _) ⟨rfl, rfl, rfl⟩ rfl rfl rfl rfl rfl (.inl ⟨rfl, rfl⟩)
  | retxBehind => exact h
  | retxAcked hf h1 h2 h3 =>
    exact h.takeRetx hf.1 (ackedRetxEntity_sameSn ..) (freeAcked_counts ..) rfl rfl rfl rfl rfl
      (.inr ⟨rfl, ackedRetxEntity_freed ..⟩)
  | retxSplice hf h1 h2 h3 h4 =>
    have hsub : (w.waitDone ++ w.curWait ++ w.waitTail ++ (w.newRetx ++ [])).Subperm w.live := by
      rw [append_nil]
      exact (List.Sublist.append (List.Sublist.refl _) (sublist_append_left ..)).subperm
    exact ⟨h.same, h.segCount, h.sduCount, h.waitEnd, h.wait, hsub.trans h.live,
      ((subperm_append_right _).mpr hsub).trans h.nodes, h.endWait⟩
  | retxKeep hf h1 h2 h3 h4 =>
    exact h.takeRetx hf.1 (SameSn.refl _) ⟨rfl, rfl, rfl⟩ rfl rfl rfl rfl rfl (.inl ⟨rfl, rfl⟩)

theorem move (h : Sound e w) (hm : Move e ackSn bs w w') : Sound e w' := by
  cases hm with
  | step _ _ hs => exact h.step hs
  | poll =>
    exact ⟨⟨h.same.txNextAck, h.same.snModulus, h.same.sn⟩, h.segCount, h.sduCount, h.waitEnd, h.wait,
      h.live, h.nodes, h.endWait⟩
  | @ackWait c cs hc hlt =>
    exact h.takeWait hc (freeAcked_sameSn ..) (freeAcked_counts ..) (unlinkWait_endWait w c cs) rfl rfl rfl
      (.inr (.inr ⟨rfl, rfl, freeAcked_freed ..⟩))
  | ackRetx hr hlt =>
    exact h.takeRetx hr (ackedRetxEntity_sameSn ..) (freeAcked_counts ..) rfl rfl rfl rfl rfl
      (.inr ⟨rfl, ackedRetxEntity_freed ..⟩)

theorem walkStatus (e : Am) (ackSn : Int) (bs : List NackBlock) : Sound e (e.walkStatus ackSn bs) :=
  walkStatus_run (fun _ _ h hm => h.move hm) (.init e ackSn)

end Sound

/-! ## Segments that stay in the wait list -/

structure Keeps (e : Am) (x : Segment) (w : Walk) : Prop where
  same : e.SameSn w.entity
  mem : x ∈ w.waitDone ++ w.curWait ++ w.waitTail
  tail : w.curWait ≠ [] → w.waitTail = []

namespace Keeps

variable {x : Segment}

theorem takeWait {c : Segment} {cs : List Segment} (h : Keeps e x w) (hc : w.curWait = c :: cs)
    (hne : x ≠ c) (hsame : w.entity.SameSn w'.entity) (hcur : w'.curWait = cs)
    (htail : w'.waitTail = w.waitTail) (hdone : w'.waitDone = w.waitDone) : Keeps e x w' := by
  have hm := h.mem
  simp only [hc, mem_append, mem_cons] at hm
  refine ⟨h.same.trans hsame, ?_, fun _ => ?_⟩
  · simp only [hcur, htail, hdone, mem_append]
    exact hm.imp_left (Or.imp_right (Or.resolve_left · hne))
  · rw [htail]
    exact h.tail (by rw [hc]; simp)

theorem step (h : Keeps e x w) (hn : ¬e.Nacked n x) (hx : e.modulusTx ackSn ≤ e.segD x)
    (hs : Step ackSn n w f w') : Keeps e x w' := by
  cases hs with
  | waitNacked hf hc =>
    refine h.takeWait hf.1 ?_ (nackedEntity_sameSn ..) rfl rfl rfl
    rintro rfl
    exact hn (h.same.nacked.mp hc)
  | waitAcked hf h1 h2 h3 =>
    refine h.takeWait hf.1 ?_ (freeAcked_sameSn ..) rfl rfl rfl
    rintro rfl
    rw [h.same.snCompareTx, h.same.snOf, snCompareTx] at h3
    rw [segD] at hx
    omega
  | waitAbove hf h1 h2 h3 =>
    have hm := h.mem
    have ht := h.tail (by rw [hf.1]; simp)
    rw [hf.1, ht, append_nil] at hm
    exact ⟨h.same, by simpa using hm, fun hne => absurd rfl hne⟩
  | waitSkip hf h1 h2 h3 =>
    have hm := h.mem
    rw [hf.1] at hm
    refine ⟨h.same, ?_, fun _ => h.tail (by rw [hf.1]; simp)⟩
    simpa [or_assoc] using hm
  | retxAcked hf h1 h2 h3 => exact ⟨h.same.trans (ackedRetxEntity_sameSn ..), h.mem, h.tail⟩
  | ended => exact h
  | waitBehind => exact h
  | retxNacked => exact { h with }
  | retxBehind => exact h
  | retxSplice => exact { h with }
  | retxKeep => exact { h with }

theorem move (h : Keeps e x w) (hn : ¬e.NackedBy (bs.flatMap e.expand) x)
    (hx : e.modulusTx ackSn ≤ e.segD x) (hm : Move e ackSn bs w w') : Keeps e x w' := by
  cases hm with
  | step hb hmem hs =>
    exact h.step (fun hc => hn ⟨_, mem_flatMap.mpr ⟨_, hb, hmem⟩, hc⟩) hx hs
  | poll => exact ⟨⟨h.same.txNextAck, h.same.snModulus, h.same.sn⟩, h.mem, h.tail⟩
  | ackWait hc hlt =>
    refine h.takeWait hc ?_ (freeAcked_sameSn ..) rfl rfl rfl
    rintro rfl
    rw [h.same.snCompareTx, h.same.snOf, snCompareTx] at hlt
    rw [segD] at hx
    omega
  | ackRetx hr hlt => exact ⟨h.same.trans (ackedRetxEntity_sameSn ..), h.mem, h.tail⟩

theorem walkStatus (hmem : x ∈ e.waitList) (hn : ¬e.NackedBy (bs.flatMap e.expand) x)
    (hx : e.modulusTx ackSn ≤ e.segD x) : Keeps e x (e.walkStatus ackSn bs) := by
  refine walkStatus_run (fun _ _ h hm => h.move hn hx hm) ⟨⟨rfl, rfl, fun _ => rfl⟩, ?_, fun _ => rfl⟩
  simpa [Walk.init, stopPollOnAck] using hmem

end Keeps

end Walk

end OaiNr.Rlc
