import OaiNr.Rlc.AmControl

/-!
# The steps of the walk over the lists

`Walk.Step` says everything that one pass from `process_next_pdu` to the next jump can do.
-/

namespace OaiNr.Rlc

namespace Walk

def WaitFirst (w : Walk) (c : Segment) (cs : List Segment) : Prop :=
  w.curWait = c :: cs ∧ ∀ r ∈ w.curRetx.head?, w.entity.Precedes c r

def RetxFirst (w : Walk) (r : Segment) (rs : List Segment) : Prop :=
  w.curRetx = r :: rs ∧ ∀ c ∈ w.curWait.head?, ¬w.entity.Precedes c r

def nackedEntity (e : Am) (x : Segment) : Am :=
  { e.countRetx x with
    bstatusRetxSize := (e.countRetx x).bstatusRetxSize +
      ((e.countRetx x).computePduHeaderSize x + x.size) }

def ackedRetxEntity (e : Am) (x : Segment) : Am :=
  { e with
    bstatusRetxSize := e.bstatusRetxSize - (e.computePduHeaderSize x + x.size) }.freeAcked x

inductive Step (ackSn : Int) (n : Nack) (w : Walk) : Flow → Walk → Prop where
  | ended : w.curWait = [] → w.curRetx = [] → Step ackSn n w .listsOver w
  | waitNacked {c : Segment} {cs : List Segment} : w.WaitFirst c cs → w.entity.Nacked n c →
      Step ackSn n w .processNextPdu { w.unlinkWait c cs with
        entity := nackedEntity w.entity c, newRetx := w.newRetx ++ [c], newRetxNext := [] }
  | waitBehind {c : Segment} {cs : List Segment} : w.WaitFirst c cs → ¬w.entity.Nacked n c →
      w.entity.BehindNack n c → Step ackSn n w .doneNack w
  | waitAcked {c : Segment} {cs : List Segment} : w.WaitFirst c cs → ¬w.entity.Nacked n c →
      ¬w.entity.BehindNack n c → w.entity.snCompareTx (w.entity.snOf c) ackSn < 0 →
      Step ackSn n w .processNextPdu { w.unlinkWait c cs with entity := w.entity.freeAcked c }
  | waitAbove {c : Segment} {cs : List Segment} : w.WaitFirst c cs → ¬w.entity.Nacked n c →
      ¬w.entity.BehindNack n c → 0 < w.entity.snCompareTx (w.entity.snOf c) ackSn →
      Step ackSn n w .processNextPdu { w with curWait := [], waitTail := c :: cs }
  | waitSkip {c : Segment} {cs : List Segment} : w.WaitFirst c cs → ¬w.entity.Nacked n c →
      ¬w.entity.BehindNack n c → w.entity.snCompareTx (w.entity.snOf c) ackSn = 0 →
      Step ackSn n w .processNextPdu { w with waitDone := w.waitDone ++ [c], curWait := cs }
  | retxNacked {r : Segment} {rs : List Segment} : w.RetxFirst r rs → w.entity.Nacked n r →
      Step ackSn n w .processNextPdu (w.keepRetx r rs)
  | retxBehind {r : Segment} {rs : List Segment} : w.RetxFirst r rs → ¬w.entity.Nacked n r →
      w.entity.BehindNack n r → Step ackSn n w .doneNack w
  | retxAcked {r : Segment} {rs : List Segment} : w.RetxFirst r rs → ¬w.entity.Nacked n r →
      ¬w.entity.BehindNack n r → w.entity.snCompareTx (w.entity.snOf r) ackSn < 0 →
      Step ackSn n w .processNextPdu { w with entity := ackedRetxEntity w.entity r, curRetx := rs }
  | retxSplice {r : Segment} {rs : List Segment} : w.RetxFirst r rs → ¬w.entity.Nacked n r →
      ¬w.entity.BehindNack n r → 0 ≤ w.entity.snCompareTx (w.entity.snOf r) ackSn →
      w.curWait = [] →
      Step ackSn n w .listsOver { w with newRetxNext := r :: rs, curRetx := [] }
  | retxKeep {r : Segment} {rs : List Segment} : w.RetxFirst r rs → ¬w.entity.Nacked n r →
      ¬w.entity.BehindNack n r → 0 ≤ w.entity.snCompareTx (w.entity.snOf r) ackSn →
      w.curWait ≠ [] → Step ackSn n w .processNextPdu (w.keepRetx r rs)

variable {ackSn : Int} {n : Nack} {w w' : Walk} {f : Flow}

theorem processWaitListHead_step {c : Segment} {cs : List Segment} (h : w.WaitFirst c cs) :
    Step ackSn n w (w.processWaitListHead ackSn n c cs).1 (w.processWaitListHead ackSn n c cs).2 := by
  simp only [processWaitListHead]
  split
  · exact .waitNacked h ‹_›
  split
  · exact .waitBehind h ‹_› ‹_›
  split
  · exact .waitAcked h ‹_› ‹_› ‹_›
  split
  · exact .waitAbove h ‹_› ‹_› ‹_›
  · exact .waitSkip h ‹_› ‹_› (by omega)

theorem processRetransmitListHead_step {r : Segment} {rs : List Segment} (h : w.RetxFirst r rs) :
    Step ackSn n w (w.processRetransmitListHead ackSn n r rs).1 (w.processRetransmitListHead ackSn n r rs).2 := by
  simp only [processRetransmitListHead]
  split
  · exact .retxNacked h ‹_›
  split
  · exact .retxBehind h ‹_› ‹_›
  split
  · exact .retxAcked h ‹_› ‹_› ‹_›
  split
  · exact .retxSplice h ‹_› ‹_› (by omega) ‹_›
  · exact .retxKeep h ‹_› ‹_› (by omega) ‹_›

theorem processNextPdu_step (ackSn : Int) (n : Nack) (w : Walk) :
    Step ackSn n w (w.processNextPdu ackSn n).1 (w.processNextPdu ackSn n).2 := by
  unfold processNextPdu
  split
  · exact .ended ‹_› ‹_›
  · rename_i hw hr
    exact processRetransmitListHead_step ⟨hr, by simp [hw]⟩
  · rename_i hw hr
    exact processWaitListHead_step ⟨hw, by simp [hr]⟩
  · rename_i c cs r rs hw hr
    split
    · exact processWaitListHead_step ⟨hw, by simpa [hr] using ‹_›⟩
    · exact processRetransmitListHead_step ⟨hr, by simpa [hw] using ‹_›⟩

/-! ## What every step keeps, the whole walk keeps -/

section Run

variable {P : Walk → Prop}

theorem processNackLoop_run (hP : ∀ {w f w'}, P w → Step ackSn n w f w' → P w') (fuel : Nat)
    (h : P w) : P (processNackLoop ackSn n fuel w).2 := by
  induction fuel generalizing w with
  | zero => exact h
  | succ fuel ih =>
    have hstep := hP h (processNextPdu_step ackSn n w)
    rw [processNackLoop]
    split
    · rename_i w₁ heq
      rw [heq] at hstep
      exact ih hstep
    · exact hstep

theorem processRange_run {ns : List Nack} (hP : ∀ n ∈ ns, ∀ {w f w'}, P w → Step ackSn n w f w' → P w')
    (h : P w) : P (processRange ackSn ns w) := by
  induction ns generalizing w with
  | nil => exact h
  | cons n ns ih =>
    have hn : P (w.processNack ackSn n).2 := processNackLoop_run (hP n List.mem_cons_self) _ h
    rw [processRange]
    split
    · rename_i w₁ heq
      rw [heq] at hn
      exact hn
    · rename_i f w₁ _ heq
      rw [heq] at hn
      exact ih (fun m hm => hP m (List.mem_cons_of_mem _ hm)) hn

end Run

end Walk

end OaiNr.Rlc
