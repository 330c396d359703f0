import OaiNr.Rlc.Lemmas.TxInv

/-!
# The expiry of t-PollRetransmit

When the timer expires and there is nothing else to send, the handler reads the head of the wait list without a check.
-/

namespace OaiNr.Rlc.Am

/-- A status PDU, if one is accepted while the timer runs, either stops the timer or leaves a segment
in the wait list. -/
def AnswersPoll (e : Am) : Op → Prop
  | .recvPdu buffer =>
    IsControlPdu buffer → e.validateControlPdu buffer = true → e.tPollRetransmitStart ≠ 0 →
      e.snCompareTx e.pollSn (e.ackSnOf buffer) < 0 ∨ (∃ b ∈ e.nackBlocks buffer, e.NacksPoll b) ∨
        ∃ x ∈ e.waitList, e.modulusTx (e.ackSnOf buffer) ≤ e.segD x ∧ ¬e.NackedBy (e.nacksOf buffer) x
  | _ => True

def PollWaits (e : Am) : Prop := e.tPollRetransmitStart ≠ 0 → e.waitList ≠ []

variable {c : AmConfig} {e e' : Am} {x : Segment} {ackSn : Int} {bs : List NackBlock} {buffer : List UInt8}

theorem putInWaitList_ne_nil (hr : e.putInWaitList x = .ok e') : e'.waitList ≠ [] := by
  rcases putInWaitList_ok hr with ⟨-, hr⟩ | ⟨last, -, -, -, rfl⟩
  · rcases waitListAppend_ok hr with ⟨-, rfl⟩ | ⟨last, hne, -, -, rfl⟩
    · simp
    · cases hw : e.waitList with
      | nil => exact absurd hw hne
      | cons y l =>
        simp only [linkAfter]
        split <;> simp
  · intro hnil
    have hp := e.txSduSegmentListAdd_perm x e.waitList
    simp only at hnil
    rw [hnil] at hp
    exact absurd hp.length_eq (by simp)

theorem PollWaits.assignSn (h : e.PollWaits) (x : Segment) : (e.assignSn x).PollWaits := by
  rw [Am.assignSn]
  split <;> exact h

theorem PollWaits.segmentTx (h : e.PollWaits) (x : Segment) (n : Int) : (e.segmentTx x n).1.PollWaits := by
  rw [Am.segmentTx]
  split <;> exact h

theorem PollWaits.segmentRetx (h : e.PollWaits) (x : Segment) (n : Int) : (e.segmentRetx x n).1.PollWaits := by
  rw [Am.segmentRetx]
  split <;> exact h

theorem pollWaits_put (hr : e.putInWaitList x = .ok e') : e'.PollWaits ∧ e'.includePoll.PollWaits :=
  ⟨fun _ => putInWaitList_ne_nil hr, fun _ => (putInWaitList_ne_nil hr : e'.waitList ≠ [])⟩

theorem pollWaits_applyStatus (hok : e.tPollRetransmitStart ≠ 0 →
      e.snCompareTx e.pollSn ackSn < 0 ∨ (∃ b ∈ bs, e.NacksPoll b) ∨
        ∃ x ∈ e.waitList, e.modulusTx ackSn ≤ e.segD x ∧ ¬e.NackedBy (bs.flatMap e.expand) x) :
    (e.applyStatus ackSn bs).PollWaits := by
  intro ht
  rw [applyStatus_timer] at ht
  split at ht
  · exact absurd rfl ht
  · rename_i hno
    rw [not_or] at hno
    obtain ⟨x, hx, hle, hnot⟩ := ((hok ht).resolve_left hno.1).resolve_left hno.2
    exact List.ne_nil_of_mem (Walk.Keeps.walkStatus hx hnot hle).mem

theorem pollWaits_rule : TxRule AnswersPoll (fun e => TxInv e ∧ e.PollWaits)
    (fun x e => TxInvHand x e ∧ e.PollWaits) (fun x e => TxInvHand x e ∧ e.PollWaits) :=
  have hinv := txInv_rule AnswersPoll
  { length := fun h => h.1.numbered.length
    misc := fun o h => ⟨hinv.misc o h.1, h.2⟩
    takeTx := fun hok he h hs hl => ⟨hinv.takeTx hok he h.1 hs hl, PollWaits.assignSn (e := takeTx _ _ _) h.2 _⟩
    segmentTx := fun h hs => ⟨hinv.segmentTx h.1 hs, h.2.segmentTx _ _⟩
    putTx := fun h hr =>
      ⟨⟨(hinv.putTx h.1 hr).1, (pollWaits_put hr).1⟩, (hinv.putTx h.1 hr).2, (pollWaits_put hr).2⟩
    takeRetx := fun h hl => ⟨hinv.takeRetx h.1 hl, h.2⟩
    segmentRetx := fun h hs => ⟨hinv.segmentRetx h.1 hs, h.2.segmentRetx _ _⟩
    putRetx := fun h hr =>
      ⟨⟨(hinv.putRetx h.1 hr).1, (pollWaits_put hr).1⟩, (hinv.putRetx h.1 hr).2, (pollWaits_put hr).2⟩
    acceptSdu := fun h hr =>
      ⟨hinv.acceptSdu h.1 hr, by rw [acceptSdu_lists h.1.linked hr]; exact h.2⟩
    removeSdu := fun h hl hf hlast => ⟨hinv.removeSdu h.1 hl hf hlast, h.2⟩
    expirePoll := fun h => ⟨hinv.expirePoll h.1, fun ht => absurd rfl ht⟩
    countPollRetx := fun h hl => ⟨hinv.countPollRetx h.1 hl, h.2⟩
    moveToRetransmit := fun h ht hl => ⟨hinv.moveToRetransmit h.1 ht hl, fun hne => absurd ht hne⟩
    status := fun o hok hc h hv => ⟨hinv.status o hok hc h.1 hv, pollWaits_applyStatus (hok hc hv)⟩
    reestablishment := fun h => ⟨hinv.reestablishment h.1, fun ht => absurd rfl ht⟩ }

/-- In a run whose status PDUs answer polls, the check of t-PollRetransmit returns at any time. -/
theorem checkTPollRetransmit_returns (h : Reaches AnswersPoll c e) (now : Nat) :
    ∃ e', { e with tCurrent := u64 now }.checkTPollRetransmit = .ok e' := by
  have hp : TxInv e ∧ e.PollWaits :=
    pollWaits_rule.reaches ⟨newNrRlcEntityAm_txInv c, fun ht => absurd rfl ht⟩ h
  cases hr : { e with tCurrent := u64 now }.checkTPollRetransmit with
  | ok e' => exact ⟨e', rfl⟩
  | error f =>
    -- the only fault is the empty wait list
    obtain ⟨-, hexp, hnil⟩ := checkTPollRetransmit_error hr
    exact absurd hnil (hp.2 hexp.1)

/-- The timer of the first PDU expires. -/
theorem checkTPollRetransmit_returns_first : ∃ e,
    (newNrRlcEntityAm .test1).execAll 1 [.setTime 1, .recvSdu [1] 7, .generatePdu [0, 0, 0]] = .ok e ∧
      e.tPollRetransmitStart = 1 ∧ ∃ e', { e with tCurrent := u64 100 }.checkTPollRetransmit = .ok e' := by
  have hrun : ((newNrRlcEntityAm .test1).execAll 1
      [.setTime 1, .recvSdu [1] 7, .generatePdu [0, 0, 0]]).map Am.tPollRetransmitStart = .ok 1 := by
    decide
  obtain ⟨e, he, h1⟩ := map_eq_ok.mp hrun
  refine ⟨e, he, h1, checkTPollRetransmit_returns (Reaches.new.execAll ?_ he) 100⟩
  simp [AnswersPoll]

/-- Two SDUs are sent; the first one is nacked, sent again with a poll, and acknowledged by a status
PDU that leaves out the second one, which was acknowledged before. -/
def ackBelowPoll : List Op :=
  [.setTime 1, .recvSdu [1] 7, .recvSdu [2] 8, .generatePdu [0, 0, 0], .generatePdu [0, 0, 0],
    .recvPdu [0x00, 0x02, 0x80, 0x00, 0x00], .generatePdu [0, 0, 0], .recvPdu [0x00, 0x01, 0x00]]

/-- The timer runs on with all lists empty, and its expiry follows a null pointer. -/
theorem checkTPollRetransmit_nullDeref : ∃ e,
    (newNrRlcEntityAm .test1).execAll 1 ackBelowPoll = .ok e ∧ e.tPollRetransmitStart = 1 ∧
      e.txList = [] ∧ e.waitList = [] ∧ e.retransmitList = [] ∧
      { e with tCurrent := u64 100 }.checkTPollRetransmit = .error .nullDeref := by
  have hrun : ((newNrRlcEntityAm .test1).execAll 1 ackBelowPoll).map (fun e =>
      decide (e.tPollRetransmitStart = 1 ∧ e.txList = [] ∧ e.waitList = [] ∧ e.retransmitList = [] ∧
        { e with tCurrent := u64 100 }.checkTPollRetransmit.map (fun _ => ()) =
          .error .nullDeref)) = .ok true := by
    decide
  obtain ⟨e, he, h⟩ := map_eq_ok.mp hrun
  obtain ⟨h1, h2, h3, h4, h5⟩ := of_decide_eq_true h
  exact ⟨e, he, h1, h2, h3, h4, map_eq_error.mp h5⟩

/-! ## The transmit window -/

structure TxWindow (e : Am) : Prop where
  /-- No segment is in two lists, or freed while it is in one, or freed twice. -/
  nodup : ((e.txList ++ e.waitList ++ e.retransmitList ++ e.heap.freed).map Segment.addr).Nodup
  txEnd : e.txEnd = e.txList.getLast?
  window : (e.txNext - e.txNextAck) % e.snModulus ≤ e.windowSize
  sent : ∀ x ∈ e.waitList ++ e.retransmitList, 0 ≤ e.snOf x ∧ e.snOf x < e.snModulus

/-- The transmit window of every reachable state is in order, whatever was received. -/
theorem txWindow_of_reachable (h : Reachable c e) : e.TxWindow := by
  obtain ⟨hlinked, hnumbered⟩ := reaches_txInv h
  have hwindow := hnumbered.le
  rw [modulusTx_eq hnumbered.ack hnumbered.next] at hwindow
  exact ⟨hlinked.addr_nodup, hlinked.txEnd, hwindow, fun _ => hnumbered.snOk⟩

/-- A part of the first of two SDUs is sent. -/
theorem txWindow_after_part : ∃ e, Reachable .test1 e ∧ e.waitList.length = 1 ∧ e.TxWindow := by
  have hrun : ((newNrRlcEntityAm .test1).execAll 1 [.recvSdu [1, 2] 7, .recvSdu [3] 8, .generatePdu [0, 0, 0]]).map
      (·.waitList.length) = .ok 1 := by decide
  obtain ⟨e, he, hwait⟩ := map_eq_ok.mp hrun
  have hreach : Reachable .test1 e := Reaches.new.execAll (fun _ _ _ => trivial) he
  exact ⟨e, hreach, hwait, txWindow_of_reachable hreach⟩

end OaiNr.Rlc.Am
