import OaiNr.Rlc.Lemmas.Linked
import OaiNr.Rlc.Lemmas.StatusSpec
import OaiNr.Rlc.Lemmas.TxRule

/-!
# The transmitter in every run

What holds in every reachable state, whatever arrives.
-/

namespace OaiNr.Rlc.Am

open List

variable {e e' : Am} {x y : Segment} {hand rest before : List Segment} {ackSn : Int}
  {bs : List NackBlock} {buffer : List UInt8}

structure Numbered (e : Am) : Prop where
  length : e.snFieldLength = 12 ∨ e.snFieldLength = 18
  modulus : e.snModulus = 2 ^ e.snFieldLength
  window : e.snModulus = 2 * e.windowSize
  next : e.SnOk e.txNext
  ack : e.SnOk e.txNextAck
  poll : e.SnOk e.pollSn
  le : e.modulusTx e.txNext ≤ e.windowSize
  sdus : ∀ a, (e.heap.sdus a).sn = -1 ∨ e.SnOk (e.heap.sdus a).sn
  sent : ∀ x ∈ e.waitList ++ e.retransmitList, e.snOf x ≠ -1

def txWindow (e : Am) : Nat × Int × Int × Int × Int × Int :=
  (e.snFieldLength, e.snModulus, e.windowSize, e.txNext, e.txNextAck, e.pollSn)

theorem free_sn (m : Heap) (x : Segment) (a : Nat) : ((m.nrRlcFreeSduSegment x).2.sdus a).sn = (m.sdus a).sn :=
  updateSdu_sn m x.sdu a (fun s => { s with freeCount := s.freeCount + 1 }) fun _ => rfl

theorem freeList_sn (m : Heap) (l : List Segment) (a : Nat) :
    ((m.nrRlcFreeSduSegmentList l).sdus a).sn = (m.sdus a).sn := by
  induction l generalizing m with
  | nil => rfl
  | cons x l ih => exact (ih _).trans (free_sn m x a)

namespace Numbered

theorem modulus_pos (h : Numbered e) : 0 < e.snModulus := by
  rw [h.modulus]
  positivity

theorem window_pos (h : Numbered e) : 0 < e.windowSize := by
  have := h.modulus_pos
  have := h.window
  omega

theorem snOk (h : Numbered e) (hx : x ∈ e.waitList ++ e.retransmitList) : e.SnOk (e.snOf x) :=
  (h.sdus x.sdu).resolve_left (h.sent x hx)

theorem snOk_ack (h : Numbered e) (hv : e.validateControlPdu buffer = true) : e.SnOk (e.ackSnOf buffer) := by
  rw [SnOk, h.modulus]
  exact ackSnOf_range (validateControlPdu_iff.mp hv).1

theorem lt_of_not_stalling (h : Numbered e) (hs : ¬e.IsWindowStalling) : e.modulusTx e.txNext < e.windowSize := by
  have hpos := h.modulus_pos
  have hw := h.window
  have hend : e.modulusTx ((e.txNextAck + e.windowSize) % e.snModulus) = e.windowSize := by
    rw [modulusTx_eq h.ack ⟨Int.emod_nonneg _ (by omega), Int.emod_lt_of_pos _ hpos⟩]
    exact Serial.offset_add_emod (by omega) (by omega)
  rw [IsWindowStalling, not_not, snCompareTx, snCompareTx, hend] at hs
  omega

theorem of_window (h : Numbered e) (hfix : e'.txWindow = e.txWindow)
    (hsn : ∀ a, (e'.heap.sdus a).sn = (e.heap.sdus a).sn)
    (hsent : ∀ x ∈ e'.waitList ++ e'.retransmitList, e.snOf x ≠ -1) : Numbered e' := by
  simp only [txWindow, Prod.mk.injEq] at hfix
  obtain ⟨h1, h2, h3, h4, h5, h6⟩ := hfix
  have hok : ∀ a, e'.SnOk a ↔ e.SnOk a := fun a => by rw [SnOk, SnOk, h2]
  have hmod : ∀ a, e'.modulusTx a = e.modulusTx a := fun a => by rw [modulusTx, modulusTx, h2, h5]
  refine ⟨by rw [h1]; exact h.length, by rw [h1, h2]; exact h.modulus, by rw [h2, h3]; exact h.window,
    ?_, ?_, ?_, ?_, fun a => ?_, fun x hx => ?_⟩
  · rw [hok, h4]; exact h.next
  · rw [hok, h5]; exact h.ack
  · rw [hok, h6]; exact h.poll
  · rw [hmod, h4, h3]; exact h.le
  · rw [hok, hsn]; exact h.sdus a
  · rw [snOf, hsn]; exact hsent x hx

theorem misc (h : Numbered e) (o : Am) : Numbered (e.withMisc o) :=
  h.of_window rfl (fun _ => rfl) h.sent

theorem takeTx (h : Numbered e) (x : Segment) (rest : List Segment) : Numbered (e.takeTx x rest) :=
  h.of_window rfl (fun _ => rfl) h.sent

theorem takeRetx (h : Numbered e) (hl : e.retransmitList = x :: rest) : Numbered (e.takeRetx x rest) := by
  refine h.of_window rfl (fun _ => rfl) fun y hy => h.sent y ?_
  rw [hl]
  simp only [Am.takeRetx, mem_append, mem_cons] at hy ⊢
  exact hy.imp_right .inr

theorem assignSn (h : Numbered e) (hlt : e.modulusTx e.txNext < e.windowSize) (x : Segment) :
    Numbered (e.assignSn x) ∧ (e.assignSn x).snOf x ≠ -1 := by
  rw [Am.assignSn]
  split
  · rename_i hx
    have hpos := h.modulus_pos
    have hw := h.window
    have hnext : e.SnOk ((e.txNext + 1) % e.snModulus) :=
      ⟨Int.emod_nonneg _ (by omega), Int.emod_lt_of_pos _ hpos⟩
    have hle : e.modulusTx ((e.txNext + 1) % e.snModulus) ≤ e.windowSize := by
      rw [modulusTx_eq h.ack h.next] at hlt
      rw [modulusTx_eq h.ack hnext, Serial.offset_succ hpos (by omega)]
      omega
    have hnew : ∀ a, ((e.heap.updateSdu x.sdu fun s => { s with sn := e.txNext }).sdus a).sn =
        if a = x.sdu then e.txNext else (e.heap.sdus a).sn := by
      intro a
      by_cases ha : a = x.sdu
      · subst ha; simp [Heap.updateSdu]
      · simp [Heap.updateSdu, ha]
    have hne : e.txNext ≠ -1 := by have := h.next.1; omega
    refine ⟨⟨h.length, h.modulus, h.window, hnext, h.ack, h.poll, hle, fun a => ?_, fun y hy => ?_⟩, ?_⟩
    · rw [hnew]
      split
      · exact .inr h.next
      · exact h.sdus a
    · rw [snOf, hnew]
      split
      · exact hne
      · exact h.sent y hy
    · rw [snOf, hnew, if_pos rfl]
      exact hne
  · exact ⟨h, ‹_›⟩

theorem addSegment (h : Numbered e) (x : Segment) : Numbered (e.addSegment x) := by
  refine h.of_window rfl (fun a => ?_) h.sent
  exact updateSdu_sn e.heap x.sdu a (fun s => { s with refCount := s.refCount + 1 }) fun _ => rfl

theorem addSegment_snOf (e : Am) (x y : Segment) : (e.addSegment x).snOf y = e.snOf y :=
  updateSdu_sn e.heap x.sdu y.sdu (fun s => { s with refCount := s.refCount + 1 }) fun _ => rfl

theorem segmentTx (h : Numbered e) (x : Segment) (size : Int) : Numbered (e.segmentTx x size).1 := by
  rw [Am.segmentTx]
  split
  · exact (h.addSegment x).of_window rfl (fun _ => rfl) (h.addSegment x).sent
  · exact h

theorem segmentRetx (h : Numbered e) (hx : e.snOf x ≠ -1) (size : Int) : Numbered (e.segmentRetx x size).1 := by
  rw [Am.segmentRetx]
  split
  · refine (h.addSegment x).of_window rfl (fun _ => rfl) fun y hy => ?_
    rw [addSegment_snOf]
    simp only [resegment, pushRetx, mem_append, mem_cons] at hy
    rcases hy with hy | rfl | hy
    · exact h.sent y (mem_append_left _ hy)
    · exact hx
    · exact h.sent y (mem_append_right _ hy)
  · exact h

theorem put (h : Numbered e) (hl : Linked [x] e) (hx : e.snOf x ≠ -1)
    (hr : e.putInWaitList x = .ok e') : Numbered e' := by
  obtain ⟨w, r, l, rfl, hs, -⟩ := putInWaitList_lists hl hr
  refine h.of_window rfl (fun _ => rfl) fun y hy => ?_
  rcases mem_cons.mp (hs.subset hy) with rfl | hy
  · exact hx
  · exact h.sent y hy

theorem includePoll (h : Numbered e) : Numbered e.includePoll :=
  ⟨h.length, h.modulus, h.window, h.next, h.ack,
    ⟨Int.emod_nonneg _ (by have := h.modulus_pos; show e.snModulus ≠ 0; omega),
      Int.emod_lt_of_pos _ h.modulus_pos⟩, h.le, h.sdus, h.sent⟩

theorem acceptSdu {sduId : Int} (h : Numbered e) (hl : Linked [] e)
    (hr : e.acceptSdu buffer sduId = .ok e') : Numbered e' := by
  rw [acceptSdu_lists hl hr]
  have hsn : ∀ a, ((e.heap.nrRlcNewSdu buffer sduId).2.sdus a).sn =
      if a = e.heap.sduCount then -1 else (e.heap.sdus a).sn := by
    intro a
    by_cases ha : a = e.heap.sduCount
    · subst ha; simp [Heap.nrRlcNewSdu]
    · simp [Heap.nrRlcNewSdu, ha]
  refine { h with sdus := fun a => ?_, sent := fun y hy => ?_ }
  · have hsn := hsn a
    split at hsn
    · exact .inl hsn
    · change ((e.heap.nrRlcNewSdu buffer sduId).2.sdus a).sn = -1 ∨
        e.SnOk ((e.heap.nrRlcNewSdu buffer sduId).2.sdus a).sn
      rw [hsn]
      exact h.sdus a
  · have hy' : y.sdu < e.heap.sduCount := by
      refine (hl.alloc y.node (mem_map_of_mem ?_)).2
      simp only [Am.allocSdu, mem_append] at hy ⊢
      tauto
    have hsn := hsn y.sdu
    rw [if_neg (by omega)] at hsn
    change ((e.heap.nrRlcNewSdu buffer sduId).2.sdus y.sdu).sn ≠ -1
    rw [hsn]
    exact h.sent y hy

theorem removeSdu (h : Numbered e) : Numbered (e.removeSdu before x rest) :=
  h.of_window rfl (free_sn e.heap x) h.sent

theorem countPollRetx (h : Numbered e) (x : Segment) : Numbered (e.countPollRetx x) := by
  refine h.of_window rfl (fun a => ?_) h.sent
  exact updateSdu_sn e.heap x.sdu a (fun s => { s with retxCount := s.retxCount + 1 }) fun _ => rfl

theorem moveToRetransmit (h : Numbered e) (hl : e.waitList = x :: rest) : Numbered (e.moveToRetransmit x rest) := by
  refine h.of_window rfl (fun _ => rfl) fun y hy => h.sent y ?_
  rw [hl]
  simp only [Am.moveToRetransmit, mem_append, (e.txSduSegmentListAdd_perm x _).mem_iff, mem_cons] at hy ⊢
  tauto

theorem reestablishment (h : Numbered e) : Numbered e.reestablishment := by
  have hpos := h.modulus_pos
  have hw := h.window_pos
  have hz : e.reestablishment.SnOk 0 := ⟨Int.le_refl _, hpos⟩
  refine ⟨h.length, h.modulus, h.window, hz, hz, hz, ?_, fun a => ?_, fun x hx => ?_⟩
  · show e.reestablishment.modulusTx 0 ≤ e.windowSize
    rw [modulusTx_eq hz hz]
    show Serial.offset _ 0 0 ≤ _
    rw [Serial.offset_self]
    omega
  · have hsn : (e.reestablishment.heap.sdus a).sn = (e.heap.sdus a).sn :=
      (freeList_sn _ _ a).trans ((freeList_sn _ _ a).trans (freeList_sn _ _ a))
    rw [hsn]
    exact h.sdus a
  · simp [Am.reestablishment] at hx

end Numbered

/-! ## Status PDUs -/

theorem applyStatus_txList (e : Am) (ackSn : Int) (bs : List NackBlock) :
    (e.applyStatus ackSn bs).txList = e.txList := by
  have h := congrArg Am.txList (applyStatus_outside e ackSn bs)
  exact h

theorem Linked.applyStatus (h : Linked [] e) (ackSn : Int) (bs : List NackBlock) :
    Linked [] (e.applyStatus ackSn bs) := by
  have hs := Walk.Sound.walkStatus e ackSn bs
  have htx := e.applyStatus_txList ackSn bs
  have hend : (e.applyStatus ackSn bs).txEnd = e.txEnd := by
    have h := congrArg Am.txEnd (applyStatus_outside e ackSn bs)
    exact h
  refine h.of_subperm ?_ hs.segCount.ge hs.sduCount.ge (by rw [hend, htx]; exact h.txEnd) fun y hy => ?_
  · have hn := subperm_iff_count.mp (map_subperm Segment.node hs.nodes)
    rw [subperm_iff_count]
    intro k
    have := hn k
    simp only [nodes, htx, Walk.live, map_append, count_append, map_nil, count_nil] at this ⊢
    simp only [Am.applyStatus, updateTxNextAck, Walk.relink, map_append, count_append]
    omega
  · have hseg : (e.applyStatus ackSn bs).heap.segCount = e.heap.segCount := hs.segCount
    rw [hseg, htx]
    have hy' : y ∈ (e.walkStatus ackSn bs).endWait.getD e.waitEnd := by
      rw [← hs.waitEnd]
      exact hy
    cases hew : (e.walkStatus ackSn bs).endWait with
    | none =>
      rw [hew] at hy'
      exact h.waitEnd y hy'
    | some o =>
      rw [hew] at hy'
      have hmem := hs.endWait o hew y hy'
      refine ⟨(h.alloc y.node (by simp [nodes]; exact .inr (.inl ⟨y, hmem, rfl⟩))).1, fun ht => ?_⟩
      obtain ⟨t, ht, hta⟩ := mem_map.mp ht
      have hd := (h.tx_disjoint ht).1
      rw [hta] at hd
      exact hd (mem_map_of_mem hmem)

theorem applyStatus_timer (e : Am) (ackSn : Int) (bs : List NackBlock) : (e.applyStatus ackSn bs).tPollRetransmitStart =
      if e.snCompareTx e.pollSn ackSn < 0 ∨ ∃ b ∈ bs, e.NacksPoll b then 0
      else e.tPollRetransmitStart := Walk.walkStatus_timer e ackSn bs

theorem applyStatus_sn (e : Am) (ackSn : Int) (bs : List NackBlock) (a : Nat) :
    ((e.applyStatus ackSn bs).heap.sdus a).sn = (e.heap.sdus a).sn :=
  (Walk.Sound.walkStatus e ackSn bs).same.sn a

theorem applyStatus_live (e : Am) (ackSn : Int) (bs : List NackBlock) :
    ((e.applyStatus ackSn bs).waitList ++ (e.applyStatus ackSn bs).retransmitList).Subperm
      (e.waitList ++ e.retransmitList) :=
  (Walk.Sound.walkStatus e ackSn bs).live

theorem Numbered.applyStatus (h : Numbered e) (hack : e.SnOk ackSn) (bs : List NackBlock) :
    Numbered (e.applyStatus ackSn bs) := by
  obtain ⟨hk, hle, -⟩ := applyStatus_txNextAck_le h.next hack (fun _ => h.snOk) bs
  have hconf : ((e.applyStatus ackSn bs).snFieldLength, (e.applyStatus ackSn bs).snModulus,
      (e.applyStatus ackSn bs).windowSize, (e.applyStatus ackSn bs).txNext, (e.applyStatus ackSn bs).pollSn) =
      (e.snFieldLength, e.snModulus, e.windowSize, e.txNext, e.pollSn) := by
    have h := congrArg (fun v : Am => (v.snFieldLength, v.snModulus, v.windowSize, v.txNext, v.pollSn))
      (applyStatus_outside e ackSn bs)
    exact h
  simp only [Prod.mk.injEq] at hconf
  obtain ⟨h1, h2, h3, h4, h5⟩ := hconf
  have hok : ∀ {b}, (e.applyStatus ackSn bs).SnOk b ↔ e.SnOk b := by
    intro b
    rw [SnOk, SnOk, h2]
  refine ⟨by rw [h1]; exact h.length, by rw [h1, h2]; exact h.modulus, by rw [h2, h3]; exact h.window,
    by rw [hok, h4]; exact h.next, hok.mpr hk, by rw [hok, h5]; exact h.poll, ?_, fun a => ?_, fun x hx => ?_⟩
  · have hpos := h.modulus_pos
    have h0 := modulusTx_nonneg h.ack hk
    have hrebase := Serial.offset_rebase (b := e.txNextAck) (c := (e.applyStatus ackSn bs).txNextAck)
      (a := e.txNext) hpos (by rw [← modulusTx_eq h.ack hk, ← modulusTx_eq h.ack h.next]; exact hle)
    have hge := h.le
    rw [modulusTx_eq (hok.mpr hk) (by rw [hok, h4]; exact h.next), h2, h4, h3, hrebase,
      ← modulusTx_eq h.ack hk, ← modulusTx_eq h.ack h.next]
    omega
  · rw [applyStatus_sn, hok]
    exact h.sdus a
  · rw [snOf, applyStatus_sn]
    exact h.sent x ((e.applyStatus_live ackSn bs).subset hx)

/-! ## Runs -/

structure TxInv (e : Am) : Prop where
  linked : Linked [] e
  numbered : Numbered e

/-- The transmitter while the segment `x` is in no list. -/
structure TxInvHand (x : Segment) (e : Am) : Prop where
  linked : Linked [x] e
  numbered : Numbered e
  sent : e.snOf x ≠ -1

theorem Linked.misc (h : Linked hand e) (o : Am) : Linked hand (e.withMisc o) :=
  { h with }

theorem segmentTx_snOf (e : Am) (x : Segment) (size : Int) :
    (e.segmentTx x size).1.snOf (e.segmentTx x size).2 = e.snOf x := by
  rw [segmentTx]
  split
  · exact Numbered.addSegment_snOf e x _
  · rfl

theorem segmentRetx_snOf (e : Am) (x : Segment) (size : Int) :
    (e.segmentRetx x size).1.snOf (e.segmentRetx x size).2 = e.snOf x := by
  rw [segmentRetx]
  split
  · exact Numbered.addSegment_snOf e x _
  · rfl

theorem TxInvHand.put (h : TxInvHand x e) (hr : e.putInWaitList x = .ok e') : TxInv e' ∧ TxInv e'.includePoll := by
  have hl := h.linked.put hr
  have hn := h.numbered.put h.linked h.sent hr
  exact ⟨⟨hl, hn⟩, { hl with }, hn.includePoll⟩

theorem txInv_rule (ok : Am → Op → Prop) : TxRule ok TxInv TxInvHand TxInvHand where
  length h := h.numbered.length
  misc o h := ⟨h.linked.misc o, h.numbered.misc o⟩
  takeTx _ _ h hstall hl :=
    have hn := (h.numbered.takeTx _ _).assignSn (h.numbered.lt_of_not_stalling hstall) _
    ⟨(h.linked.takeTx hl).assignSn _, hn.1, hn.2⟩
  segmentTx h _ := ⟨h.linked.segmentTx _, h.numbered.segmentTx _ _, by rw [segmentTx_snOf]; exact h.sent⟩
  putTx h hr := h.put hr
  takeRetx h hl :=
    ⟨h.linked.takeRetx hl, h.numbered.takeRetx hl, h.numbered.sent _ (by rw [hl]; simp)⟩
  segmentRetx h _ :=
    ⟨h.linked.segmentRetx _, h.numbered.segmentRetx h.sent _, by rw [segmentRetx_snOf]; exact h.sent⟩
  putRetx h hr := h.put hr
  acceptSdu h hr := ⟨h.linked.acceptSdu hr, h.numbered.acceptSdu h.linked hr⟩
  removeSdu h hl _ _ := ⟨h.linked.removeSdu hl, h.numbered.removeSdu⟩
  expirePoll h :=
    ⟨⟨h.linked.nodup, h.linked.alloc, h.linked.txEnd, h.linked.waitEnd⟩,
      h.numbered.of_window rfl (fun _ => rfl) h.numbered.sent⟩
  countPollRetx h _ :=
    ⟨⟨h.linked.nodup, h.linked.alloc, h.linked.txEnd, h.linked.waitEnd⟩, h.numbered.countPollRetx _⟩
  moveToRetransmit h _ hl := ⟨h.linked.moveToRetransmit hl, h.numbered.moveToRetransmit hl⟩
  status {e buffer} _ _ _ h hv :=
    have hn : Numbered e := h.numbered.misc e
    ⟨h.linked.applyStatus _ _, h.numbered.applyStatus (hn.snOk_ack hv) _⟩
  reestablishment h := ⟨h.linked.reestablishment, h.numbered.reestablishment⟩

theorem newNrRlcEntityAm_txInv (c : AmConfig) : TxInv (newNrRlcEntityAm c) := by
  have hm : (2 : Int) ^ c.snFieldLength = 2 * (2 ^ c.snFieldLength / 2) ∧ 0 < (2 : Int) ^ c.snFieldLength / 2 := by
    rcases c.snValid with h | h <;> rw [h] <;> decide
  have hz : (newNrRlcEntityAm c).SnOk 0 := ⟨Int.le_refl _, by show (0 : Int) < 2 ^ c.snFieldLength; omega⟩
  refine ⟨⟨nodup_nil, ?_, rfl, ?_⟩, ⟨c.snValid, rfl, hm.1, hz, hz, hz, ?_, ?_, ?_⟩⟩
  · simp [nodes, newNrRlcEntityAm, Heap.empty]
  · simp [newNrRlcEntityAm]
  · show (newNrRlcEntityAm c).modulusTx 0 ≤ _
    rw [modulusTx_eq hz hz]
    show Serial.offset _ 0 0 ≤ (2 : Int) ^ c.snFieldLength / 2
    rw [Serial.offset_self]
    omega
  · exact fun _ => .inl rfl
  · simp [newNrRlcEntityAm]

theorem reaches_txInv {ok : Am → Op → Prop} {c : AmConfig} (h : Reaches ok c e) : TxInv e :=
  (txInv_rule ok).reaches (newNrRlcEntityAm_txInv c) h

end OaiNr.Rlc.Am
