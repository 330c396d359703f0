import Mathlib.Data.List.Nodup
import OaiNr.Rlc.Lemmas.Frame

/-!
# The linked lists of the transmitter

The nodes of the three lists and the freed nodes are all different, and `tx_end` is the end of the transmit list.
`wait_end` may point anywhere but into the transmit list. `hand` are segments taken off a list and not put back yet.
-/

namespace OaiNr.Rlc

open List

/-! ## Appending behind a node -/

section LinkAfter

variable {last x y : Segment} {l pre post : List Segment}

theorem linkAfter_of_not_mem (h : last.addr ∉ l.map Segment.addr) : linkAfter last x l = l := by
  induction l with
  | nil => rfl
  | cons y l ih =>
    simp only [map_cons, mem_cons, not_or] at h
    rw [linkAfter, if_neg fun hy => h.1 hy.symm, ih h.2]

theorem linkAfter_append (h : last.addr ∉ pre.map Segment.addr) (hy : y.addr = last.addr) :
    linkAfter last x (pre ++ y :: post) = pre ++ [y, x] := by
  induction pre with
  | nil => rw [nil_append, linkAfter, if_pos hy]; rfl
  | cons z pre ih =>
    simp only [map_cons, mem_cons, not_or] at h
    rw [cons_append, linkAfter, if_neg fun hz => h.1 hz.symm, ih h.2]
    rfl

theorem exists_split_of_mem (h : last.addr ∈ l.map Segment.addr) :
    ∃ pre y post, l = pre ++ y :: post ∧ y.addr = last.addr ∧ last.addr ∉ pre.map Segment.addr := by
  induction l with
  | nil => simp at h
  | cons z l ih =>
    by_cases hz : z.addr = last.addr
    · exact ⟨[], z, l, rfl, hz, by simp⟩
    · simp only [map_cons, mem_cons] at h
      obtain ⟨pre, y, post, rfl, hy, hpre⟩ := ih (h.resolve_left fun h => hz h.symm)
      refine ⟨z :: pre, y, post, rfl, hy, ?_⟩
      simp only [map_cons, mem_cons, not_or]
      exact ⟨fun h => hz h.symm, hpre⟩

theorem count_linkAfter_le (last x : Segment) (l : List Segment) (k : Segment) : (linkAfter last x l).count k ≤
      l.count k + if last.addr ∈ l.map Segment.addr then [x].count k else 0 := by
  by_cases hl : last.addr ∈ l.map Segment.addr
  · rw [if_pos hl]
    obtain ⟨pre, y, post, rfl, hy, hpre⟩ := exists_split_of_mem hl
    rw [linkAfter_append hpre hy]
    simp only [count_append, count_cons, count_nil]
    omega
  · rw [linkAfter_of_not_mem hl, if_neg hl]
    omega

end LinkAfter

def Segment.node (x : Segment) : Nat × Nat := (x.addr, x.sdu)

namespace Am

def nodes (e : Am) (hand : List Segment) : List (Nat × Nat) :=
  (hand ++ e.txList ++ e.waitList ++ e.retransmitList ++ e.heap.freed).map Segment.node

structure Linked (hand : List Segment) (e : Am) : Prop where
  nodup : ((e.nodes hand).map Prod.fst).Nodup
  alloc : ∀ k ∈ e.nodes hand, k.1 < e.heap.segCount ∧ k.2 < e.heap.sduCount
  txEnd : e.txEnd = e.txList.getLast?
  waitEnd : ∀ x ∈ e.waitEnd, x.addr < e.heap.segCount ∧ x.addr ∉ e.txList.map Segment.addr

variable {e e' : Am} {x y : Segment} {hand hand' rest : List Segment}

theorem map_subperm {α β : Type} {l l' : List α} (f : α → β) (h : l.Subperm l') : (l.map f).Subperm (l'.map f) := by
  obtain ⟨m, hp, hs⟩ := h
  exact ⟨m.map f, hp.map f, hs.map f⟩

theorem nodup_of_subperm {α : Type} {l l' : List α} (h : l.Subperm l') (hn : l'.Nodup) : l.Nodup := by
  obtain ⟨m, hp, hs⟩ := h
  exact hp.nodup_iff.mp (hn.sublist hs)

namespace Linked

theorem of_subperm (h : Linked hand e) (hs : (e'.nodes hand').Subperm (e.nodes hand))
    (hseg : e.heap.segCount ≤ e'.heap.segCount) (hsdu : e.heap.sduCount ≤ e'.heap.sduCount)
    (htx : e'.txEnd = e'.txList.getLast?)
    (hw : ∀ x ∈ e'.waitEnd, x.addr < e'.heap.segCount ∧ x.addr ∉ e'.txList.map Segment.addr) : Linked hand' e' := by
  refine ⟨nodup_of_subperm (map_subperm _ hs) h.nodup, fun k hk => ?_, htx, hw⟩
  have := h.alloc k (hs.subset hk)
  omega

theorem of_subperm_cons {s : Nat} (h : Linked hand e)
    (hs : (e'.nodes hand').Subperm ((e.heap.segCount, s) :: e.nodes hand))
    (hseg : e'.heap.segCount = e.heap.segCount + 1) (hsdu : e.heap.sduCount ≤ e'.heap.sduCount)
    (hs' : s < e'.heap.sduCount) (htx : e'.txEnd = e'.txList.getLast?)
    (hw : ∀ x ∈ e'.waitEnd, x.addr < e'.heap.segCount ∧ x.addr ∉ e'.txList.map Segment.addr) : Linked hand' e' := by
  have hnew : e.heap.segCount ∉ (e.nodes hand).map Prod.fst := by
    intro hmem
    obtain ⟨k, hk, heq⟩ := mem_map.mp hmem
    have := h.alloc k hk
    omega
  refine ⟨nodup_of_subperm (map_subperm _ hs) ?_, fun k hk => ?_, htx, hw⟩
  · rw [map_cons, nodup_cons]
    exact ⟨hnew, h.nodup⟩
  · rcases mem_cons.mp (hs.subset hk) with rfl | hk
    · exact ⟨by omega, hs'⟩
    · have := h.alloc k hk
      omega

theorem addr_nodup (h : Linked hand e) : ((hand ++ e.txList ++ e.waitList ++ e.retransmitList ++
    e.heap.freed).map Segment.addr).Nodup := by
  have := h.nodup
  rwa [nodes, map_map] at this

theorem tx_disjoint (h : Linked hand e) (hx : x ∈ e.txList) :
    x.addr ∉ e.waitList.map Segment.addr ∧ x.addr ∉ e.retransmitList.map Segment.addr ∧
      x.addr ∉ e.heap.freed.map Segment.addr := by
  have hn := nodup_iff_count_le_one.mp h.addr_nodup x.addr
  have hpos : 0 < (e.txList.map Segment.addr).count x.addr :=
    count_pos_iff.mpr (mem_map_of_mem hx)
  simp only [map_append, count_append] at hn
  refine ⟨?_, ?_, ?_⟩ <;> rw [← count_eq_zero] <;> omega

/-! ### Taking a segment off a list -/

theorem getLast_of_cons (htx : e.txEnd = e.txList.getLast?) (hl : e.txList = x :: rest) :
    (if rest = [] then none else e.txEnd) = rest.getLast? := by
  rw [htx, hl]
  cases rest with
  | nil => rfl
  | cons y rest => simp

theorem takeTx (h : Linked [] e) (hl : e.txList = x :: rest) : Linked [x] (e.takeTx x rest) := by
  refine h.of_subperm ?_ (Nat.le_refl _) (Nat.le_refl _) (getLast_of_cons h.txEnd hl) fun y hy => ?_
  · refine List.Perm.subperm (List.Perm.of_eq ?_)
    simp [nodes, Am.takeTx, hl]
  · have := h.waitEnd y hy
    rw [hl] at this
    exact ⟨this.1, fun hm => this.2 (mem_cons_of_mem _ hm)⟩

theorem takeRetx (h : Linked [] e) (hl : e.retransmitList = x :: rest) : Linked [x] (e.takeRetx x rest) := by
  refine h.of_subperm ?_ (Nat.le_refl _) (Nat.le_refl _) h.txEnd h.waitEnd
  rw [subperm_iff_count]
  intro k
  simp only [nodes, Am.takeRetx, hl, map_append, map_cons, count_append,
    count_cons, map_nil, count_nil]
  omega

/-! ### Cutting a segment -/

theorem segmentTx (h : Linked [x] e) (size : Int) : Linked [(e.segmentTx x size).2] (e.segmentTx x size).1 := by
  rw [Am.segmentTx]
  split
  · refine h.of_subperm_cons (s := x.sdu) ?_ rfl (Nat.le_refl _) ?_ ?_ fun y hy => ?_
    · rw [subperm_iff_count]
      intro k
      simp only [nodes, resegment, pushTx, addSegment, Segment.node, map_append, map_cons,
        count_append, count_cons, map_nil, count_nil, Heap.updateSdu]
      omega
    · exact (h.alloc x.node (by simp [nodes])).2
    · show (if e.txEnd = none then _ else e.txEnd) = _
      rw [h.txEnd]
      cases hl : e.txList with
      | nil => simp [resegment, pushTx, addSegment, hl]
      | cons y l => simp [resegment, pushTx, addSegment, hl]
    · have hy' := h.waitEnd y hy
      refine ⟨Nat.lt_succ_of_lt hy'.1, ?_⟩
      simp only [resegment, pushTx, addSegment, map_cons, mem_cons, not_or]
      exact ⟨by omega, hy'.2⟩
  · exact h

theorem segmentRetx (h : Linked [x] e) (size : Int) : Linked [(e.segmentRetx x size).2] (e.segmentRetx x size).1 := by
  rw [Am.segmentRetx]
  split
  · refine h.of_subperm_cons (s := x.sdu) ?_ rfl (Nat.le_refl _) ?_ h.txEnd fun y hy => ?_
    · rw [subperm_iff_count]
      intro k
      simp only [nodes, resegment, pushRetx, addSegment, Segment.node, map_append, map_cons,
        count_append, count_cons, map_nil, count_nil, Heap.updateSdu]
      omega
    · exact (h.alloc x.node (by simp [nodes])).2
    · have hy' := h.waitEnd y hy
      exact ⟨Nat.lt_succ_of_lt hy'.1, hy'.2⟩
  · exact h

theorem assignSn (h : Linked hand e) (x : Segment) : Linked hand (e.assignSn x) := by
  rw [Am.assignSn]
  split
  · exact { h with }
  · exact h

end Linked

/-! ### Putting a segment into a list -/

theorem txSduSegmentListAdd_perm (e : Am) (x : Segment) (l : List Segment) :
    (e.txSduSegmentListAdd x l).Perm (x :: l) := by
  induction l with
  | nil => exact List.Perm.refl _
  | cons y l ih =>
    rw [txSduSegmentListAdd]
    split
    · exact List.Perm.refl _
    · exact (ih.cons y).trans (List.Perm.swap x y l)

theorem putInWaitList_lists (h : Linked [x] e) (hr : e.putInWaitList x = .ok e') :
    ∃ w r l, e' = { e with waitList := w, retransmitList := r, waitEnd := l } ∧
      (w ++ r).Subperm (x :: (e.waitList ++ e.retransmitList)) ∧
      (l = e.waitEnd ∨ l = some x ∨ ∃ y ∈ w, l = some y) := by
  rcases putInWaitList_ok hr with ⟨-, hr⟩ | ⟨last, -, -, -, rfl⟩
  · rcases waitListAppend_ok hr with ⟨hnil, rfl⟩ | ⟨last, -, hlast, -, rfl⟩
    · refine ⟨_, _, _, rfl, ?_, .inr (.inl rfl)⟩
      rw [hnil]
      exact List.Subperm.refl _
    · have htx : linkAfter last x e.txList = e.txList :=
        linkAfter_of_not_mem (h.waitEnd last hlast).2
      refine ⟨linkAfter last x e.waitList, linkAfter last x e.retransmitList, some x, ?_, ?_, .inr (.inl rfl)⟩
      · rw [htx]
      · rw [subperm_iff_count]
        intro k
        have hw := count_linkAfter_le last x e.waitList k
        have hr := count_linkAfter_le last x e.retransmitList k
        -- `last` is in one of the two lists at most
        have hn := nodup_iff_count_le_one.mp h.addr_nodup last.addr
        simp only [map_append, count_append] at hn
        simp only [count_append, count_cons, count_nil] at hw hr ⊢
        split at hw
        · rename_i hmem
          have := count_pos_iff.mpr hmem
          rw [if_neg fun hmem' => by have := count_pos_iff.mpr hmem'; omega] at hr
          omega
        · split at hr <;> omega
  · refine ⟨e.txSduSegmentListAdd x e.waitList, e.retransmitList, _, rfl, ?_, ?_⟩
    · exact ((e.txSduSegmentListAdd_perm x e.waitList).append_right e.retransmitList).subperm
    · split
      · rename_i hlen
        obtain ⟨y, hy⟩ := length_eq_one_iff.mp hlen
        exact .inr (.inr ⟨y, by rw [hy]; simp, by rw [hy]; rfl⟩)
      · exact .inl rfl

namespace Linked

theorem put (h : Linked [x] e) (hr : e.putInWaitList x = .ok e') : Linked [] e' := by
  obtain ⟨w, r, l, rfl, hs, hl⟩ := putInWaitList_lists h hr
  have hx : x.addr < e.heap.segCount ∧ x.addr ∉ e.txList.map Segment.addr := by
    refine ⟨(h.alloc x.node (by simp [nodes])).1, ?_⟩
    have hn := nodup_iff_count_le_one.mp h.addr_nodup x.addr
    simp only [map_append, count_append, map_cons, count_cons_self] at hn
    rw [← count_eq_zero]
    omega
  refine h.of_subperm ?_ (Nat.le_refl _) (Nat.le_refl _) h.txEnd fun y hy => ?_
  · have hm := subperm_iff_count.mp (map_subperm Segment.node hs)
    rw [subperm_iff_count]
    intro k
    have := hm k
    simp only [nodes, map_append, map_cons, count_append, count_cons,
      map_nil, count_nil] at this ⊢
    omega
  · rcases hl with rfl | rfl | ⟨z, hz, rfl⟩
    · exact h.waitEnd y hy
    · cases hy
      exact hx
    · cases hy
      have hmem := hs.subset (mem_append_left r hz)
      rcases mem_cons.mp hmem with rfl | hmem
      · exact hx
      · have hnode : y.node ∈ e.nodes [x] := by
          simp only [nodes, mem_map]
          refine ⟨y, ?_, rfl⟩
          simp only [mem_append] at hmem ⊢
          tauto
        refine ⟨(h.alloc y.node hnode).1, fun htx => ?_⟩
        obtain ⟨t, ht, hta⟩ := mem_map.mp htx
        have hd := h.tx_disjoint ht
        rw [hta] at hd
        rcases mem_append.mp hmem with hmem | hmem
        · exact hd.1 (mem_map_of_mem hmem)
        · exact hd.2.1 (mem_map_of_mem hmem)

end Linked

theorem txListAppend_lists (h : Linked [x] e) (hr : e.txListAppend x = .ok e') :
    e' = { e with txList := e.txList ++ [x], txEnd := some x } := by
  rcases txListAppend_ok hr with ⟨hnil, rfl⟩ | ⟨last, -, hlast, -, rfl⟩
  · rw [hnil]
    rfl
  · rw [h.txEnd] at hlast
    have hmem : last ∈ e.txList := mem_of_getLast? hlast
    obtain ⟨hw, hr', -⟩ := h.tx_disjoint hmem
    obtain ⟨pre, hpre⟩ := List.getLast?_eq_some_iff.mp hlast
    have hlink : linkAfter last x e.txList = e.txList ++ [x] := by
      rw [hpre, linkAfter_append ?_ rfl]
      · simp
      · have hn := nodup_iff_count_le_one.mp h.addr_nodup last.addr
        rw [hpre] at hn
        simp only [map_append, count_append, map_cons, count_cons_self] at hn
        rw [← count_eq_zero]
        omega
    rw [hlink, linkAfter_of_not_mem hw, linkAfter_of_not_mem hr']

namespace Linked

theorem allocSdu (h : Linked [] e) (buffer : List UInt8) (sduId : Int) :
    Linked [(e.heap.nrRlcNewSdu buffer sduId).1] (e.allocSdu buffer sduId) := by
  refine h.of_subperm_cons (s := e.heap.sduCount) ?_ rfl (Nat.le_succ _) (Nat.lt_succ_self _) h.txEnd
    fun y hy => ⟨Nat.lt_succ_of_lt (h.waitEnd y hy).1, (h.waitEnd y hy).2⟩
  exact (List.Perm.refl _).subperm

theorem removeSdu {before : List Segment} (h : Linked [] e) (hl : e.txList = before ++ x :: rest) :
    Linked [] (e.removeSdu before x rest) := by
  have hx : x.addr ∉ rest.map Segment.addr := by
    have hn := nodup_iff_count_le_one.mp h.addr_nodup x.addr
    simp only [hl, map_append, count_append, map_cons, count_cons_self] at hn
    rw [← count_eq_zero]
    omega
  refine h.of_subperm ?_ (Nat.le_refl _) (Nat.le_refl _) ?_ fun y hy => ?_
  · rw [subperm_iff_count]
    intro k
    simp only [nodes, Am.removeSdu, Heap.nrRlcFreeSduSegment, Heap.updateSdu, hl, map_append,
      map_cons, count_append, count_cons, map_nil, count_nil]
    omega
  · show (if e.txEnd.map Segment.addr = some x.addr then before.getLast? else e.txEnd) = (before ++ rest).getLast?
    rw [h.txEnd, hl]
    rcases eq_nil_or_concat rest with rfl | ⟨rest', y, rfl⟩
    · simp
    · have hxy : y.addr ≠ x.addr := fun heq => hx (by simp [heq])
      have h1 : (before ++ x :: (rest' ++ [y])).getLast? = some y := by
        rw [← cons_append, ← append_assoc, List.getLast?_concat]
      have h2 : (before ++ (rest' ++ [y])).getLast? = some y := by
        rw [← append_assoc, List.getLast?_concat]
      rw [concat_eq_append, h1, h2]
      simp [hxy]
  · have hy' := h.waitEnd y hy
    refine ⟨hy'.1, fun hm => hy'.2 ?_⟩
    rw [hl]
    simp only [Am.removeSdu, map_append, mem_append, map_cons, mem_cons] at hm ⊢
    tauto

theorem moveToRetransmit (h : Linked [] e) (hl : e.waitList = x :: rest) : Linked [] (e.moveToRetransmit x rest) := by
  refine h.of_subperm ?_ (Nat.le_refl _) (Nat.le_refl _) h.txEnd fun y hy => ?_
  · have hm := subperm_iff_count.mp ((e.txSduSegmentListAdd_perm x e.retransmitList).map Segment.node).subperm
    rw [subperm_iff_count]
    intro k
    have := hm k
    simp only [nodes, Am.moveToRetransmit, hl, map_append, map_cons, count_append,
      count_cons, map_nil, count_nil] at this ⊢
    omega
  · refine h.waitEnd y ?_
    simp only [Am.moveToRetransmit] at hy
    split at hy
    · simp at hy
    · exact hy

theorem freeList_heap (m : Heap) (l : List Segment) : (m.nrRlcFreeSduSegmentList l).freed = l.reverse ++ m.freed ∧
      (m.nrRlcFreeSduSegmentList l).segCount = m.segCount ∧ (m.nrRlcFreeSduSegmentList l).sduCount = m.sduCount := by
  induction l generalizing m with
  | nil => exact ⟨rfl, rfl, rfl⟩
  | cons x l ih =>
    obtain ⟨h1, h2, h3⟩ := ih (m.nrRlcFreeSduSegment x).2
    refine ⟨?_, h2, h3⟩
    rw [Heap.nrRlcFreeSduSegmentList, h1]
    simp [Heap.nrRlcFreeSduSegment, Heap.updateSdu]

theorem reestablishment (h : Linked [] e) : Linked [] e.reestablishment := by
  obtain ⟨h1, h2, h3⟩ := freeList_heap e.heap e.txList
  obtain ⟨h4, h5, h6⟩ := freeList_heap (e.heap.nrRlcFreeSduSegmentList e.txList) e.waitList
  obtain ⟨h7, h8, h9⟩ := freeList_heap
    ((e.heap.nrRlcFreeSduSegmentList e.txList).nrRlcFreeSduSegmentList e.waitList) e.retransmitList
  refine h.of_subperm ?_ ?_ ?_ rfl fun y hy => by simp [Am.reestablishment] at hy
  · rw [subperm_iff_count]
    intro k
    simp only [nodes, Am.reestablishment, h7, h4, h1, map_append, map_reverse,
      count_append, count_reverse, map_nil, count_nil]
    omega
  · exact (h8.trans (h5.trans h2)).ge
  · exact (h9.trans (h6.trans h3)).ge

end Linked

theorem acceptSdu_lists {buffer : List UInt8} {sduId : Int} (h : Linked [] e)
    (hr : e.acceptSdu buffer sduId = .ok e') :
    e' = { e.allocSdu buffer sduId with
      txList := e.txList ++ [(e.heap.nrRlcNewSdu buffer sduId).1]
      txEnd := some (e.heap.nrRlcNewSdu buffer sduId).1
      bstatusTxSize := e.bstatusTxSize +
        (e.computePduHeaderSize (e.heap.nrRlcNewSdu buffer sduId).1 + buffer.length) } := by
  obtain ⟨e₁, h₁, hr⟩ := bind_eq_ok.mp hr
  rw [txListAppend_lists (h.allocSdu buffer sduId) h₁] at hr
  exact (Except.ok.inj hr).symm

theorem Linked.acceptSdu {buffer : List UInt8} {sduId : Int} (h : Linked [] e)
    (hr : e.acceptSdu buffer sduId = .ok e') : Linked [] e' := by
  rw [acceptSdu_lists h hr]
  refine h.of_subperm_cons (s := e.heap.sduCount) ?_ rfl (Nat.le_succ _) (Nat.lt_succ_self _)
    (by simp) fun y hy => ⟨Nat.lt_succ_of_lt (h.waitEnd y hy).1, ?_⟩
  · rw [subperm_iff_count]
    intro k
    simp only [nodes, Am.allocSdu, Heap.nrRlcNewSdu, Segment.node, map_append, map_cons,
      count_append, count_cons, map_nil, count_nil]
    omega
  · have hy' := h.waitEnd y hy
    simp only [Heap.nrRlcNewSdu, map_append, map_cons, map_nil, mem_append,
      mem_singleton, not_or]
    exact ⟨hy'.2, by omega⟩

end Am

end OaiNr.Rlc
