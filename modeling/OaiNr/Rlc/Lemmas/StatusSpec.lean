import OaiNr.Rlc.Lemmas.Frame
import OaiNr.Rlc.Lemmas.WalkSpec

/-!
# What a status PDU does with the lists
-/

namespace OaiNr.Rlc

open List Am

/-! ## The ACK -/

namespace Walk

structure Freed (e : Am) (ackSn : Int) (l rest : List Segment) (e' : Am) : Prop where
  same : e.SameSn e'
  split : ∃ a, l = a ++ rest ∧ (∀ x ∈ a, e.segD x < e.modulusTx ackSn) ∧
    e'.heap.freed = a.reverse ++ e.heap.freed
  head : ∀ x ∈ rest.head?, ¬e.segD x < e.modulusTx ackSn

variable {e e' e'' : Am} {ackSn : Int} {ns : List Nack} {w : Walk} {x : Segment} {l rest pw pr : List Segment}

theorem Freed.nil (e : Am) (ackSn : Int) : Freed e ackSn [] [] e :=
  ⟨SameSn.refl e, ⟨[], rfl, by simp, rfl⟩, by simp⟩

theorem Freed.stop (h : ¬e.snCompareTx (e.snOf x) ackSn < 0) : Freed e ackSn (x :: l) (x :: l) e := by
  refine ⟨SameSn.refl e, ⟨[], rfl, by simp, rfl⟩, ?_⟩
  intro y hy
  simp only [List.head?_cons, Option.mem_some_iff] at hy
  rw [snCompareTx] at h
  rw [← hy, segD]
  omega

theorem Freed.cons (h : e.snCompareTx (e.snOf x) ackSn < 0) (hs : e.SameSn e')
    (hf : e'.heap.freed = x :: e.heap.freed) (hr : Freed e' ackSn l rest e'') : Freed e ackSn (x :: l) rest e'' := by
  obtain ⟨a, hl, hlt, hfreed⟩ := hr.split
  refine ⟨hs.trans hr.same, ⟨x :: a, by rw [hl, cons_append], ?_, ?_⟩, ?_⟩
  · intro y hy
    rw [snCompareTx] at h
    rcases mem_cons.mp hy with rfl | hy
    · rw [segD]
      omega
    · have := hlt y hy
      rwa [hs.segD, hs.modulusTx] at this
  · rw [hfreed, hf]
    simp
  · intro y hy
    have := hr.head y hy
    rwa [hs.segD, hs.modulusTx] at this

theorem ackWait_freed (ackSn : Int) (hcur : w.curWait = l) :
    Freed w.entity ackSn l (ackWait ackSn l w).curWait (ackWait ackSn l w).entity ∧
      (ackWait ackSn l w).waitDone = w.waitDone ∧ (ackWait ackSn l w).waitTail = w.waitTail ∧
      (ackWait ackSn l w).newRetx = w.newRetx ∧ (ackWait ackSn l w).curRetx = w.curRetx := by
  induction l generalizing w with
  | nil =>
    rw [ackWait, hcur]
    exact ⟨Freed.nil .., rfl, rfl, rfl, rfl⟩
  | cons x l ih =>
    rw [ackWait]
    split
    · rename_i hx
      obtain ⟨hr, h1, h2, h3, h4⟩ :=
        ih (w := { w.unlinkWait x l with entity := w.entity.freeAcked x }) rfl
      exact ⟨hr.cons hx (freeAcked_sameSn ..) (freeAcked_freed ..), h1, h2, h3, h4⟩
    · rename_i hx
      rw [hcur]
      exact ⟨Freed.stop hx, rfl, rfl, rfl, rfl⟩

theorem ackRetx_freed (ackSn : Int) (hcur : w.curRetx = l) :
    Freed w.entity ackSn l (ackRetx ackSn l w).curRetx (ackRetx ackSn l w).entity ∧
      (ackRetx ackSn l w).waitDone = w.waitDone ∧ (ackRetx ackSn l w).waitTail = w.waitTail ∧
      (ackRetx ackSn l w).newRetx = w.newRetx ∧ (ackRetx ackSn l w).curWait = w.curWait := by
  induction l generalizing w with
  | nil =>
    rw [ackRetx, hcur]
    exact ⟨Freed.nil .., rfl, rfl, rfl, rfl⟩
  | cons x l ih =>
    rw [ackRetx]
    split
    · rename_i hx
      obtain ⟨hr, h1, h2, h3, h4⟩ :=
        ih (w := { w with entity := ackedRetxEntity w.entity x, curRetx := l }) rfl
      exact ⟨hr.cons hx (ackedRetxEntity_sameSn ..) (ackedRetxEntity_freed ..), h1, h2, h3, h4⟩
    · rename_i hx
      rw [hcur]
      exact ⟨Freed.stop hx, rfl, rfl, rfl, rfl⟩

theorem Freed.eq_filter (h : Freed e' ackSn l rest e'') (hs : e.SameSn e')
    (hl : l.Pairwise e.SegLe) (hn : ∀ x ∈ l, ¬e.NackedBy ns x) : rest = l.filter (e.Stays ackSn ns ·) ∧
      e''.heap.freed = (l.filter (e.Acked ackSn ns ·)).reverse ++ e'.heap.freed := by
  obtain ⟨a, hsplit, hlt, hfreed⟩ := h.split
  have hrest : ∀ x ∈ rest, e.modulusTx ackSn ≤ e.segD x := by
    refine le_segD_of_head (pairwise_append.mp (hsplit ▸ hl)).2.1 fun x hx => ?_
    have := h.head x hx
    rw [hs.segD, hs.modulusTx] at this
    omega
  have ha : ∀ x ∈ a, e.Acked ackSn ns x := by
    intro x hx
    have hx' := hlt x hx
    rw [hs.segD, hs.modulusTx] at hx'
    exact ⟨hx', hn x (by rw [hsplit]; simp [hx])⟩
  have hr : ∀ x ∈ rest, e.Stays ackSn ns x := fun x hx =>
    ⟨Int.not_lt.mpr (hrest x hx), hn x (by rw [hsplit]; simp [hx])⟩
  constructor
  · rw [hsplit, filter_append, filter_eq_nil_iff.mpr, filter_eq_self.mpr, nil_append]
    · simpa using hr
    · intro x hx
      have hnot : ¬e.Stays ackSn ns x := fun h => h.1 (ha x hx).1
      simp [hnot]
  · rw [hfreed, hsplit, filter_append, filter_eq_self.mpr, filter_eq_nil_iff.mpr, append_nil]
    · intro x hx
      have hnot : ¬e.Acked ackSn ns x := fun h => (hr x hx).1 h.1
      simp [hnot]
    · simpa using ha

structure Done (e : Am) (ackSn : Int) (ns : List Nack) (w : Walk) : Prop where
  same : e.SameSn w.entity
  wait : w.waitDone ++ w.curWait ++ w.waitTail = e.waitList.filter (e.Stays ackSn ns ·)
  retx : (w.newRetx ++ w.curRetx).Perm
    (e.waitList.filter (e.NackedBy ns ·) ++ e.retransmitList.filter (¬e.Acked ackSn ns ·))
  freed : ∃ l, w.entity.heap.freed = l ++ e.heap.freed ∧
    l.Perm ((e.waitList ++ e.retransmitList).filter (e.Acked ackSn ns ·))
  sorted : (w.newRetx ++ w.curRetx).Pairwise e.SegLe

theorem Progress.done (hl : e.ListsOk) (h : Progress e ackSn ns ns pw pr w) :
    Done e ackSn ns (ackRetx ackSn (ackWait ackSn w.curWait w).curRetx (ackWait ackSn w.curWait w)) := by
  obtain ⟨hf, hd, ht, hn, hc⟩ := ackWait_freed (w := w) ackSn rfl
  obtain ⟨hf', hd', ht', hn', hc'⟩ :=
    ackRetx_freed (w := ackWait ackSn w.curWait w) ackSn rfl
  generalize ackWait ackSn w.curWait w = w₁ at *
  generalize ackRetx ackSn w₁.curRetx w₁ = w₂ at *
  -- what is left of the lists is sorted and not nacked
  have hnot : ∀ x ∈ w.curWait ++ w.curRetx, ¬e.NackedBy ns x := by
    rintro x hx ⟨m, hm, hmx⟩
    exact (h.passed m hm x hx).1 hmx
  have hws := hl.wait
  have hrs := hl.retx
  rw [h.wait, pairwise_append] at hws
  rw [h.retx, pairwise_append] at hrs
  obtain ⟨hwait, hwfreed⟩ :=
    hf.eq_filter h.same hws.2.1 fun x hx => hnot x (mem_append_left _ hx)
  rw [hc] at hf'
  obtain ⟨hretx, hrfreed⟩ := hf'.eq_filter (h.same.trans hf.same) hrs.2.1
    fun x hx => hnot x (mem_append_right _ hx)
  have hnw : w.curWait.filter (e.NackedBy ns ·) = [] :=
    filter_eq_nil_iff.mpr fun x hx => by simpa using hnot x (mem_append_left _ hx)
  have hsr : w.curRetx.filter (e.Stays ackSn ns ·) = w.curRetx.filter (¬e.Acked ackSn ns ·) :=
    filter_congr fun x hx => by
      have := hnot x (mem_append_right _ hx)
      simp [Stays, Acked, this]
  refine ⟨h.same.trans (hf.same.trans hf'.same), ?_, ?_, ?_, ?_⟩
  · rw [hd', hd, h.waitDone, hc', hwait, ht', ht, h.tail, append_nil, ← filter_append, ← h.wait]
  · rw [hn', hn, hretx, hsr, h.wait, h.retx, filter_append, filter_append, hnw,
      append_nil, ← append_assoc]
    exact h.newRetx.append_right _
  · obtain ⟨l, hl1, hl2⟩ := h.freed
    refine ⟨_, by rw [hrfreed, hwfreed, hl1, ← append_assoc, ← append_assoc], ?_⟩
    rw [perm_iff_count] at hl2 ⊢
    intro a
    rw [h.wait, h.retx]
    simp only [count_append, count_reverse, filter_append, hl2 a]
    omega
  · rw [hn', hn, pairwise_append]
    refine ⟨h.sorted, ?_, fun x hx y hy => ?_⟩
    · rw [hretx]
      exact hrs.2.1.filter _
    · rw [hretx] at hy
      exact h.below x hx y (mem_append_right _ (mem_of_mem_filter hy))

theorem Cut.done (h : Cut e ackSn ns w) :
    Cut e ackSn ns (ackRetx ackSn (ackWait ackSn w.curWait w).curRetx (ackWait ackSn w.curWait w)) := by
  rw [h.curWait, ackWait, h.curRetx, ackRetx]
  exact h

end Walk

namespace Am

variable {e : Am} {ackSn : Int} {ns : List Nack} {bs : List NackBlock} {a : Int} {x : Segment}

theorem walkStatus_cases (hl : e.ListsOk) (hn : e.NacksOk ackSn (bs.flatMap e.expand)) :
    (¬e.LosesSuffix ackSn (bs.flatMap e.expand) ∧ Walk.Done e ackSn (bs.flatMap e.expand) (e.walkStatus ackSn bs)) ∨
    Walk.Cut e ackSn (bs.flatMap e.expand) (e.walkStatus ackSn bs) := by
  rcases Walk.processNacks_past hl hn (.inl ⟨[], [], Walk.Progress.init e ackSn _⟩) rfl rfl with
    ⟨pw, pr, h⟩ | h
  · exact .inl ⟨h.not_losesSuffix, h.done hl⟩
  · exact .inr h.done

/-! ## The new `tx_next_ack` -/

theorem modulusTx_lowerSn (e : Am) (t sn : Int) :
    e.modulusTx (e.lowerSn t sn) = min (e.modulusTx t) (e.modulusTx sn) := by
  rw [lowerSn, snCompareTx]
  split <;> omega

theorem modulusTx_lowerHead_le (e : Am) (t : Int) (l : List Segment) : e.modulusTx (e.lowerHead t l) ≤ e.modulusTx t ∧
      ∀ x ∈ l.head?, e.modulusTx (e.lowerHead t l) ≤ e.segD x := by
  cases l with
  | nil => simp [lowerHead]
  | cons y l =>
    rw [lowerHead, modulusTx_lowerSn]
    refine ⟨Int.min_le_left .., fun x hx => ?_⟩
    simp only [List.head?_cons, Option.mem_some_iff] at hx
    rw [← hx]
    exact Int.min_le_right ..

theorem lowerSn_cases (e : Am) (t sn : Int) : e.lowerSn t sn = t ∨ e.lowerSn t sn = sn := by
  rw [lowerSn]
  split
  · exact .inr rfl
  · exact .inl rfl

theorem SnOk.lowerSn {t sn : Int} (ht : e.SnOk t) (hs : e.SnOk sn) : e.SnOk (e.lowerSn t sn) := by
  rcases e.lowerSn_cases t sn with h | h
  · rwa [h]
  · rwa [h]

theorem SnOk.lowerHead {t : Int} {l : List Segment} (ht : e.SnOk t)
    (hl : ∀ x ∈ l, e.SnOk (e.snOf x)) : e.SnOk (e.lowerHead t l) := by
  cases l with
  | nil => exact ht
  | cons x l => exact ht.lowerSn (hl x mem_cons_self)

theorem updateTxNextAck_le (e : Am) (ackSn : Int) :
    e.modulusTx (e.updateTxNextAck ackSn).txNextAck ≤ e.modulusTx e.txNext ∧
      e.modulusTx (e.updateTxNextAck ackSn).txNextAck ≤ e.modulusTx ackSn ∧
      (∀ x ∈ e.waitList.head?, e.modulusTx (e.updateTxNextAck ackSn).txNextAck ≤ e.segD x) ∧
      ∀ x ∈ e.retransmitList.head?, e.modulusTx (e.updateTxNextAck ackSn).txNextAck ≤ e.segD x := by
  have h1 := e.modulusTx_lowerHead_le e.txNext e.waitList
  have h2 := e.modulusTx_lowerHead_le (e.lowerHead e.txNext e.waitList) e.retransmitList
  have h3 := e.modulusTx_lowerSn (e.lowerHead (e.lowerHead e.txNext e.waitList) e.retransmitList) ackSn
  have heq : (e.updateTxNextAck ackSn).txNextAck =
    e.lowerSn (e.lowerHead (e.lowerHead e.txNext e.waitList) e.retransmitList) ackSn := rfl
  rw [← heq] at h3
  refine ⟨by omega, by omega, fun x hx => ?_, fun x hx => ?_⟩
  · have := h1.2 x hx
    omega
  · have := h2.2 x hx
    omega

theorem updateTxNextAck_snOk (hnext : e.SnOk e.txNext) (hack : e.SnOk ackSn)
    (hl : ∀ x ∈ e.waitList ++ e.retransmitList, e.SnOk (e.snOf x)) : e.SnOk (e.updateTxNextAck ackSn).txNextAck :=
  ((hnext.lowerHead fun x hx => hl x (mem_append_left _ hx)).lowerHead
    fun x hx => hl x (mem_append_right _ hx)).lowerSn hack

theorem segLe_rebase {e' : Am} {y : Segment} (hk : e.SnOk e.txNextAck) (hk' : e.SnOk e'.txNextAck)
    (hm : e'.snModulus = e.snModulus) (hsn : ∀ b, (e'.heap.sdus b).sn = (e.heap.sdus b).sn)
    (hx : e.SnOk (e.snOf x)) (hy : e.SnOk (e.snOf y))
    (hlx : e.modulusTx e'.txNextAck ≤ e.segD x) (hly : e.modulusTx e'.txNextAck ≤ e.segD y)
    (h : e.SegLe x y) : e'.SegLe x y := by
  have hd : ∀ z : Segment, e.SnOk (e.snOf z) → e.modulusTx e'.txNextAck ≤ e.segD z →
      e'.segD z = e.segD z - e.modulusTx e'.txNextAck := by
    intro z hz hle
    have hpos : 0 < e.snModulus := by have := hk.1; have := hk.2; omega
    have hz' : e'.SnOk (e'.snOf z) := by
      rw [SnOk, hm, snOf, hsn]
      exact hz
    have hk'' : e'.SnOk e'.txNextAck := by
      rw [SnOk, hm]
      exact hk'
    rw [segD, modulusTx_eq hk hz, modulusTx_eq hk hk'] at hle
    rw [segD, segD, modulusTx_eq hk'' hz', hm, snOf, hsn, modulusTx_eq hk hz, modulusTx_eq hk hk']
    exact Serial.offset_rebase hpos hle
  rw [SegLe, hd x hx hlx, hd y hy hly]
  rw [SegLe] at h
  omega

theorem applyStatus_txNextAck_le (hnext : e.SnOk e.txNext) (hack : e.SnOk ackSn)
    (hl : ∀ x ∈ e.waitList ++ e.retransmitList, e.SnOk (e.snOf x)) (bs : List NackBlock) :
    e.SnOk (e.applyStatus ackSn bs).txNextAck ∧ e.modulusTx (e.applyStatus ackSn bs).txNextAck ≤ e.modulusTx e.txNext ∧
      e.modulusTx (e.applyStatus ackSn bs).txNextAck ≤ e.modulusTx ackSn ∧
      (∀ x ∈ (e.applyStatus ackSn bs).waitList.head?, e.modulusTx (e.applyStatus ackSn bs).txNextAck ≤ e.segD x) ∧
      ∀ x ∈ (e.applyStatus ackSn bs).retransmitList.head?,
        e.modulusTx (e.applyStatus ackSn bs).txNextAck ≤ e.segD x := by
  have hs := Walk.Sound.walkStatus e ackSn bs
  have hsame : e.SameSn (e.walkStatus ackSn bs).relink :=
    ⟨hs.same.txNextAck, hs.same.snModulus, hs.same.sn⟩
  have hnext' : (e.walkStatus ackSn bs).relink.txNext = e.txNext := by
    have h := congrArg Am.txNext (walkStatus_outside e ackSn bs)
    exact h
  have hok : ∀ {b}, (e.walkStatus ackSn bs).relink.SnOk b ↔ e.SnOk b := by
    intro b
    rw [SnOk, SnOk, hsame.snModulus]
  have hle := updateTxNextAck_le (e.walkStatus ackSn bs).relink ackSn
  simp only [hsame.modulusTx, hsame.segD, hnext'] at hle
  refine ⟨hok.mp (updateTxNextAck_snOk ?_ (hok.mpr hack) fun x hx => ?_), hle⟩
  · rw [hnext']
    exact hok.mpr hnext
  · rw [hsame.snOf]
    exact hok.mpr (hl x (hs.live.subset hx))

section Rebase

variable (hl : e.ListsOk) (hnext : e.SnOk e.txNext) (hack : e.SnOk ackSn)
  (hw : (e.applyStatus ackSn bs).waitList.Pairwise e.SegLe)
  (hr : (e.applyStatus ackSn bs).retransmitList.Pairwise e.SegLe)

include hl hnext hack hw hr

theorem applyStatus_txNextAck : e.SnOk (e.applyStatus ackSn bs).txNextAck ∧
    ∀ x ∈ (e.applyStatus ackSn bs).waitList ++ (e.applyStatus ackSn bs).retransmitList,
      e.SnOk (e.snOf x) ∧ e.modulusTx (e.applyStatus ackSn bs).txNextAck ≤ e.segD x := by
  obtain ⟨hsn, -, -, hhw, hhr⟩ := applyStatus_txNextAck_le hnext hack hl.sn bs
  refine ⟨hsn, fun x hx => ⟨hl.sn x ((Walk.Sound.walkStatus e ackSn bs).live.subset hx), ?_⟩⟩
  rcases mem_append.mp hx with hx | hx
  · exact le_segD_of_head hw hhw x hx
  · exact le_segD_of_head hr hhr x hx

theorem applyStatus_sorted : (e.applyStatus ackSn bs).waitList.Pairwise (e.applyStatus ackSn bs).SegLe ∧
      (e.applyStatus ackSn bs).retransmitList.Pairwise (e.applyStatus ackSn bs).SegLe := by
  obtain ⟨hsn, hle⟩ := applyStatus_txNextAck hl hnext hack hw hr
  have hs := Walk.Sound.walkStatus e ackSn bs
  have hmem : ∀ l : List Segment,
      (∀ x ∈ l, x ∈ (e.applyStatus ackSn bs).waitList ++ (e.applyStatus ackSn bs).retransmitList) →
      l.Pairwise e.SegLe → l.Pairwise (e.applyStatus ackSn bs).SegLe := by
    intro l hl' hp
    refine hp.imp_of_mem fun {x y} hx hy hxy => ?_
    have hx' := hle x (hl' x hx)
    have hy' := hle y (hl' y hy)
    exact segLe_rebase hl.ack hsn hs.same.snModulus hs.same.sn hx'.1 hy'.1 hx'.2 hy'.2 hxy
  exact ⟨hmem _ (fun x hx => mem_append_left _ hx) hw, hmem _ (fun x hx => mem_append_right _ hx) hr⟩

end Rebase

end Am

end OaiNr.Rlc
