import OaiNr.Rlc.Lemmas.TxInv

/-!
# Status PDUs conserve the segments
-/

namespace OaiNr.Rlc.Am

open List

structure SortedTx (e : Am) : Prop where
  modulus : e.snModulus = 2 ^ e.snFieldLength
  next : e.SnOk e.txNext
  lists : e.ListsOk
  nodup : ((e.txList ++ e.waitList ++ e.retransmitList).map Segment.addr).Nodup

instance (e : Am) : Decidable e.SortedTx :=
  decidable_of_iff (e.snModulus = 2 ^ e.snFieldLength ∧ e.SnOk e.txNext ∧ e.ListsOk ∧
      ((e.txList ++ e.waitList ++ e.retransmitList).map Segment.addr).Nodup)
    ⟨fun h => ⟨h.1, h.2.1, h.2.2.1, h.2.2.2⟩, fun h => ⟨h.modulus, h.next, h.lists, h.nodup⟩⟩

structure Conserves (e : Am) (ackSn : Int) (ns : List Nack) (e' : Am) : Prop where
  freed : ∃ l, e'.heap.freed = l ++ e.heap.freed ∧
    l.Perm ((e.waitList ++ e.retransmitList).filter fun x =>
      e.segD x < e.modulusTx ackSn ∧ ¬e.NackedBy ns x)
  nacked : ∀ x ∈ e.waitList ++ e.retransmitList, e.NackedBy ns x → x ∈ e'.retransmitList
  others : ∀ x ∈ e.waitList ++ e.retransmitList,
    ¬(e.segD x < e.modulusTx ackSn ∧ ¬e.NackedBy ns x) → ¬e.NackedBy ns x →
      (e'.txList ++ e'.waitList ++ e'.retransmitList).count x = 1
  txList : e'.txList = e.txList
  sn : ∀ x ∈ e.txList ++ e.waitList ++ e.retransmitList, e'.snOf x = e.snOf x
  waitList : e'.waitList.Pairwise e'.SegLe
  retransmitList : e'.retransmitList.Pairwise e'.SegLe

variable {e : Am} {ackSn : Int} {ns : List Nack} {bs : List NackBlock} {buffer : List UInt8}

theorem SortedTx.modulus_pos (h : e.SortedTx) : 0 < e.snModulus := by
  rw [h.modulus]
  positivity

theorem conserves_of_done (h : e.SortedTx) (hack : e.SnOk ackSn) (hd : Walk.Done e ackSn ns (e.walkStatus ackSn bs)) :
    e.Conserves ackSn ns (e.applyStatus ackSn bs) := by
  have hwait : (e.applyStatus ackSn bs).waitList = e.waitList.filter (e.Stays ackSn ns ·) := hd.wait
  have hretx : (e.applyStatus ackSn bs).retransmitList.Perm
      (e.waitList.filter (e.NackedBy ns ·) ++ e.retransmitList.filter (¬e.Acked ackSn ns ·)) := hd.retx
  have hsn : ∀ b, ((e.applyStatus ackSn bs).heap.sdus b).sn = (e.heap.sdus b).sn := hd.same.sn
  have htx := e.applyStatus_txList ackSn bs
  have hsorted := applyStatus_sorted h.lists h.next hack
    (by rw [hwait]; exact h.lists.wait.filter _) hd.sorted
  refine
    { freed := hd.freed, nacked := ?_, others := ?_, txList := htx
      sn := fun x _ => hsn x.sdu, waitList := hsorted.1, retransmitList := hsorted.2 }
  · intro x hx hnacked
    have hnot : ¬e.Acked ackSn ns x := fun ha => ha.2 hnacked
    rw [hretx.mem_iff]
    simp only [mem_append, mem_filter] at hx ⊢
    rcases hx with hx | hx
    · exact .inl ⟨hx, by simpa using hnacked⟩
    · exact .inr ⟨hx, by simpa using hnot⟩
  · intro x hx hna hnn
    have hstay : e.Stays ackSn ns x := ⟨fun hlt => hna ⟨hlt, hnn⟩, hnn⟩
    have hacked : ¬e.Acked ackSn ns x := hna
    have hone : (e.txList ++ e.waitList ++ e.retransmitList).count x = 1 :=
      count_eq_one_of_mem (List.Nodup.of_map _ h.nodup) (by
        simp only [mem_append] at hx ⊢
        tauto)
    have h0 : (e.waitList.filter (e.NackedBy ns ·)).count x = 0 := by
      simp [count_eq_zero, hnn]
    rw [count_append, count_append] at hone ⊢
    rw [htx, hwait, hretx.count_eq, count_append, h0, count_filter (by simpa using hstay),
      count_filter (by simpa using hacked)]
    omega

theorem not_conserves_of_cut (h : e.SortedTx) (hc : Walk.Cut e ackSn ns (e.walkStatus ackSn bs)) :
    ¬e.Conserves ackSn ns (e.applyStatus ackSn bs) := by
  obtain ⟨r, rs, pr, hlist, hcut, hwait, hnew⟩ := hc.lost
  intro hcons
  have hr : r ∈ e.retransmitList := by rw [hlist]; simp
  have hone := hcons.others r (mem_append_right _ hr)
    (fun ha => by have := hcut.sn; omega) hcut.not_nacked
  -- `r` was in the lists once, in the part that is lost
  have hold : (e.txList ++ e.waitList ++ e.retransmitList).count r = 1 :=
    count_eq_one_of_mem (List.Nodup.of_map _ h.nodup) (mem_append_right _ hr)
  rw [hlist] at hold
  simp only [count_append, count_cons_self] at hold
  have hw' : (e.applyStatus ackSn bs).waitList = e.waitList.filter (e.Stays ackSn ns ·) := by
    rw [← hwait, ← append_nil (Walk.waitDone _), ← hc.curWait]
    rfl
  have hr' : (e.applyStatus ackSn bs).retransmitList = (e.walkStatus ackSn bs).newRetx := by
    rw [← append_nil (Walk.newRetx _), ← hc.curRetx]
    rfl
  have hw0 := (filter_sublist (p := (e.Stays ackSn ns ·)) (l := e.waitList)).count_le r
  have hn0 := (filter_sublist (p := (e.NackedBy ns ·)) (l := e.waitList)).count_le r
  have hp0 := (filter_sublist (p := (¬e.Acked ackSn ns ·)) (l := pr)).count_le r
  rw [e.applyStatus_txList, hw', hr', count_append, count_append, hnew.count_eq,
    count_append] at hone
  omega

theorem nacksOk_of_validate (h : e.SortedTx) (hv : e.validateControlPdu buffer = true)
    (hs : (e.nacksOf buffer).Pairwise e.NackLt) :
    e.SnOk (e.ackSnOf buffer) ∧ e.NacksOk (e.ackSnOf buffer) (e.nacksOf buffer) := by
  obtain ⟨hcomplete, -, -, hle⟩ := validateControlPdu_iff.mp hv
  refine ⟨?_, fun n hn => nacksOf_snOk h.modulus_pos hn, hle, hs⟩
  rw [SnOk, h.modulus]
  exact ackSnOf_range hcomplete

/-- A status PDU that is accepted and whose NACKs increase conserves the segments if and only if it
does not lose the end of the retransmit list. -/
theorem conserves_iff_not_losesSuffix (h : e.SortedTx) (hv : e.validateControlPdu buffer = true)
    (hs : (e.nacksOf buffer).Pairwise e.NackLt) :
    e.Conserves (e.ackSnOf buffer) (e.nacksOf buffer) (e.processControlPdu buffer) ↔
      ¬e.LosesSuffix (e.ackSnOf buffer) (e.nacksOf buffer) := by
  obtain ⟨hack, hn⟩ := nacksOk_of_validate h hv hs
  rw [processControlPdu, if_pos hv]
  rcases walkStatus_cases h.lists hn with ⟨hloss, hd⟩ | hc
  · exact iff_of_true (conserves_of_done h hack hd) hloss
  · obtain ⟨r, rs, pr, hlist, hcut, -⟩ := hc.lost
    refine iff_of_false (not_conserves_of_cut h hc) (not_not.mpr ⟨r, ?_, hcut⟩)
    rw [hlist]
    simp

def twoHalvesNacked : List Op :=
  [.recvSdu [1, 2, 3, 4] 7, .generatePdu (List.replicate 4 0), .generatePdu (List.replicate 6 0),
    .recvPdu [0x00, 0x00, 0x80, 0x00, 0x00]]

/-- A status PDU that asks for the first half again conserves the segments. -/
theorem conserves_first_half : ∃ e, (newNrRlcEntityAm .test1).execAll 1 twoHalvesNacked = .ok e ∧
    e.Conserves 0 [⟨0, 0, 1⟩] (e.processControlPdu [0x00, 0x00, 0x80, 0x00, 0x04, 0x00, 0x00, 0x00, 0x01]) := by
  let buffer : List UInt8 := [0x00, 0x00, 0x80, 0x00, 0x04, 0x00, 0x00, 0x00, 0x01]
  have hrun : ((newNrRlcEntityAm .test1).execAll 1 twoHalvesNacked).map (fun e =>
      decide (e.SortedTx ∧ e.validateControlPdu buffer = true ∧ e.ackSnOf buffer = 0 ∧
        e.nacksOf buffer = [⟨0, 0, 1⟩] ∧ (e.nacksOf buffer).Pairwise e.NackLt ∧
        ¬e.LosesSuffix (e.ackSnOf buffer) (e.nacksOf buffer))) = .ok true := by decide
  obtain ⟨e, he, h⟩ := map_eq_ok.mp hrun
  obtain ⟨h, hv, hack, hnacks, hs, hloss⟩ := of_decide_eq_true h
  have := (conserves_iff_not_losesSuffix h hv hs).mpr hloss
  rw [hack, hnacks] at this
  exact ⟨e, he, this⟩

/-- A status PDU that asks for the second half only, with the same SN as ACK, makes both halves
disappear: they are in no list afterwards, and were not freed. -/
theorem status_loses_both_halves : ∃ e, (newNrRlcEntityAm .test1).execAll 1 twoHalvesNacked = .ok e ∧
    ∃ buffer, e.SortedTx ∧ e.validateControlPdu buffer = true ∧ e.ackSnOf buffer = 0 ∧
      e.nacksOf buffer = [⟨0, 2, 3⟩] ∧ e.retransmitList.map Segment.so = [0, 2] ∧
      (e.processControlPdu buffer).txList = [] ∧ (e.processControlPdu buffer).waitList = [] ∧
      (e.processControlPdu buffer).retransmitList = [] ∧ (e.processControlPdu buffer).heap.freed = [] ∧
      ¬e.Conserves (e.ackSnOf buffer) (e.nacksOf buffer) (e.processControlPdu buffer) := by
  let buffer : List UInt8 := [0x00, 0x00, 0x80, 0x00, 0x04, 0x00, 0x02, 0x00, 0x03]
  have hrun : ((newNrRlcEntityAm .test1).execAll 1 twoHalvesNacked).map (fun e =>
      decide (e.SortedTx ∧ e.validateControlPdu buffer = true ∧ e.ackSnOf buffer = 0 ∧
        e.nacksOf buffer = [⟨0, 2, 3⟩] ∧ e.retransmitList.map Segment.so = [0, 2] ∧
        (e.processControlPdu buffer).txList = [] ∧ (e.processControlPdu buffer).waitList = [] ∧
        (e.processControlPdu buffer).retransmitList = [] ∧
        (e.processControlPdu buffer).heap.freed = [] ∧
        ∃ x ∈ e.waitList ++ e.retransmitList, e.NackedBy (e.nacksOf buffer) x)) = .ok true := by
    decide
  obtain ⟨e, he, h⟩ := map_eq_ok.mp hrun
  obtain ⟨h1, h2, h3, h4, h5, h6, h7, h8, h9, x, hx, hn⟩ := of_decide_eq_true h
  refine ⟨e, he, buffer, h1, h2, h3, h4, h5, h6, h7, h8, h9, fun hc => ?_⟩
  have := hc.nacked x hx hn
  rw [h8] at this
  exact absurd this not_mem_nil

end OaiNr.Rlc.Am
