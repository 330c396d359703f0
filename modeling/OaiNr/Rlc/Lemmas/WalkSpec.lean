import OaiNr.Rlc.Lemmas.WalkOrder

/-!
# What the walk does with each segment

For sorted lists and increasing NACKs, a segment that overlaps a NACK goes to the retransmit list, one below the ACK
is freed, and the others stay. `Progress` is this for the segments already seen, `LosesSuffix` the exception.
-/

namespace OaiNr.Rlc

open List

namespace Am

variable (e : Am) (ackSn : Int) (ns : List Nack)

def Acked (x : Segment) : Prop := e.segD x < e.modulusTx ackSn ∧ ¬e.NackedBy ns x

def Stays (x : Segment) : Prop := ¬e.segD x < e.modulusTx ackSn ∧ ¬e.NackedBy ns x

instance (x : Segment) : Decidable (e.Acked ackSn ns x) := inferInstanceAs (Decidable (_ ∧ _))

instance (x : Segment) : Decidable (e.Stays ackSn ns x) := inferInstanceAs (Decidable (_ ∧ _))

structure ListsOk : Prop where
  ack : e.SnOk e.txNextAck
  sn : ∀ x ∈ e.waitList ++ e.retransmitList, e.SnOk (e.snOf x)
  wait : e.waitList.Pairwise e.SegLe
  retx : e.retransmitList.Pairwise e.SegLe

instance : Decidable e.ListsOk :=
  decidable_of_iff (e.SnOk e.txNextAck ∧ (∀ x ∈ e.waitList ++ e.retransmitList, e.SnOk (e.snOf x)) ∧
      e.waitList.Pairwise e.SegLe ∧ e.retransmitList.Pairwise e.SegLe)
    ⟨fun h => ⟨h.1, h.2.1, h.2.2.1, h.2.2.2⟩, fun h => ⟨h.ack, h.sn, h.wait, h.retx⟩⟩

structure NacksOk : Prop where
  sn : ∀ n ∈ ns, e.SnOk n.sn
  le : ∀ n ∈ ns, e.modulusTx n.sn ≤ e.modulusTx ackSn
  sorted : ns.Pairwise e.NackLt

/-- A segment to retransmit that has the SN of the ACK and lies before a NACK for the same SN, when
nothing of the wait list is left by then. -/
structure CutsAt (r : Segment) : Prop where
  sn : e.segD r = e.modulusTx ackSn
  not_nacked : ¬e.NackedBy ns r
  before : ∃ n ∈ ns, e.modulusTx n.sn = e.modulusTx ackSn ∧ r.so ≤ n.soStart
  waitFirst : ∀ w ∈ e.waitList, e.Precedes w r

instance (r : Segment) : Decidable (e.CutsAt ackSn ns r) :=
  decidable_of_iff (e.segD r = e.modulusTx ackSn ∧ ¬e.NackedBy ns r ∧
      (∃ n ∈ ns, e.modulusTx n.sn = e.modulusTx ackSn ∧ r.so ≤ n.soStart) ∧
      ∀ w ∈ e.waitList, e.Precedes w r)
    ⟨fun h => ⟨h.1, h.2.1, h.2.2.1, h.2.2.2⟩, fun h => ⟨h.sn, h.not_nacked, h.before, h.waitFirst⟩⟩

def LosesSuffix : Prop := ∃ r ∈ e.retransmitList, e.CutsAt ackSn ns r

instance : Decidable (e.LosesSuffix ackSn ns) := inferInstanceAs (Decidable (∃ r ∈ e.retransmitList, _))

end Am

namespace Walk

open Am

/-- The walk has seen the segments `pw` of the wait list and `pr` of the retransmit list, and the
NACKs `seen` do not reach the others. -/
structure Progress (e : Am) (ackSn : Int) (ns seen : List Nack) (pw pr : List Segment) (w : Walk) : Prop where
  same : e.SameSn w.entity
  wait : e.waitList = pw ++ w.curWait
  retx : e.retransmitList = pr ++ w.curRetx
  tail : w.waitTail = []
  waitDone : w.waitDone = pw.filter (e.Stays ackSn ns ·)
  newRetx : w.newRetx.Perm (pw.filter (e.NackedBy ns ·) ++ pr.filter (¬e.Acked ackSn ns ·))
  freed : ∃ l, w.entity.heap.freed = l ++ e.heap.freed ∧
    l.Perm (pw.filter (e.Acked ackSn ns ·) ++ pr.filter (e.Acked ackSn ns ·))
  sorted : w.newRetx.Pairwise e.SegLe
  below : ∀ x ∈ w.newRetx, ∀ y ∈ w.curWait ++ w.curRetx, e.SegLe x y
  waitFirst : ∀ x ∈ pw, ∀ y ∈ w.curRetx, e.Precedes x y
  uncut : ∀ x ∈ pr, ¬e.CutsAt ackSn ns x
  passed : ∀ n ∈ seen, ∀ y ∈ w.curWait ++ w.curRetx, ¬e.Nacked n y ∧ e.BehindNack n y

variable {e : Am} {ackSn : Int} {ns seen todo : List Nack} {n : Nack} {pw pr : List Segment}
  {w w' : Walk} {f : Flow} {c r : Segment} {cs rs : List Segment}

namespace Progress

theorem init (e : Am) (ackSn : Int) (ns : List Nack) :
    Progress e ackSn ns [] [] [] (Walk.init (e.stopPollOnAck ackSn)) :=
  { same := ⟨rfl, rfl, fun _ => rfl⟩, wait := rfl, retx := rfl, tail := rfl, waitDone := rfl
    newRetx := List.Perm.refl _, freed := ⟨[], rfl, List.Perm.refl _⟩
    sorted := List.Pairwise.nil
    below := by intro x hx; simp [Walk.init] at hx
    waitFirst := by intro x hx; simp at hx
    uncut := by intro x hx; simp at hx
    passed := by intro n hn; simp at hn }

variable (hl : e.ListsOk) (h : Progress e ackSn ns seen pw pr w)
include h

theorem cur_sorted (hl : e.ListsOk) : w.curWait.Pairwise e.SegLe ∧ w.curRetx.Pairwise e.SegLe := by
  have hw := hl.wait
  have hr := hl.retx
  rw [h.wait, pairwise_append] at hw
  rw [h.retx, pairwise_append] at hr
  exact ⟨hw.2.1, hr.2.1⟩

theorem not_nackedBy (hn : e.NacksOk ackSn ns) (hns : ns = seen ++ n :: todo) (hc : c ∈ w.curWait ++ w.curRetx)
    (h1 : ¬w.entity.Nacked n c) (h2 : ¬w.entity.BehindNack n c) : ¬e.NackedBy ns c := by
  rw [h.same.nacked] at h1
  rw [h.same.behindNack] at h2
  have hs := hn.sorted
  rw [hns, pairwise_append] at hs
  rintro ⟨m, hm, hmc⟩
  rw [hns, mem_append, mem_cons] at hm
  rcases hm with hm | rfl | hm
  · exact (h.passed m hm c hc).1 hmc
  · exact h1 hmc
  · exact not_nacked_of_lt h1 h2 ((pairwise_cons.mp hs.2.1).1 m hm) hmc

/-- The first of the segments that are left comes behind those to be retransmitted. -/
theorem sorted_append (hc : c ∈ w.curWait ++ w.curRetx) (hmin : ∀ y ∈ w.curWait ++ w.curRetx, e.SegLe c y)
    (p : Segment → Bool) :
    (w.newRetx ++ [c].filter p).Pairwise e.SegLe ∧
      ∀ x ∈ w.newRetx ++ [c].filter p, ∀ y ∈ w.curWait ++ w.curRetx, e.SegLe x y := by
  have hsingle : ∀ x ∈ [c].filter p, x = c := fun x hx => mem_singleton.mp (mem_of_mem_filter hx)
  constructor
  · rw [pairwise_append]
    refine ⟨h.sorted, List.Pairwise.filter _ (pairwise_singleton _ _), fun x hx y hy => ?_⟩
    rw [hsingle y hy]
    exact h.below x hx c hc
  · intro x hx y hy
    rcases mem_append.mp hx with hx | hx
    · exact h.below x hx y hy
    · rw [hsingle x hx]
      exact hmin y hy

include hl

theorem takeWait (hf : w.WaitFirst c cs) (hsame : e.SameSn w'.entity) (hcw : w'.curWait = cs)
    (hcr : w'.curRetx = w.curRetx) (ht : w'.waitTail = [])
    (hdone : w'.waitDone = w.waitDone ++ [c].filter (e.Stays ackSn ns ·))
    (hnew : w'.newRetx = w.newRetx ++ [c].filter (e.NackedBy ns ·))
    (hfreed : w'.entity.heap.freed = [c].filter (e.Acked ackSn ns ·) ++ w.entity.heap.freed) :
    Progress e ackSn ns seen (pw ++ [c]) pr w' := by
  obtain ⟨hws, hrs⟩ := h.cur_sorted hl
  have hmin := hf.le h.same hws hrs
  have hcur := hf.1
  have hsub : ∀ y, y ∈ w'.curWait ++ w'.curRetx → y ∈ w.curWait ++ w.curRetx := by
    intro y hy
    rw [hcw, hcr, mem_append] at hy
    rw [hcur, mem_append, mem_cons]
    tauto
  obtain ⟨hsorted, hbelow⟩ := h.sorted_append (by rw [hcur]; simp) hmin (e.NackedBy ns ·)
  rw [← hnew] at hsorted hbelow
  obtain ⟨l, hl1, hl2⟩ := h.freed
  refine
    { same := hsame, wait := ?_, retx := ?_, tail := ht, waitDone := ?_, newRetx := ?_, freed := ?_
      sorted := hsorted, below := fun x hx y hy => hbelow x hx y (hsub y hy), waitFirst := ?_, uncut := h.uncut,
        passed := ?_ }
  · rw [h.wait, hcur, hcw, append_assoc, singleton_append]
  · rw [h.retx, hcr]
  · rw [hdone, h.waitDone, filter_append]
  · rw [hnew, filter_append, append_assoc]
    refine (h.newRetx.append_right _).trans ?_
    rw [append_assoc]
    exact List.Perm.append_left _ perm_append_comm
  · refine ⟨[c].filter (e.Acked ackSn ns ·) ++ l, by rw [hfreed, hl1, append_assoc], ?_⟩
    rw [filter_append, append_assoc]
    refine (List.Perm.append_left _ hl2).trans ?_
    rw [← append_assoc, ← append_assoc]
    exact List.Perm.append_right _ perm_append_comm
  · intro x hx y hy
    rw [hcr] at hy
    rcases mem_append.mp hx with hx | hx
    · exact h.waitFirst x hx y hy
    · rw [mem_singleton.mp hx]
      exact hf.precedes h.same hrs y hy
  · exact fun m hm y hy => h.passed m hm y (hsub y hy)

theorem takeRetx (hf : w.RetxFirst r rs) (hcut : ¬e.CutsAt ackSn ns r) (hsame : e.SameSn w'.entity)
    (hcw : w'.curWait = w.curWait) (hcr : w'.curRetx = rs) (ht : w'.waitTail = []) (hdone : w'.waitDone = w.waitDone)
    (hnew : w'.newRetx = w.newRetx ++ [r].filter (¬e.Acked ackSn ns ·))
    (hfreed : w'.entity.heap.freed = [r].filter (e.Acked ackSn ns ·) ++ w.entity.heap.freed) :
    Progress e ackSn ns seen pw (pr ++ [r]) w' := by
  obtain ⟨hws, hrs⟩ := h.cur_sorted hl
  have hmin := hf.le h.same hws hrs
  have hcur := hf.1
  have hsub : ∀ y, y ∈ w'.curWait ++ w'.curRetx → y ∈ w.curWait ++ w.curRetx := by
    intro y hy
    rw [hcw, hcr, mem_append] at hy
    rw [hcur, mem_append, mem_cons]
    tauto
  obtain ⟨hsorted, hbelow⟩ := h.sorted_append (by rw [hcur]; simp) hmin (¬e.Acked ackSn ns ·)
  rw [← hnew] at hsorted hbelow
  obtain ⟨l, hl1, hl2⟩ := h.freed
  refine
    { same := hsame, wait := ?_, retx := ?_, tail := ht, waitDone := ?_, newRetx := ?_, freed := ?_
      sorted := hsorted, below := fun x hx y hy => hbelow x hx y (hsub y hy), waitFirst := ?_, uncut := ?_, passed := ?_ }
  · rw [h.wait, hcw]
  · rw [h.retx, hcur, hcr, append_assoc, singleton_append]
  · rw [hdone, h.waitDone]
  · rw [hnew, filter_append, ← append_assoc]
    exact h.newRetx.append_right _
  · refine ⟨[r].filter (e.Acked ackSn ns ·) ++ l, by rw [hfreed, hl1, append_assoc], ?_⟩
    rw [filter_append, ← append_assoc]
    exact (List.Perm.append_left _ hl2).trans perm_append_comm
  · intro x hx y hy
    rw [hcr] at hy
    exact h.waitFirst x hx y (by rw [hcur]; exact mem_cons_of_mem _ hy)
  · intro x hx
    rcases mem_append.mp hx with hx | hx
    · exact h.uncut x hx
    · rw [mem_singleton.mp hx]
      exact hcut
  · exact fun m hm y hy => h.passed m hm y (hsub y hy)

theorem waitNacked (hns : ns = seen ++ n :: todo) (hf : w.WaitFirst c cs) (hc : w.entity.Nacked n c) :
    Progress e ackSn ns seen (pw ++ [c]) pr { w.unlinkWait c cs with
      entity := nackedEntity w.entity c, newRetx := w.newRetx ++ [c], newRetxNext := [] } := by
  have hby : e.NackedBy ns c := ⟨n, by rw [hns]; simp, h.same.nacked.mp hc⟩
  refine h.takeWait hl hf (h.same.trans (nackedEntity_sameSn ..)) rfl rfl h.tail ?_ ?_ ?_
  · simp [Stays, hby, unlinkWait]
  · simp [hby]
  · rw [nackedEntity_freed]
    simp [Acked, hby]

theorem waitAcked (hf : w.WaitFirst c cs) (hby : ¬e.NackedBy ns c)
    (hc : w.entity.snCompareTx (w.entity.snOf c) ackSn < 0) :
    Progress e ackSn ns seen (pw ++ [c]) pr { w.unlinkWait c cs with entity := w.entity.freeAcked c } := by
  rw [h.same.snCompareTx, h.same.snOf, snCompareTx] at hc
  have hlt : e.segD c < e.modulusTx ackSn := by rw [segD]; omega
  refine h.takeWait hl hf (h.same.trans (freeAcked_sameSn ..)) rfl rfl h.tail ?_ ?_ ?_
  · simp [Stays, hlt, unlinkWait]
  · simp [hby, unlinkWait]
  · rw [freeAcked_freed]
    simp [Acked, hby, hlt]

theorem waitSkip (hf : w.WaitFirst c cs) (hby : ¬e.NackedBy ns c)
    (hc : w.entity.snCompareTx (w.entity.snOf c) ackSn = 0) :
    Progress e ackSn ns seen (pw ++ [c]) pr { w with waitDone := w.waitDone ++ [c], curWait := cs } := by
  rw [h.same.snCompareTx, h.same.snOf, snCompareTx] at hc
  have hge : ¬e.segD c < e.modulusTx ackSn := by rw [segD]; omega
  have hstay : e.Stays ackSn ns c := ⟨hge, hby⟩
  refine h.takeWait hl hf h.same rfl rfl h.tail ?_ ?_ ?_
  · simp [hstay]
  · simp [hby]
  · simp [Acked, hge]

theorem keepRetx (hf : w.RetxFirst r rs) (hcut : ¬e.CutsAt ackSn ns r) (hr : ¬e.Acked ackSn ns r) :
    Progress e ackSn ns seen pw (pr ++ [r]) (w.keepRetx r rs) := by
  refine h.takeRetx hl hf hcut h.same rfl rfl h.tail rfl ?_ ?_
  · simp [hr, Walk.keepRetx]
  · simp [hr, Walk.keepRetx]

theorem retxAcked (hf : w.RetxFirst r rs) (hby : ¬e.NackedBy ns r)
    (hr : w.entity.snCompareTx (w.entity.snOf r) ackSn < 0) :
    Progress e ackSn ns seen pw (pr ++ [r]) { w with entity := ackedRetxEntity w.entity r, curRetx := rs } := by
  rw [h.same.snCompareTx, h.same.snOf, snCompareTx] at hr
  have hacked : e.Acked ackSn ns r := ⟨by rw [segD]; omega, hby⟩
  have hcut : ¬e.CutsAt ackSn ns r := fun hc => by
    have := hc.sn
    have := hacked.1
    omega
  refine h.takeRetx hl hf hcut (h.same.trans (ackedRetxEntity_sameSn ..)) rfl rfl h.tail rfl ?_ ?_
  · simp [hacked]
  · rw [ackedRetxEntity_freed]
    simp [hacked]

def StepResult (e : Am) (ackSn : Int) (ns seen : List Nack) (n : Nack) (pw pr : List Segment)
    (w w' : Walk) : Flow → Prop
  | .processNextPdu =>
    w'.curWait.length + w'.curRetx.length < w.curWait.length + w.curRetx.length ∧
      ∃ pw' pr', Progress e ackSn ns seen pw' pr' w'
  | .doneNack => Progress e ackSn ns (seen ++ [n]) pw pr w'
  | .listsOver =>
    (w' = w ∧ w.curWait = [] ∧ w.curRetx = []) ∨
      ∃ r rs, w.curWait = [] ∧ w.curRetx = r :: rs ∧ e.CutsAt ackSn ns r ∧
        w' = { w with newRetxNext := r :: rs, curRetx := [] }

theorem step (hn : e.NacksOk ackSn ns) (hns : ns = seen ++ n :: todo) (hs : Step ackSn n w f w') :
    StepResult e ackSn ns seen n pw pr w w' f := by
  have hmem : n ∈ ns := by rw [hns]; simp
  obtain ⟨hws, hrs⟩ := h.cur_sorted hl
  -- the heads of the two lists are segments of the entity
  have hwait : ∀ {c cs}, w.WaitFirst c cs → c ∈ w.curWait ++ w.curRetx := by
    intro c cs hf
    rw [hf.1]
    simp
  have hretx : ∀ {r rs}, w.RetxFirst r rs → r ∈ w.curWait ++ w.curRetx := by
    intro r rs hf
    rw [hf.1]
    simp
  have hsn : ∀ y ∈ w.curWait ++ w.curRetx, e.SnOk (e.snOf y) := by
    intro y hy
    apply hl.sn
    rw [h.wait, h.retx]
    simp only [mem_append] at hy ⊢
    tauto
  have hdone : ∀ {c}, c ∈ w.curWait ++ w.curRetx → (∀ y ∈ w.curWait ++ w.curRetx, e.SegLe c y) →
      ¬w.entity.Nacked n c → w.entity.BehindNack n c → Progress e ackSn ns (seen ++ [n]) pw pr w := by
    intro c hc hmin h1 h2
    rw [h.same.nacked] at h1
    rw [h.same.behindNack] at h2
    refine { h with passed := fun m hm y hy => ?_ }
    rcases mem_append.mp hm with hm | hm
    · exact h.passed m hm y hy
    · rw [mem_singleton.mp hm]
      exact ⟨not_nacked_of_le hl.ack (hsn c hc) (hn.sn n hmem) h1 h2 (hmin y hy), h2.mono (hmin y hy)⟩
  cases hs with
  | ended hw hr => exact .inl ⟨rfl, hw, hr⟩
  | waitNacked hf hc =>
    exact ⟨by rw [hf.1]; simp [unlinkWait], _, _, h.waitNacked hl hns hf hc⟩
  | waitBehind hf h1 h2 =>
    exact hdone (hwait hf) (hf.le h.same hws hrs) h1 h2
  | waitAcked hf h1 h2 h3 =>
    have hby := h.not_nackedBy hn hns (hwait hf) h1 h2
    exact ⟨by rw [hf.1]; simp [unlinkWait], _, _, h.waitAcked hl hf hby h3⟩
  | waitAbove hf h1 h2 h3 =>
    -- an SN above the ACK is behind every NACK
    have hle := hn.le n hmem
    rw [h.same.behindNack, behindNack_iff] at h2
    rw [h.same.snCompareTx, h.same.snOf, snCompareTx] at h3
    rw [segD] at h2
    omega
  | waitSkip hf h1 h2 h3 =>
    have hby := h.not_nackedBy hn hns (hwait hf) h1 h2
    exact ⟨by rw [hf.1]; simp, _, _, h.waitSkip hl hf hby h3⟩
  | retxNacked hf hr =>
    have hby : e.NackedBy ns _ := ⟨n, hmem, h.same.nacked.mp hr⟩
    exact ⟨by rw [hf.1]; simp [Walk.keepRetx], _, _,
      h.keepRetx hl hf (fun hc => hc.not_nacked hby) fun ha => ha.2 hby⟩
  | retxBehind hf h1 h2 =>
    exact hdone (hretx hf) (hf.le h.same hws hrs) h1 h2
  | retxAcked hf h1 h2 h3 =>
    have hby := h.not_nackedBy hn hns (hretx hf) h1 h2
    exact ⟨by rw [hf.1]; simp, _, _, h.retxAcked hl hf hby h3⟩
  | @retxSplice r rs hf h1 h2 h3 h4 =>
    have hby := h.not_nackedBy hn hns (hretx hf) h1 h2
    have hle := hn.le n hmem
    rw [h.same.behindNack, behindNack_iff] at h2
    rw [h.same.snCompareTx, h.same.snOf, snCompareTx] at h3
    have hsd : e.segD r = e.modulusTx (e.snOf r) := rfl
    refine .inr ⟨r, rs, h4, hf.1, ⟨by omega, hby, ⟨n, hmem, by omega, by omega⟩, ?_⟩, rfl⟩
    intro x hx
    rw [h.wait, h4, append_nil] at hx
    exact h.waitFirst x hx r (by rw [hf.1]; simp)
  | retxKeep hf h1 h2 h3 h4 =>
    rw [h.same.snCompareTx, h.same.snOf, snCompareTx] at h3
    obtain ⟨c, cs, hc⟩ := exists_cons_of_ne_nil h4
    refine ⟨by rw [hf.1]; simp [Walk.keepRetx], _, _, h.keepRetx hl hf (fun hcut => ?_) fun ha => ?_⟩
    · have hcr := hf.2 c (by rw [hc]; rfl)
      rw [h.same.precedes] at hcr
      exact hcr (hcut.waitFirst c (by rw [h.wait, hc]; simp))
    · have := ha.1
      rw [segD] at this
      omega

end Progress

/-! ## The NACKs -/

/-- The walk has lost the end `r :: rs` of the retransmit list. -/
structure Cut (e : Am) (ackSn : Int) (ns : List Nack) (w : Walk) : Prop where
  curWait : w.curWait = []
  curRetx : w.curRetx = []
  lost : ∃ r rs pr, e.retransmitList = pr ++ r :: rs ∧ e.CutsAt ackSn ns r ∧
    w.waitDone ++ w.waitTail = e.waitList.filter (e.Stays ackSn ns ·) ∧
    w.newRetx.Perm (e.waitList.filter (e.NackedBy ns ·) ++ pr.filter (¬e.Acked ackSn ns ·))

/-- The walk is past the NACKs `seen`, with or without a loss. -/
def Past (e : Am) (ackSn : Int) (ns seen : List Nack) (w : Walk) : Prop :=
  (∃ pw pr, Progress e ackSn ns seen pw pr w) ∨ Cut e ackSn ns w

theorem Progress.cut (h : Progress e ackSn ns seen pw pr w) (hw : w.curWait = []) (hr : w.curRetx = r :: rs)
    (hc : e.CutsAt ackSn ns r) :
    Cut e ackSn ns { w with newRetxNext := r :: rs, curRetx := [] } := by
  have hpw : e.waitList = pw := by rw [h.wait, hw, append_nil]
  refine ⟨hw, rfl, r, rs, pr, by rw [h.retx, hr], hc, ?_, ?_⟩
  · show w.waitDone ++ w.waitTail = _
    rw [h.tail, h.waitDone, append_nil, hpw]
  · rw [hpw]
    exact h.newRetx

theorem Progress.past_of_nil (h : Progress e ackSn ns seen pw pr w) (hw : w.curWait = []) (hr : w.curRetx = [])
    (seen' : List Nack) : Progress e ackSn ns seen' pw pr w := by
  refine { h with passed := fun m _ y hy => ?_ }
  rw [hw, hr] at hy
  simp at hy

theorem Progress.not_losesSuffix (h : Progress e ackSn ns ns pw pr w) : ¬e.LosesSuffix ackSn ns := by
  rintro ⟨r, hr, hc⟩
  rw [h.retx, mem_append] at hr
  rcases hr with hr | hr
  · exact h.uncut r hr hc
  · obtain ⟨n, hn, hd, hso⟩ := hc.before
    have hb := (h.passed n hn r (mem_append_right _ hr)).2
    have := hc.sn
    rw [behindNack_iff] at hb
    omega

theorem processNackLoop_past (hl : e.ListsOk) (hn : e.NacksOk ackSn ns) (h : Progress e ackSn ns seen pw pr w)
    (hns : ns = seen ++ n :: todo) (fuel : Nat) (hfuel : w.curWait.length + w.curRetx.length < fuel) :
    (∃ w₁, processNackLoop ackSn n fuel w = (.doneNack, w₁) ∧
      ∃ pw' pr', Progress e ackSn ns (seen ++ [n]) pw' pr' w₁) ∨
    ∃ w₁, processNackLoop ackSn n fuel w = (.listsOver, w₁) ∧ ∀ seen', Past e ackSn ns seen' w₁ := by
  induction fuel generalizing w pw pr with
  | zero => omega
  | succ fuel ih =>
    have hs := h.step hl hn hns (processNextPdu_step ackSn n w)
    rw [processNackLoop]
    cases hp : w.processNextPdu ackSn n with
    | mk f w₁ =>
      rw [hp] at hs
      cases f with
      | processNextPdu =>
        obtain ⟨hlt, pw', pr', h'⟩ := hs
        exact ih h' (by simp only at hlt; omega)
      | doneNack => exact .inl ⟨w₁, rfl, pw, pr, hs⟩
      | listsOver =>
        refine .inr ⟨w₁, rfl, fun seen' => ?_⟩
        rcases hs with ⟨hw', hw, hr⟩ | ⟨r, rs, hw, hr, hc, hw'⟩
        · simp only at hw'
          rw [hw']
          exact .inl ⟨pw, pr, h.past_of_nil hw hr seen'⟩
        · simp only at hw'
          rw [hw']
          exact .inr (h.cut hw hr hc)

theorem processNack_of_nil (ackSn : Int) (n : Nack) (hw : w.curWait = []) (hr : w.curRetx = []) :
    w.processNack ackSn n = (.listsOver, w) := by
  rw [processNack, hw, hr]
  simp only [processNackLoop, processNextPdu, hw, hr]

theorem processRange_past (hl : e.ListsOk) (hn : e.NacksOk ackSn ns) {l : List Nack} (h : Past e ackSn ns seen w)
    (hns : ns = seen ++ (l ++ todo)) : Past e ackSn ns (seen ++ l) (processRange ackSn l w) := by
  induction l generalizing seen w with
  | nil => simpa [processRange] using h
  | cons n l ih =>
    rw [processRange]
    rcases h with ⟨pw, pr, h⟩ | h
    · have hns' : ns = seen ++ n :: (l ++ todo) := by simpa using hns
      rcases processNackLoop_past hl hn h hns' _ (Nat.lt_succ_self _) with ⟨w₁, heq, pw', pr', h₁⟩ | ⟨w₁, heq, h₁⟩
      · have hp : w.processNack ackSn n = (.doneNack, w₁) := heq
        rw [hp]
        have := ih (.inl ⟨pw', pr', h₁⟩) (by simpa using hns)
        simpa using this
      · have hp : w.processNack ackSn n = (.listsOver, w₁) := heq
        rw [hp]
        exact h₁ _
    · rw [processNack_of_nil ackSn n h.curWait h.curRetx]
      exact .inr h

theorem Past.stopPoll (h : Past e ackSn ns seen w) (b : NackBlock) : Past e ackSn ns seen (w.stopPollOnNack b) := by
  rcases h with ⟨pw, pr, h⟩ | h
  · exact .inl ⟨pw, pr, { h with same := ⟨h.same.txNextAck, h.same.snModulus, h.same.sn⟩ }⟩
  · exact .inr ⟨h.curWait, h.curRetx, h.lost⟩

theorem processNacks_past (hl : e.ListsOk) (hn : e.NacksOk ackSn ns) {bs : List NackBlock} (h : Past e ackSn ns seen w)
    (hmod : w.entity.snModulus = e.snModulus) (hns : ns = seen ++ bs.flatMap e.expand) :
    Past e ackSn ns ns (processNacks ackSn bs w) := by
  induction bs generalizing seen w with
  | nil =>
    rw [flatMap_nil, append_nil] at hns
    rw [processNacks, hns]
    rwa [hns] at h
  | cons b bs ih =>
    have hexp : w.entity.expand b = e.expand b := by rw [expand, expand, hmod]
    rw [flatMap_cons] at hns
    rw [processNacks, hexp]
    have hr := processRange_past hl hn h hns
    have hm : (processRange ackSn (e.expand b) w).entity.snModulus = w.entity.snModulus :=
      processRange_run (P := fun v => v.entity.snModulus = w.entity.snModulus)
        (fun _ _ _ _ _ hP hs => hs.sameSn.snModulus.trans hP) rfl
    exact ih (hr.stopPoll b) (hm.trans hmod) (by rw [hns, append_assoc])

end Walk

end OaiNr.Rlc
