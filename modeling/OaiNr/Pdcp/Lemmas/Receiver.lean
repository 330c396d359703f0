import Mathlib.Data.List.Pairwise
import Mathlib.Data.List.Perm.Basic
import OaiNr.Pdcp.Entity

/-!
# The reordering list
-/

namespace OaiNr.Pdcp

open List

variable {l : List PdcpSdu} {sdu x : PdcpSdu} {count limit : Nat}

/-! ## The loops -/

theorem sduListAdd_perm (sdu : PdcpSdu) (l : List PdcpSdu) : (sduListAdd sdu l).Perm (sdu :: l) := by
  induction l with
  | nil => exact List.Perm.refl _
  | cons y l ih =>
    rw [sduListAdd]
    split
    · exact List.Perm.refl _
    · exact (ih.cons y).trans (List.Perm.swap sdu y l)

def Ordered (l : List PdcpSdu) : Prop := l.Pairwise fun x y => x.count < y.count

theorem sduListAdd_ordered (hl : Ordered l) (hx : ¬SduInList l sdu.count) : Ordered (sduListAdd sdu l) := by
  induction l with
  | nil => exact pairwise_singleton ..
  | cons y l ih =>
    obtain ⟨hy, hl'⟩ := pairwise_cons.mp hl
    rw [sduListAdd]
    split
    · rename_i hlt
      refine pairwise_cons.mpr ⟨fun z hz => ?_, hl⟩
      rcases mem_cons.mp hz with rfl | hz
      · exact hlt
      · exact Nat.lt_trans hlt (hy z hz)
    · rename_i hge
      have hne : y.count ≠ sdu.count := fun h => hx ⟨y, mem_cons_self, h⟩
      refine pairwise_cons.mpr ⟨fun z hz => ?_, ih hl' fun ⟨z, hz, h⟩ =>
        hx ⟨z, mem_cons_of_mem _ hz, h⟩⟩
      rcases mem_cons.mp ((sduListAdd_perm sdu l).mem_iff.mp hz) with rfl | hz
      · omega
      · exact hy z hz

theorem takeRun_spec (count : Nat) (hl : Ordered l) (hge : ∀ x ∈ l, count ≤ x.count)
    (hlt : ∀ x ∈ l, x.count + 1 < 4294967296) : (takeRun count l).1 ++ (takeRun count l).2.1 = l ∧
      (∀ x ∈ (takeRun count l).1, x.count < (takeRun count l).2.2) ∧
      (∀ x ∈ (takeRun count l).2.1, (takeRun count l).2.2 < x.count) ∧ count ≤ (takeRun count l).2.2 ∧
      ((takeRun count l).2.2 = count ∨ ∃ x ∈ l, (takeRun count l).2.2 = x.count + 1) := by
  induction l generalizing count with
  | nil => simp [takeRun]
  | cons y l ih =>
    obtain ⟨hy, hl'⟩ := pairwise_cons.mp hl
    have hwrap := hlt y mem_cons_self
    rw [takeRun]
    split
    · rename_i heq
      have hu : u32 (count + 1) = count + 1 := Nat.mod_eq_of_lt (by omega)
      obtain ⟨h1, h2, h3, h4, h5⟩ := ih (u32 (count + 1)) hl'
        (fun x hx => by rw [hu]; have := hy x hx; omega) fun x hx => hlt x (mem_cons_of_mem _ hx)
      refine ⟨by simp only [cons_append, h1], fun x hx => ?_, h3, by simp only; omega, ?_⟩
      · rcases mem_cons.mp hx with rfl | hx
        · simp only
          omega
        · exact h2 x hx
      · rcases h5 with h5 | ⟨x, hx, h5⟩
        · exact .inr ⟨y, mem_cons_self, by simp only; omega⟩
        · exact .inr ⟨x, mem_cons_of_mem _ hx, h5⟩
    · rename_i hne
      have := hge y mem_cons_self
      refine ⟨rfl, by simp, fun x hx => ?_, Nat.le_refl _, .inl rfl⟩
      rcases mem_cons.mp hx with rfl | hx
      · simp only
        omega
      · have := hy x hx
        simp only
        omega

theorem takeBelow_spec (limit : Nat) (hl : Ordered l) : (takeBelow limit l).1 ++ (takeBelow limit l).2 = l ∧
      (∀ x ∈ (takeBelow limit l).1, x.count < limit) ∧ ∀ x ∈ (takeBelow limit l).2, limit ≤ x.count := by
  induction l with
  | nil => simp [takeBelow]
  | cons y l ih =>
    obtain ⟨hy, hl'⟩ := pairwise_cons.mp hl
    obtain ⟨h1, h2, h3⟩ := ih hl'
    rw [takeBelow]
    split
    · rename_i hlt
      refine ⟨by simp only [cons_append, h1], fun x hx => ?_, h3⟩
      rcases mem_cons.mp hx with rfl | hx
      · exact hlt
      · exact h2 x hx
    · rename_i hge
      refine ⟨rfl, by simp, fun x hx => ?_⟩
      rcases mem_cons.mp hx with rfl | hx
      · omega
      · have := hy x hx
        omega

namespace Entity

/-! ## The receiver -/

/-- The list is ordered and lies between `rx_deliv` and `rx_next`. -/
structure Queued (e : Entity) : Prop where
  ordered : Ordered e.rxList
  gt : ∀ x ∈ e.rxList, e.rxDeliv < x.count
  lt : ∀ x ∈ e.rxList, x.count < e.rxNext
  le : e.rxDeliv ≤ e.rxNext
  next : e.rxNext < 4294967296

structure Timed (e : Entity) : Prop extends Queued e where
  reord : e.tReorderingStart ≠ 0 → e.rxDeliv < e.rxReord ∧ e.rxReord ≤ e.rxNext

structure RxInv (e : Entity) : Prop extends Timed e where
  running : e.rxList ≠ [] → e.tReorderingStart ≠ 0

variable {e e' : Entity} {size : Nat}

def rxState (e : Entity) : List PdcpSdu × Nat × Nat × Nat × Nat :=
  (e.rxList, e.rxNext, e.rxDeliv, e.rxReord, e.tReorderingStart)

theorem Timed.of_rxState (h : Timed e) (heq : e'.rxState = e.rxState) : Timed e' := by
  simp only [rxState, Prod.mk.injEq] at heq
  obtain ⟨h1, h2, h3, h4, h5⟩ := heq
  refine ⟨⟨?_, ?_, ?_, ?_, ?_⟩, ?_⟩
  · rw [h1]; exact h.ordered
  · rw [h1, h3]; exact h.gt
  · rw [h1, h2]; exact h.lt
  · rw [h2, h3]; exact h.le
  · rw [h2]; exact h.next
  · rw [h2, h3, h4, h5]; exact h.reord

theorem RxInv.of_rxState (h : RxInv e) (heq : e'.rxState = e.rxState) : RxInv e' := by
  refine ⟨h.toTimed.of_rxState heq, ?_⟩
  simp only [rxState, Prod.mk.injEq] at heq
  obtain ⟨h1, -, -, -, h5⟩ := heq
  rw [h1, h5]
  exact h.running

structure Delivers (e : Entity) (l d : List PdcpSdu) (e' : Entity) : Prop where
  calls : e'.calls = e.calls ++ d
  split : d ++ e'.rxList = l
  below : ∀ x ∈ d, x.count < e'.rxDeliv
  deliv : e.rxDeliv ≤ e'.rxDeliv

theorem deliverFrom_spec (e : Entity) (count : Nat) (hl : Ordered e.rxList) (hge : ∀ x ∈ e.rxList, count ≤ x.count)
    (hlt : ∀ x ∈ e.rxList, x.count < e.rxNext) (hc : count ≤ e.rxNext) (hn : e.rxNext < 4294967296)
    (hd : e.rxDeliv ≤ count) :
    Queued (e.deliverFrom count) ∧ Delivers e e.rxList (takeRun count e.rxList).1 (e.deliverFrom count) ∧
      count ≤ (e.deliverFrom count).rxDeliv := by
  obtain ⟨h1, h2, h3, h4, h5⟩ := takeRun_spec count hl hge fun x hx => by have := hlt x hx; omega
  have hsub : ∀ x ∈ (takeRun count e.rxList).2.1, x ∈ e.rxList := fun x hx => by
    rw [← h1]
    exact mem_append_right _ hx
  have hle : (takeRun count e.rxList).2.2 ≤ e.rxNext := by
    rcases h5 with h5 | ⟨x, hx, h5⟩
    · omega
    · have := hlt x hx
      omega
  refine ⟨⟨?_, h3, fun x hx => hlt x (hsub x hx), hle, hn⟩, ⟨rfl, h1, h2, Nat.le_trans hd h4⟩, h4⟩
  rw [Ordered, ← h1, pairwise_append] at hl
  exact hl.2.1

theorem startTReordering_fields (e : Entity) :
    e.startTReordering.calls = e.calls ∧ e.startTReordering.rxList = e.rxList ∧
      e.startTReordering.rxDeliv = e.rxDeliv := by
  rw [startTReordering]
  split <;> exact ⟨rfl, rfl, rfl⟩

theorem Queued.startTReordering (h : Queued e) (hz : e.tReorderingStart = 0) : Timed e.startTReordering ∧
      (e.tCurrent ≠ 0 → e.startTReordering.rxList ≠ [] → e.startTReordering.tReorderingStart ≠ 0) := by
  rw [Entity.startTReordering]
  split
  · rename_i hlt
    exact ⟨⟨{ h with }, fun _ => ⟨hlt, Nat.le_refl _⟩⟩, fun ht _ => ht⟩
  · rename_i hge
    refine ⟨⟨h, fun hne => absurd hz hne⟩, fun _ hne => ?_⟩
    -- an SDU in the list would lie between `rx_deliv` and `rx_next`
    obtain ⟨x, hx⟩ := exists_mem_of_ne_nil _ hne
    exact absurd (Nat.lt_trans (h.gt x hx) (h.lt x hx)) hge

theorem Queued.updateTReordering (h : Queued e) (hr : e.tReorderingStart ≠ 0 → e.rxReord ≤ e.rxNext) :
    Timed e.updateTReordering ∧
      (e.tCurrent ≠ 0 → e.updateTReordering.rxList ≠ [] → e.updateTReordering.tReorderingStart ≠ 0) := by
  have hstop : Queued e.stopTReordering := { h with }
  simp only [Entity.updateTReordering]
  split
  · exact hstop.startTReordering ‹_›
  · rename_i hz
    refine ⟨⟨hstop, fun _ => ?_⟩, fun _ _ => hz⟩
    simp only [stopTReordering] at hz ⊢
    split at hz
    · exact absurd rfl hz
    · rename_i hno
      exact ⟨by omega, hr hz⟩

theorem updateTReordering_fields (e : Entity) :
    e.updateTReordering.calls = e.calls ∧ e.updateTReordering.rxList = e.rxList ∧
      e.updateTReordering.rxDeliv = e.rxDeliv := by
  simp only [updateTReordering, startTReordering]
  split_ifs <;> exact ⟨rfl, rfl, rfl⟩

theorem Delivers.updateTReordering {d : List PdcpSdu} (h : Delivers e l d e') :
    Delivers e l d e'.updateTReordering := by
  obtain ⟨h1, h2, h3⟩ := updateTReordering_fields e'
  exact ⟨h1.trans h.calls, by rw [h2]; exact h.split, by rw [h3]; exact h.below, by rw [h3]; exact h.deliv⟩

theorem Timed.acceptSdu (h : Timed e) (hnew : ¬e.IsDuplicate sdu.count)
    (hwrap : sdu.count + 1 < 4294967296) (size : Nat) :
    (Timed (e.acceptSdu sdu size) ∧ (e.tCurrent ≠ 0 → (e.acceptSdu sdu size).rxList ≠ [] →
        (e.acceptSdu sdu size).tReorderingStart ≠ 0)) ∧
      ∃ d, Delivers e (sduListAdd sdu e.rxList) d (e.acceptSdu sdu size) := by
  rw [IsDuplicate, not_or] at hnew
  obtain ⟨hge, hnot⟩ := hnew
  have hu : u32 (sdu.count + 1) = sdu.count + 1 := Nat.mod_eq_of_lt hwrap
  have hmem : ∀ x ∈ sduListAdd sdu e.rxList, x = sdu ∨ x ∈ e.rxList := fun x hx =>
    mem_cons.mp ((sduListAdd_perm sdu e.rxList).mem_iff.mp hx)
  have hordered := sduListAdd_ordered h.ordered hnot
  -- the list with the new SDU
  have hnext : sdu.count < (e.storeSdu sdu size).rxNext ∧ e.rxNext ≤ (e.storeSdu sdu size).rxNext ∧
      (e.storeSdu sdu size).rxNext < 4294967296 := by
    have := h.next
    simp only [storeSdu, hu]
    split <;> omega
  have hlt : ∀ x ∈ sduListAdd sdu e.rxList, x.count < (e.storeSdu sdu size).rxNext := by
    intro x hx
    rcases hmem x hx with rfl | hx
    · exact hnext.1
    · have := h.lt x hx
      omega
  have hle : e.rxDeliv ≤ (e.storeSdu sdu size).rxNext := by
    have := h.le
    omega
  have hreord : e.tReorderingStart ≠ 0 → e.rxReord ≤ (e.storeSdu sdu size).rxNext := fun hr => by
    have := (h.reord hr).2
    omega
  rw [Entity.acceptSdu]
  split
  · rename_i heq
    obtain ⟨hq, hdel, -⟩ := deliverFrom_spec (e.storeSdu sdu size) e.rxDeliv hordered (fun x hx => by
        rcases hmem x hx with rfl | hx
        · exact Nat.not_lt.mp hge
        · exact Nat.le_of_lt (h.gt x hx)) hlt hle hnext.2.2 (Nat.le_refl _)
    have hdel' : Delivers e (sduListAdd sdu e.rxList) _ ((e.storeSdu sdu size).deliverFrom e.rxDeliv) :=
      { hdel with }
    exact ⟨hq.updateTReordering hreord, _, hdel'.updateTReordering⟩
  · rename_i hne
    have hq : Queued (e.storeSdu sdu size) := by
      refine ⟨hordered, fun x hx => ?_, hlt, hle, hnext.2.2⟩
      rcases hmem x hx with rfl | hx
      · exact Nat.lt_of_le_of_ne (Nat.not_lt.mp hge) fun h => hne h.symm
      · exact h.gt x hx
    refine ⟨hq.updateTReordering hreord, [], Delivers.updateTReordering ?_⟩
    exact ⟨(append_nil _).symm, rfl, by simp, Nat.le_refl _⟩

theorem Timed.checkTReordering (h : Timed e) :
    (Timed e.checkTReordering ∧ (e.tCurrent ≠ 0 → (e.rxList ≠ [] → e.tReorderingStart ≠ 0) →
        e.checkTReordering.rxList ≠ [] → e.checkTReordering.tReorderingStart ≠ 0)) ∧
      ∃ d, Delivers e e.rxList d e.checkTReordering := by
  rw [Entity.checkTReordering]
  split
  · exact ⟨⟨h, fun _ hr => hr⟩, [], (append_nil _).symm, rfl, by simp, Nat.le_refl _⟩
  · rename_i hexp
    have hrun := h.reord (not_not.mp hexp).2.1
    obtain ⟨h1, h2, h3⟩ := takeBelow_spec e.rxReord h.ordered
    let e₁ : Entity := { e with tReorderingStart := 0 }.deliver (takeBelow e.rxReord e.rxList).1
      (takeBelow e.rxReord e.rxList).2
    have hord := h.ordered
    rw [Ordered, ← h1, pairwise_append] at hord
    obtain ⟨hq, hdel, hge⟩ := deliverFrom_spec e₁ e.rxReord hord.2.1 h3
      (fun x hx => h.lt x (by rw [← h1]; exact mem_append_right _ hx)) hrun.2 h.next (Nat.le_of_lt hrun.1)
    have hstart := hq.startTReordering rfl
    refine ⟨⟨hstart.1, fun ht _ => hstart.2 ht⟩,
      (takeBelow e.rxReord e.rxList).1 ++ (takeRun e.rxReord e₁.rxList).1, ?_⟩
    obtain ⟨s1, s2, s3⟩ := startTReordering_fields (e₁.deliverFrom e.rxReord)
    refine ⟨?_, ?_, fun x hx => ?_, ?_⟩
    · rw [← append_assoc]
      exact s1.trans hdel.calls
    · rw [append_assoc]
      exact (congrArg _ (congrArg _ s2)).trans ((congrArg _ hdel.split).trans h1)
    · have hx' : x.count < (e₁.deliverFrom e.rxReord).rxDeliv := by
        rcases mem_append.mp hx with hx | hx
        · exact Nat.lt_of_lt_of_le (h2 x hx) hge
        · exact hdel.below x hx
      exact Nat.lt_of_lt_of_le hx' (Nat.le_of_eq s3.symm)
    · exact Nat.le_trans (Nat.le_trans (Nat.le_of_lt hrun.1) hge) (Nat.le_of_eq s3.symm)

end Entity

end OaiNr.Pdcp
