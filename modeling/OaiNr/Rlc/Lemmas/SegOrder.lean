import OaiNr.Lib.Serial
import OaiNr.Rlc.Lemmas.WalkStep

/-!
# The order of segments and NACKs
-/

namespace OaiNr.Rlc.Am

open OaiNr.Serial

variable (e : Am)

def SnOk (a : Int) : Prop := 0 ≤ a ∧ a < e.snModulus

instance (a : Int) : Decidable (e.SnOk a) := inferInstanceAs (Decidable (_ ∧ _))

def segD (x : Segment) : Int := e.modulusTx (e.snOf x)

def SegLe (x y : Segment) : Prop :=
  e.segD x < e.segD y ∨ (e.segD x = e.segD y ∧ x.so ≤ y.so)

instance (x y : Segment) : Decidable (e.SegLe x y) := inferInstanceAs (Decidable (_ ∨ _))

variable {e e' : Am} {x y z : Segment} {n k : Nack} {a b : Int}

theorem precedes_iff : e.Precedes x y ↔ e.segD x < e.segD y ∨ (e.segD x = e.segD y ∧ x.so < y.so) := by
  simp only [Precedes, snCompareTx, segD]
  omega

theorem behindNack_iff : e.BehindNack n x ↔
    e.modulusTx n.sn < e.segD x ∨ (e.segD x = e.modulusTx n.sn ∧ n.soStart < x.so) := by
  simp only [BehindNack, snCompareTx, segD]
  omega

theorem not_precedes : ¬e.Precedes x y ↔ e.SegLe y x := by
  rw [precedes_iff, SegLe]
  omega

theorem SegLe.refl (e : Am) (x : Segment) : e.SegLe x x := .inr ⟨rfl, Int.le_refl _⟩

theorem SegLe.trans (h : e.SegLe x y) (h' : e.SegLe y z) : e.SegLe x z := by
  simp only [SegLe] at *
  omega

theorem Precedes.segLe (h : e.Precedes x y) : e.SegLe x y := by
  rw [precedes_iff] at h
  rw [SegLe]
  omega

theorem Precedes.trans_segLe (h : e.Precedes x y) (h' : e.SegLe y z) : e.Precedes x z := by
  rw [precedes_iff] at *
  rw [SegLe] at h'
  omega

theorem le_segD_of_head {l : List Segment} (hs : l.Pairwise e.SegLe)
    (hh : ∀ x ∈ l.head?, a ≤ e.segD x) : ∀ x ∈ l, a ≤ e.segD x := by
  cases l with
  | nil => simp
  | cons y l =>
    have hy := hh y rfl
    intro x hx
    rcases List.mem_cons.mp hx with rfl | hx
    · exact hy
    · have := (List.pairwise_cons.mp hs).1 x hx
      rw [SegLe] at this
      omega

/-! ## Distances from `tx_next_ack` -/

theorem modulusTx_eq (hk : e.SnOk e.txNextAck) (ha : e.SnOk a) :
    e.modulusTx a = offset e.snModulus e.txNextAck a := ite_offset ha.1 ha.2 hk.1 hk.2

theorem modulusTx_inj (hk : e.SnOk e.txNextAck) (ha : e.SnOk a) (hb : e.SnOk b)
    (h : e.modulusTx a = e.modulusTx b) : a = b := by
  rw [modulusTx_eq hk ha, modulusTx_eq hk hb] at h
  exact offset_inj ha.1 ha.2 hb.1 hb.2 h

theorem modulusTx_nonneg (hk : e.SnOk e.txNextAck) (ha : e.SnOk a) : 0 ≤ e.modulusTx a := by
  rw [modulusTx_eq hk ha]
  exact offset_nonneg (by have := hk.1; have := hk.2; omega)

/-! ## NACKs -/

/-- The NACK `k` comes after the NACK `n` and does not overlap it. -/
def NackLt (n k : Nack) : Prop :=
  e.modulusTx n.sn < e.modulusTx k.sn ∨
    (n.sn = k.sn ∧ n.soEnd ≠ -1 ∧ n.soStart < k.soStart ∧ n.soEnd < k.soStart)

instance (n k : Nack) : Decidable (e.NackLt n k) := inferInstanceAs (Decidable (_ ∨ _))

def NackedBy (ns : List Nack) (x : Segment) : Prop := ∃ n ∈ ns, e.Nacked n x

instance (ns : List Nack) (x : Segment) : Decidable (e.NackedBy ns x) :=
  inferInstanceAs (Decidable (∃ n ∈ ns, _))

theorem not_nacked_of_lt (hn : ¬e.Nacked n x) (hb : ¬e.BehindNack n x) (hlt : e.NackLt n k) : ¬e.Nacked k x := by
  rw [behindNack_iff] at hb
  rintro ⟨hsn, hover⟩
  rcases hlt with hlt | ⟨hnk, -, hstart, -⟩
  · rw [segD, hsn] at hb
    omega
  · have hnn : ¬SoOverlap n.soStart n.soEnd x.so (x.so + x.size - 1) :=
      fun h => hn ⟨hsn.trans hnk.symm, h⟩
    rw [segD, hsn, hnk] at hb
    simp only [SoOverlap] at hnn hover
    omega

theorem not_nacked_of_le (hk : e.SnOk e.txNextAck) (hx : e.SnOk (e.snOf x)) (hsn : e.SnOk n.sn)
    (hn : ¬e.Nacked n x) (hb : e.BehindNack n x) (hle : e.SegLe x y) : ¬e.Nacked n y := by
  rw [behindNack_iff] at hb
  rintro ⟨hy, hover⟩
  have hyd : e.segD y = e.modulusTx n.sn := by rw [segD, hy]
  rcases hb with hb | ⟨hd, hstart⟩
  · rw [SegLe] at hle
    omega
  · have hxs : e.snOf x = n.sn := modulusTx_inj hk hx hsn hd
    have hnn : ¬SoOverlap n.soStart n.soEnd x.so (x.so + x.size - 1) := fun h => hn ⟨hxs, h⟩
    rw [SegLe] at hle
    simp only [SoOverlap] at hnn hover
    omega

theorem BehindNack.mono (hb : e.BehindNack n x) (hle : e.SegLe x y) : e.BehindNack n y := by
  rw [behindNack_iff] at *
  rw [SegLe] at hle
  omega

/-! ## Entities with the same SNs -/

structure SameSn (e e' : Am) : Prop where
  txNextAck : e'.txNextAck = e.txNextAck
  snModulus : e'.snModulus = e.snModulus
  sn : ∀ a, (e'.heap.sdus a).sn = (e.heap.sdus a).sn

namespace SameSn

theorem refl (e : Am) : e.SameSn e := ⟨rfl, rfl, fun _ => rfl⟩

theorem trans {e'' : Am} (h : e.SameSn e') (h' : e'.SameSn e'') : e.SameSn e'' :=
  ⟨h'.txNextAck.trans h.txNextAck, h'.snModulus.trans h.snModulus, fun a => (h'.sn a).trans (h.sn a)⟩

theorem snOf (h : e.SameSn e') : e'.snOf x = e.snOf x := h.sn x.sdu

theorem modulusTx (h : e.SameSn e') : e'.modulusTx a = e.modulusTx a := by
  rw [Am.modulusTx, Am.modulusTx, h.txNextAck, h.snModulus]

theorem snCompareTx (h : e.SameSn e') : e'.snCompareTx a b = e.snCompareTx a b := by
  rw [Am.snCompareTx, Am.snCompareTx, h.modulusTx, h.modulusTx]

theorem segD (h : e.SameSn e') : e'.segD x = e.segD x := by
  rw [Am.segD, Am.segD, h.snOf, h.modulusTx]

theorem nacked (h : e.SameSn e') : e'.Nacked n x ↔ e.Nacked n x := by
  rw [Am.Nacked, Am.Nacked, h.snOf]

theorem behindNack (h : e.SameSn e') : e'.BehindNack n x ↔ e.BehindNack n x := by
  rw [Am.BehindNack, Am.BehindNack, h.snOf, h.snCompareTx]

theorem precedes (h : e.SameSn e') : e'.Precedes x y ↔ e.Precedes x y := by
  rw [Am.Precedes, Am.Precedes, h.snOf, h.snOf, h.snCompareTx]

end SameSn

theorem updateSdu_sn (h : Heap) (a b : Nat) (f : Sdu → Sdu) (hf : ∀ s, (f s).sn = s.sn) :
    ((h.updateSdu a f).sdus b).sn = (h.sdus b).sn := by
  by_cases hab : b = a
  · subst hab
    simp [Heap.updateSdu, hf]
  · simp [Heap.updateSdu, hab]

theorem freeAcked_heap (e : Am) (x : Segment) : (e.freeAcked x).heap = (e.heap.nrRlcFreeSduSegment x).2 := by
  simp only [freeAcked]
  split <;> rfl

theorem freeAcked_window (e : Am) (x : Segment) :
    (e.freeAcked x).txNextAck = e.txNextAck ∧ (e.freeAcked x).snModulus = e.snModulus := by
  simp only [freeAcked]
  split <;> exact ⟨rfl, rfl⟩

theorem countRetx_heap (e : Am) (x : Segment) :
    (e.countRetx x).heap = e.heap.updateSdu x.sdu fun s => { s with retxCount := s.retxCount + 1 } := by
  simp only [countRetx]
  split <;> rfl

theorem countRetx_window (e : Am) (x : Segment) :
    (e.countRetx x).txNextAck = e.txNextAck ∧ (e.countRetx x).snModulus = e.snModulus := by
  simp only [countRetx]
  split <;> exact ⟨rfl, rfl⟩

theorem freeAcked_sameSn (e : Am) (x : Segment) : e.SameSn (e.freeAcked x) := by
  refine ⟨(freeAcked_window e x).1, (freeAcked_window e x).2, fun a => ?_⟩
  rw [freeAcked_heap]
  exact updateSdu_sn e.heap x.sdu a (fun s => { s with freeCount := s.freeCount + 1 }) fun _ => rfl

theorem countRetx_sameSn (e : Am) (x : Segment) : e.SameSn (e.countRetx x) := by
  refine ⟨(countRetx_window e x).1, (countRetx_window e x).2, fun a => ?_⟩
  rw [countRetx_heap]
  exact updateSdu_sn _ _ _ _ fun _ => rfl

theorem nackedEntity_sameSn (e : Am) (x : Segment) : e.SameSn (Walk.nackedEntity e x) :=
  let h := countRetx_sameSn e x
  { h with }

theorem ackedRetxEntity_sameSn (e : Am) (x : Segment) : e.SameSn (Walk.ackedRetxEntity e x) :=
  let h := freeAcked_sameSn { e with
    bstatusRetxSize := e.bstatusRetxSize - (e.computePduHeaderSize x + x.size) } x
  { h with }

end OaiNr.Rlc.Am
