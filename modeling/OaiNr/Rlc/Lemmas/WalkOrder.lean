import OaiNr.Rlc.Lemmas.WalkRun

/-!
# The order of the lists after a walk
-/

namespace OaiNr.Rlc

open Am

namespace Walk

variable {e : Am} {ackSn : Int} {bs : List NackBlock} {n : Nack} {w w' : Walk} {f : Flow}
  {c r : Segment} {cs rs : List Segment}

/-! ## The smallest segment goes first -/

theorem WaitFirst.precedes (hf : w.WaitFirst c cs) (hs : e.SameSn w.entity)
    (hr : w.curRetx.Pairwise e.SegLe) : ∀ y ∈ w.curRetx, e.Precedes c y := by
  obtain ⟨-, hc⟩ := hf
  cases hcur : w.curRetx with
  | nil => simp
  | cons r rs =>
    rw [hcur] at hr hc
    have hcr : e.Precedes c r := hs.precedes.mp (hc r rfl)
    intro y hy
    cases hy with
    | head => exact hcr
    | tail _ hy => exact hcr.trans_segLe ((List.pairwise_cons.mp hr).1 y hy)

theorem WaitFirst.le (hf : w.WaitFirst c cs) (hs : e.SameSn w.entity)
    (hw : w.curWait.Pairwise e.SegLe) (hr : w.curRetx.Pairwise e.SegLe) :
    ∀ y ∈ w.curWait ++ w.curRetx, e.SegLe c y := by
  intro y hy
  rw [hf.1] at hw hy
  cases hy with
  | head => exact SegLe.refl e c
  | tail _ hy =>
    rcases List.mem_append.mp hy with hy | hy
    · exact (List.pairwise_cons.mp hw).1 y hy
    · exact (hf.precedes hs hr y hy).segLe

theorem RetxFirst.le (hf : w.RetxFirst r rs) (hs : e.SameSn w.entity)
    (hw : w.curWait.Pairwise e.SegLe) (hr : w.curRetx.Pairwise e.SegLe) :
    ∀ y ∈ w.curWait ++ w.curRetx, e.SegLe r y := by
  obtain ⟨hcur, hc⟩ := hf
  rw [hcur] at hr ⊢
  intro y hy
  rcases List.mem_append.mp hy with hy | hy
  · cases hwait : w.curWait with
    | nil => simp [hwait] at hy
    | cons c cs =>
      rw [hwait] at hw hc hy
      have hrc : e.SegLe r c := not_precedes.mp fun hp => hc c rfl (hs.precedes.mpr hp)
      cases hy with
      | head => exact hrc
      | tail _ hy => exact hrc.trans ((List.pairwise_cons.mp hw).1 y hy)
  · cases hy with
    | head => exact SegLe.refl e r
    | tail _ hy => exact (List.pairwise_cons.mp hr).1 y hy

end Walk

end OaiNr.Rlc
