import OaiNr.Lib.Grouped
import OaiNr.Lib.Window
import OaiNr.Rlc.Lemmas.RxLoops
import OaiNr.Rlc.Lemmas.UmFrame

/-!
# The reassembly window of a UM entity

SNs are compared by their distance from the lower edge of the window, `rx_next_highest - window_size`.
-/

namespace OaiNr.Rlc

open List

/-! ## Lists of segments -/

variable {w : Window} {p q : Pdu} {l l' : List Pdu} {x : Int}

def Before (w : Window) (p q : Pdu) : Prop := w.d p.sn < w.d q.sn ∨ (p.sn = q.sn ∧ p.so ≤ q.so)

theorem Before.le (h : Before w p q) : w.d p.sn ≤ w.d q.sn := by
  rcases h with h | ⟨h, -⟩
  · exact Int.le_of_lt h
  · rw [h]

theorem Before.trans {r : Pdu} (h : Before w p q) (h' : Before w q r) : Before w p r := by
  rcases h with h | ⟨h, hso⟩
  · exact .inl (Int.lt_of_lt_of_le h h'.le)
  · rcases h' with h' | ⟨h', hso'⟩
    · exact .inl (h ▸ h')
    · exact .inr ⟨h.trans h', Int.le_trans hso hso'⟩

structure Ordered (w : Window) (l : List Pdu) : Prop where
  range : ∀ p ∈ l, w.InRange p.sn
  sorted : l.Pairwise (Before w)

namespace Ordered

theorem le (h : Ordered w l) : l.Pairwise fun p q => w.d p.sn ≤ w.d q.sn := h.sorted.imp Before.le

theorem sublist (h : Ordered w l) (hs : l'.Sublist l) : Ordered w l' :=
  ⟨fun p hp => h.range p (hs.subset hp), h.sorted.sublist hs⟩

theorem map (h : Ordered w l) {f : Pdu → Pdu} (hf : ∀ p, (f p).sn = p.sn ∧ (f p).so = p.so) : Ordered w (l.map f) := by
  refine ⟨fun p hp => ?_, pairwise_map.mpr (h.sorted.imp fun {p q} hpq => ?_)⟩
  · obtain ⟨q, hq, rfl⟩ := mem_map.mp hp
    rw [(hf q).1]
    exact h.range q hq
  · rw [Before, (hf p).1, (hf q).1, (hf p).2, (hf q).2]
    exact hpq

theorem key_iff (h : Ordered w l) (hz : w.Sized) (hx : w.InRange x) :
    ∀ p ∈ l, decide (p.sn = x) = true ↔ w.d p.sn = w.d x := by
  intro p hp
  rw [decide_eq_true_iff]
  exact ⟨fun heq => by rw [heq], hz.inj (h.range p hp) hx⟩

theorem segmentsOf_eq (h : Ordered w l) (hz : w.Sized) (hx : w.InRange x) :
    Um.segmentsOf x l = l.filter (·.sn = x) := by
  have hgroup := Grouped.group_eq_filter (h.key_iff hz hx) h.le
  simpa only [Um.segmentsOf, ne_eq, decide_not] using hgroup

theorem replaceSegments_eq (h : Ordered w l) (hz : w.Sized) (hx : w.InRange x) (f : Pdu → Pdu) :
    Um.replaceSegments x f l = l.map fun p => if p.sn = x then f p else p := by
  have hreplace := Grouped.replace_eq_map f (h.key_iff hz hx) h.le
  simpa only [Um.replaceSegments, Um.segmentsOf, ne_eq, decide_not, decide_eq_true_eq] using hreplace

end Ordered

namespace Um

variable {e e' : Um} {fuel : Nat} {a b : Int} {buffer : List UInt8} {op : Op} {c : UmConfig}

def win (e : Um) : Window := { modulus := e.snModulus, size := e.windowSize, highest := e.rxNextHighest }

theorem modulusRx_eq (e : Um) (a : Int) : e.modulusRx a = e.win.d a := by
  simp only [modulusRx, Window.d, Window.lowest, win, Serial.offset]
  split
  · exact Int.add_emod_right ..
  · rfl

theorem snCompareRx_eq (e : Um) (a b : Int) : e.snCompareRx a b = e.win.d a - e.win.d b := by
  rw [snCompareRx, modulusRx_eq, modulusRx_eq]

theorem outsideWindow_iff (hz : e.win.Sized) (a : Int) : e.OutsideWindow a ↔ e.windowSize ≤ e.win.d a := by
  have hhigh : e.win.d e.rxNextHighest = e.windowSize := hz.highest
  rw [OutsideWindow, snCompareRx_eq, hhigh]
  omega

theorem pduListAdd_perm (e : Um) (p : Pdu) (l : List Pdu) : (e.pduListAdd p l).Perm (p :: l) := by
  induction l with
  | nil => exact .refl _
  | cons q l ih =>
    rw [pduListAdd]
    split
    · exact .refl _
    · exact (ih.cons q).trans (.swap p q l)

theorem ordered_pduListAdd (h : Ordered e.win l) (hz : e.win.Sized) (hp : e.win.InRange p.sn) :
    Ordered e.win (e.pduListAdd p l) := by
  refine ⟨fun q hq => ?_, ?_⟩
  · rcases mem_cons.mp ((pduListAdd_perm e p l).mem_iff.mp hq) with rfl | hq
    · exact hp
    · exact h.range q hq
  · induction l with
    | nil => exact pairwise_singleton _ _
    | cons q l ih =>
      obtain ⟨hq, hl⟩ := pairwise_cons.mp h.sorted
      have htail : Ordered e.win l := h.sublist (sublist_cons_self q l)
      rw [pduListAdd]
      split
      · rename_i hlt
        have hpq : Before e.win p q := by
          rcases hlt with hlt | ⟨hsn, hso⟩
          · rw [snCompareRx_eq] at hlt
            exact .inl (by omega)
          · exact .inr ⟨hsn.symm, Int.le_of_lt hso⟩
        refine pairwise_cons.mpr ⟨fun r hr => ?_, h.sorted⟩
        rcases mem_cons.mp hr with rfl | hr
        · exact hpq
        · exact hpq.trans (hq r hr)
      · rename_i hge
        rw [not_or, snCompareRx_eq] at hge
        have hqp : Before e.win q p := by
          rcases Int.lt_or_eq_of_le (show e.win.d q.sn ≤ e.win.d p.sn by omega) with hlt | heq
          · exact .inl hlt
          · have hsn := hz.inj (h.range q mem_cons_self) hp heq
            exact .inr ⟨hsn, Int.le_of_not_gt fun hso => hge.2 ⟨hsn, hso⟩⟩
        refine pairwise_cons.mpr ⟨fun r hr => ?_, ih htail⟩
        rcases mem_cons.mp ((pduListAdd_perm e p l).mem_iff.mp hr) with rfl | hr
        · exact hqp
        · exact hq r hr

/-! ## Skipping delivered SDUs -/

theorem mem_of_sduDelivered (h : e.sduDelivered x = true) : ∃ p ∈ e.rxList, p.sn = x := by
  rw [sduDelivered] at h
  cases hseg : segmentsOf x e.rxList with
  | nil =>
    rw [hseg] at h
    cases h
  | cons p l =>
    have hp : p ∈ segmentsOf x e.rxList := by
      rw [hseg]
      exact mem_cons_self
    refine ⟨p, ?_, by simpa using mem_takeWhile_imp hp⟩
    exact (dropWhile_sublist _).subset ((takeWhile_sublist _).subset hp)

theorem skipDelivered_spec (hz : e.win.Sized) (hin : ∀ p ∈ e.rxList, e.win.d p.sn < e.windowSize)
    (hx : e.win.InRange x) (hxw : e.win.d x ≤ e.windowSize) (h : e.skipDelivered fuel x = .ok a) :
    e.win.InRange a ∧ e.win.d x ≤ e.win.d a ∧ e.win.d a ≤ e.windowSize ∧ e.sduDelivered a = false ∧
      ∀ b, e.win.InRange b → e.win.d x ≤ e.win.d b → e.win.d b < e.win.d a → e.sduDelivered b = true := by
  rw [skipDelivered, withFuel_eq_ok] at h
  have hm : e.snModulus = 2 * e.windowSize := hz.modulus
  have hw : 2 ≤ e.windowSize := hz.two_le
  have hstep : ∀ t, e.sduDelivered t = true → (e.win.InRange t ∧ e.win.d x ≤ e.win.d t ∧ e.win.d t ≤ e.windowSize ∧
        ∀ b, e.win.InRange b → e.win.d x ≤ e.win.d b → e.win.d b < e.win.d t → e.sduDelivered b = true) →
      e.win.InRange ((t + 1) % e.snModulus) ∧ e.win.d x ≤ e.win.d ((t + 1) % e.snModulus) ∧
        e.win.d ((t + 1) % e.snModulus) ≤ e.windowSize ∧
        ∀ b, e.win.InRange b → e.win.d x ≤ e.win.d b → e.win.d b < e.win.d ((t + 1) % e.snModulus) →
          e.sduDelivered b = true := by
    rintro t hdel ⟨ht, hle, -, hall⟩
    obtain ⟨p, hp, rfl⟩ := mem_of_sduDelivered hdel
    have hpw := hin p hp
    have hsucc : e.win.d ((p.sn + 1) % e.snModulus) = e.win.d p.sn + 1 :=
      hz.succ (show e.win.d p.sn + 1 < e.snModulus by omega)
    refine ⟨hz.inRange_emod _, by omega, by omega, fun b hb hxb hbt => ?_⟩
    rcases Int.lt_or_eq_of_le (show e.win.d b ≤ e.win.d p.sn by omega) with hlt | heq
    · exact hall b hb hxb hlt
    · rw [hz.inj hb ht heq]
      exact hdel
  obtain ⟨⟨hr, hle, haw, hall⟩, hnot⟩ := Loop.run_inv _ hstep
    ⟨hx, Int.le_refl _, hxw, fun b _ h1 h2 => absurd h1 (Int.not_le.mpr h2)⟩ h
  exact ⟨hr, hle, haw, Bool.eq_false_of_not_eq_true hnot, hall⟩

/-! ## The invariant -/

structure InWindow (e : Um) : Prop where
  sized : e.win.Sized
  ordered : Ordered e.win e.rxList
  inWindow : ∀ p ∈ e.rxList, e.win.d p.sn < e.windowSize
  highest : e.win.InRange e.rxNextHighest
  reassembly : e.win.InRange e.rxNextReassembly
  reassembly_le : e.win.d e.rxNextReassembly ≤ e.windowSize
  trigger : e.win.InRange e.rxTimerTrigger

structure RxWf (e : Um) : Prop extends InWindow e where
  timer : e.tReassemblyStart ≠ 0 → e.win.d e.rxNextReassembly < e.win.d e.rxTimerTrigger ∧
    e.win.d e.rxTimerTrigger ≤ e.windowSize

theorem InWindow.start (h : e.InWindow) {m : Prop}
    (hs : 0 < e.snCompareRx e.rxNextHighest ((e.rxNextReassembly + 1) % e.snModulus) ∨
      (e.rxNextHighest = (e.rxNextReassembly + 1) % e.snModulus ∧ m)) :
    ({ e with tReassemblyStart := e.tCurrent, rxTimerTrigger := e.rxNextHighest } : Um).RxWf := by
  have hm : e.snModulus = 2 * e.windowSize := h.sized.modulus
  have hw : 2 ≤ e.windowSize := h.sized.two_le
  have hle := h.reassembly_le
  have hhigh : e.win.d e.rxNextHighest = e.windowSize := h.sized.highest
  have hsucc : e.win.d ((e.rxNextReassembly + 1) % e.snModulus) = e.win.d e.rxNextReassembly + 1 :=
    h.sized.succ (show e.win.d e.rxNextReassembly + 1 < e.snModulus by omega)
  have hlt : e.win.d e.rxNextReassembly < e.windowSize := by
    rcases hs with hs | ⟨hs, -⟩
    · rw [snCompareRx_eq, hhigh, hsucc] at hs
      omega
    · rw [← hs, hhigh] at hsucc
      omega
  exact ⟨{ h with trigger := h.highest },
    fun _ => ⟨lt_of_lt_of_eq hlt hhigh.symm, Int.le_of_eq hhigh⟩⟩

theorem InWindow.stopTReassembly (h : e.InWindow) : e.stopTReassembly.RxWf := by
  rw [Um.stopTReassembly]
  split
  · exact ⟨{ h with },
      fun hne => absurd rfl hne⟩
  · rename_i hstop
    refine ⟨h, fun hne => ?_⟩
    have hhigh : e.win.d e.rxNextHighest = e.windowSize := h.sized.highest
    rw [not_and, not_or, not_or] at hstop
    obtain ⟨h1, h2, -⟩ := hstop hne
    rw [snCompareRx_eq] at h1 h2
    omega

theorem RxWf.startTReassembly (h : e.RxWf) : e.startTReassembly.RxWf := by
  rw [Um.startTReassembly]
  split
  · rename_i hs
    exact h.toInWindow.start hs.2
  · exact h

theorem RxWf.restartTReassembly (h : e.RxWf) : e.restartTReassembly.RxWf := by
  rw [Um.restartTReassembly]
  split
  · rename_i hs
    refine h.toInWindow.start (hs.imp_right fun hs => ⟨?_, hs.2⟩)
    rw [← hs.1]
    exact (Int.emod_eq_of_lt h.highest.1 h.highest.2).symm
  · exact h

/-! ## Reception -/

theorem InWindow.mark (h : e.InWindow) (hx : e.win.InRange x) :
    ({ e with rxList := replaceSegments x (fun p => { p with data := none, size := 0 }) e.rxList } : Um).InWindow := by
  have hmark : ∀ p : Pdu, (if p.sn = x then { p with data := none, size := 0 } else p).sn = p.sn ∧
      (if p.sn = x then { p with data := none, size := 0 } else p).so = p.so := by
    intro p
    split <;> exact ⟨rfl, rfl⟩
  rw [h.ordered.replaceSegments_eq h.sized hx]
  refine ⟨h.sized, h.ordered.map hmark, fun p hp => ?_, h.highest, h.reassembly, h.reassembly_le, h.trigger⟩
  obtain ⟨q, hq, rfl⟩ := mem_map.mp hp
  rw [(hmark q).1]
  exact h.inWindow q hq

theorem InWindow.reassembleAndDeliver (h : e.InWindow) (hx : e.win.InRange x)
    (hr : e.reassembleAndDeliver x = .ok e') : e'.InWindow := by
  have hmark := h.mark hx
  simp only [Um.reassembleAndDeliver] at hr
  split at hr
  · cases hr
  · cases hr
    exact { hmark with }
  · cases hr
    exact { hmark with }

theorem InWindow.setReassembly (h : e.InWindow) (hx : e.win.InRange x) (hxw : e.win.d x ≤ e.windowSize)
    (hs : e.skipDelivered fuel x = .ok a) : ({ e with rxNextReassembly := a } : Um).InWindow := by
  obtain ⟨ha, -, hle, -⟩ := skipDelivered_spec h.sized h.inWindow hx hxw hs
  exact { h with reassembly := ha, reassembly_le := hle }

theorem InWindow.deliverFull (h : e.InWindow) (hx : e.win.InRange x) (hr : e.deliverFull fuel x = .ok e') :
    e'.InWindow := by
  obtain ⟨e₁, h₁, hr⟩ := bind_eq_ok.mp hr
  have h₁ := h.reassembleAndDeliver hx h₁
  split at hr
  · obtain ⟨sn, hsn, hr⟩ := bind_eq_ok.mp hr
    cases hr
    exact h₁.setReassembly h₁.reassembly h₁.reassembly_le hsn
  · cases hr
    exact h₁

theorem outside_moved (hz : e.win.Sized) (ho : Ordered e.win e.rxList) (hx : e.windowSize ≤ e.win.d x)
    (hle : ∀ p ∈ e.rxList, e.win.d p.sn ≤ e.win.d x) {e₁ : Um} (h₁ : e₁.win = e.win.moveTo x) :
    e.rxList.dropWhile (e₁.OutsideWindow ·.sn) = e.rxList.filter (e.win.d x + 1 - e.windowSize ≤ e.win.d ·.sn) ∧
      e.rxList.takeWhile (e₁.OutsideWindow ·.sn) = e.rxList.filter (e.win.d ·.sn < e.win.d x + 1 - e.windowSize) := by
  have hz₁ : e₁.win.Sized := h₁ ▸ hz.moveTo x
  have hout : ∀ p ∈ e.rxList, e₁.OutsideWindow p.sn ↔ e.win.d p.sn < e.win.d x + 1 - e.windowSize := by
    intro p hp
    have hsize : e₁.windowSize = e.windowSize := congrArg Window.size h₁
    rw [outsideWindow_iff hz₁, hsize, h₁]
    exact hz.size_le_d_moveTo hx (hle p hp)
  have hprefix : e.rxList.Pairwise fun p q => decide (e₁.OutsideWindow q.sn) = true →
      decide (e₁.OutsideWindow p.sn) = true := by
    refine ho.le.imp_of_mem fun {p q} hp hq hpq hqo => ?_
    rw [decide_eq_true_iff, hout _ hq] at hqo
    rw [decide_eq_true_iff, hout _ hp]
    omega
  rw [Grouped.dropWhile_eq_filter hprefix, Grouped.takeWhile_eq_filter hprefix]
  refine ⟨filter_congr fun p hp => ?_, filter_congr fun p hp => ?_⟩
  · rw [← decide_not, decide_eq_decide, hout p hp]
    omega
  · rw [decide_eq_decide, hout p hp]

theorem ordered_moved (hz : w.Sized) (ho : Ordered w l) (hx : w.size ≤ w.d x) (hle : ∀ p ∈ l, w.d p.sn ≤ w.d x) :
    Ordered (w.moveTo x) (l.filter (w.d x + 1 - w.size ≤ w.d ·.sn)) ∧
      ∀ p ∈ l.filter (w.d x + 1 - w.size ≤ w.d ·.sn), (w.moveTo x).d p.sn < w.size := by
  have hd : ∀ p ∈ l.filter (w.d x + 1 - w.size ≤ w.d ·.sn),
      (w.moveTo x).d p.sn = w.d p.sn - (w.d x + 1 - w.size) ∧ w.d p.sn ≤ w.d x := by
    intro p hp
    obtain ⟨hp, hge⟩ := mem_filter.mp hp
    rw [hz.d_moveTo hx, if_pos (of_decide_eq_true hge)]
    exact ⟨rfl, hle p hp⟩
  have hsub := ho.sublist (filter_sublist (p := (w.d x + 1 - w.size ≤ w.d ·.sn)))
  refine ⟨⟨hsub.range, hsub.sorted.imp_of_mem fun {p q} hp hq hpq => ?_⟩, fun p hp => ?_⟩
  · rw [Before, (hd p hp).1, (hd q hq).1]
    exact hpq.imp_left fun hlt => by omega
  · have := hd p hp
    omega

/-- The entity once the window has moved up to `x`, before `rx_next_reassembly` is looked at. -/
def moved (e : Um) (x : Int) : Um :=
  let e := { e with rxNextHighest := (x + 1) % e.snModulus }
  e.dropOutside (e.rxList.takeWhile (e.OutsideWindow ·.sn)) (e.rxList.dropWhile (e.OutsideWindow ·.sn))

theorem moveWindow_ok (hz : e.win.Sized) (hr : e.moveWindow fuel x = .ok e') :
    (e.windowSize ≤ (e.moved x).win.d e.rxNextReassembly ∧ ∃ sn, e' = { e.moved x with rxNextReassembly := sn } ∧
        (e.moved x).skipDelivered fuel (((x + 1) % e.snModulus - e.windowSize + e.snModulus) % e.snModulus) = .ok sn) ∨
      ((e.moved x).win.d e.rxNextReassembly < e.windowSize ∧ e' = e.moved x) := by
  have hz₁ : (e.moved x).win.Sized := hz.moveTo x
  simp only [moveWindow] at hr
  split at hr
  · rename_i hout
    obtain ⟨sn, hsn, hr⟩ := bind_eq_ok.mp hr
    cases hr
    exact .inl ⟨(outsideWindow_iff hz₁ _).mp hout, sn, rfl, hsn⟩
  · rename_i hin
    cases hr
    exact .inr ⟨Int.lt_of_not_ge fun hge => hin ((outsideWindow_iff hz₁ _).mpr hge), rfl⟩

/-- The list may hold segments of `x`, which is above the window. -/
structure AboveWindow (e : Um) (x : Int) : Prop where
  sized : e.win.Sized
  ordered : Ordered e.win e.rxList
  above : e.windowSize ≤ e.win.d x
  below : ∀ p ∈ e.rxList, e.win.d p.sn ≤ e.win.d x
  reassembly : e.win.InRange e.rxNextReassembly
  trigger : e.win.InRange e.rxTimerTrigger

theorem AboveWindow.rxList_moved (h : e.AboveWindow x) :
    (e.moved x).rxList = e.rxList.filter (e.win.d x + 1 - e.windowSize ≤ e.win.d ·.sn) :=
  (outside_moved h.sized h.ordered h.above h.below rfl).1

theorem AboveWindow.moved (h : e.AboveWindow x) (ha : e.win.InRange a) (hle : (e.moved x).win.d a ≤ e.windowSize) :
    ({ e.moved x with rxNextReassembly := a } : Um).InWindow := by
  obtain ⟨hord, hin⟩ := ordered_moved h.sized h.ordered h.above h.below
  refine ⟨h.sized.moveTo x, ?_, ?_, h.sized.inRange_emod _, ha, hle, h.trigger⟩
  · exact h.rxList_moved ▸ hord
  · exact h.rxList_moved ▸ hin

/-- From the lower edge of the moved window. -/
theorem AboveWindow.moved_lowest (h : e.AboveWindow x) : ({ e.moved x with
      rxNextReassembly := ((x + 1) % e.snModulus - e.windowSize + e.snModulus) % e.snModulus } : Um).InWindow := by
  have hw : 2 ≤ e.windowSize := h.sized.two_le
  refine h.moved (h.sized.inRange_emod _) (Int.le_trans (Int.le_of_eq (h.sized.moveTo x).lowest) (by omega))

theorem AboveWindow.moveWindow (h : e.AboveWindow x) (hr : e.moveWindow fuel x = .ok e') : e'.InWindow := by
  rcases moveWindow_ok h.sized hr with ⟨-, sn, rfl, hsn⟩ | ⟨hlt, rfl⟩
  · exact h.moved_lowest.setReassembly h.moved_lowest.reassembly h.moved_lowest.reassembly_le hsn
  · exact h.moved h.reassembly (Int.le_of_lt hlt)

/-! ### Segments -/

theorem sduFull_storePdu_above (h : e.InWindow) (hx : e.win.InRange p.sn) (habove : e.windowSize ≤ e.win.d p.sn)
    (hdata : p.data.isNone = false) (hlast : p.so ≤ 0 → p.isLast = false) : (e.storePdu p).sduFull p.sn = false := by
  have hseg : segmentsOf p.sn (e.storePdu p).rxList = [p] := by
    have hord : Ordered e.win (e.storePdu p).rxList := ordered_pduListAdd h.ordered h.sized hx
    rw [hord.segmentsOf_eq h.sized hx, ← perm_singleton]
    refine ((pduListAdd_perm e p e.rxList).filter _).trans ?_
    rw [filter_cons_of_pos (by simp), filter_eq_nil_iff.mpr]
    intro q hq hsn
    have := h.inWindow q hq
    rw [of_decide_eq_true hsn] at this
    omega
  rw [sduFull, hseg]
  simp only [Am.processed, hdata, Bool.false_eq_true, if_false, Am.sduFullLoop]
  split
  · rfl
  · rw [if_neg (by simp [hlast (by omega)])]

theorem InWindow.storePdu (h : e.InWindow) (hx : e.win.InRange p.sn) (hin : e.win.d p.sn < e.windowSize) :
    (e.storePdu p).InWindow := by
  refine ⟨h.sized, ordered_pduListAdd h.ordered h.sized hx, fun q hq => ?_, h.highest, h.reassembly,
    h.reassembly_le, h.trigger⟩
  rcases mem_cons.mp ((pduListAdd_perm e p e.rxList).mem_iff.mp hq) with rfl | hq
  · exact hin
  · exact h.inWindow q hq

theorem InWindow.storePdu_above (h : e.InWindow) (hx : e.win.InRange p.sn)
    (habove : e.windowSize ≤ e.win.d p.sn) : (e.storePdu p).AboveWindow p.sn := by
  refine ⟨h.sized, ordered_pduListAdd h.ordered h.sized hx, habove, fun q hq => ?_, h.reassembly, h.trigger⟩
  rcases mem_cons.mp ((pduListAdd_perm e p e.rxList).mem_iff.mp hq) with rfl | hq
  · exact Int.le_refl _
  · exact Int.le_trans (Int.le_of_lt (h.inWindow q hq)) habove

theorem receptionActions_cases (h : e.InWindow) (hx : e.win.InRange p.sn)
    (hdata : p.data.isNone = false) (hlast : p.so ≤ 0 → p.isLast = false)
    (hr : (e.storePdu p).receptionActions fuel p.sn = .ok e') : ∃ e₁, e' = e₁.stopTReassembly.startTReassembly ∧
      ((e.win.d p.sn < e.windowSize ∧ (e.storePdu p).sduFull p.sn = true ∧
          (e.storePdu p).deliverFull fuel p.sn = .ok e₁) ∨
        (e.windowSize ≤ e.win.d p.sn ∧ (e.storePdu p).moveWindow fuel p.sn = .ok e₁) ∨
        (e.win.d p.sn < e.windowSize ∧ e₁ = e.storePdu p)) := by
  have hz : (e.storePdu p).win.Sized := h.sized
  obtain ⟨e₁, he', hcase⟩ := receptionActions_ok hr
  refine ⟨e₁, he', ?_⟩
  rcases hcase with ⟨hfull, hr⟩ | ⟨-, hout, hr⟩ | ⟨-, hin, hr⟩
  · refine .inl ⟨Int.lt_of_not_ge fun habove => ?_, hfull, hr⟩
    rw [sduFull_storePdu_above h hx habove hdata hlast] at hfull
    cases hfull
  · exact .inr (.inl ⟨(outsideWindow_iff hz _).mp hout, hr⟩)
  · exact .inr (.inr ⟨Int.lt_of_not_ge fun hge => hin ((outsideWindow_iff hz _).mpr hge), hr⟩)

theorem RxWf.receptionActions (h : e.RxWf) (hx : e.win.InRange p.sn)
    (hdata : p.data.isNone = false) (hlast : p.so ≤ 0 → p.isLast = false)
    (hr : (e.storePdu p).receptionActions fuel p.sn = .ok e') : e'.RxWf := by
  obtain ⟨e₁, rfl, hcase⟩ := receptionActions_cases h.toInWindow hx hdata hlast hr
  have h₁ : e₁.InWindow := by
    rcases hcase with ⟨hin, -, hr⟩ | ⟨habove, hr⟩ | ⟨hin, rfl⟩
    · exact (h.toInWindow.storePdu hx hin).deliverFull hx hr
    · exact (h.toInWindow.storePdu_above hx habove).moveWindow hr
    · exact h.toInWindow.storePdu hx hin
  exact h₁.stopTReassembly.startTReassembly

/-! ## Whole runs -/

theorem RxWf.of_outsideTx (h : e.RxWf) (he : e'.outsideTx = e.outsideTx) : e'.RxWf := by
  have h' : e.outsideTx.RxWf := { h with }
  rw [← he] at h'
  exact { h' with }

/-- Only a first segment has SO 0, and then it is not the last one. -/
theorem AcceptsSegment.not_last {sn so : Int} {isFirst isLast : Bool} {data : List UInt8}
    (h : e.AcceptsSegment sn so isFirst data) (hseg : (isFirst && isLast) = false) (hso : 0 ≤ so) (hle : so ≤ 0) :
    isLast = false := by
  cases isFirst with
  | true => exact hseg
  | false => exact absurd ⟨by simp, Int.le_antisymm hle hso⟩ h.first

theorem RxWf.recvPdu (h : e.RxWf) (hm : e.snModulus = 2 ^ e.snFieldLength)
    (hr : e.recvPdu fuel buffer = .ok e') : e'.RxWf := by
  have hcount : (e.countRxPdu buffer.length).RxWf := { h with }
  rcases recvPdu_cases hr with rfl | rfl | ⟨sn, so, isFirst, isLast, data, hseg, hsn, hso, hfirst, hr⟩
  · exact { h with }
  · exact { h with }
  · by_cases ha : (e.countRxPdu buffer.length).AcceptsSegment sn so isFirst data
    · rw [recvSegment_of_accepts ha] at hr
      exact hcount.receptionActions ⟨hsn.1, lt_of_lt_of_eq hsn.2 hm.symm⟩ rfl (ha.not_last hseg hso) hr
    · rw [recvSegment_of_not_accepts ha] at hr
      cases hr
      exact { h with }

theorem passed_filter (h : Ordered e.win e.rxList) :
    e.rxList.takeWhile (e.Passed ·.sn) = e.rxList.filter (e.win.d ·.sn < e.win.d e.rxNextReassembly) ∧
      e.rxList.dropWhile (e.Passed ·.sn) = e.rxList.filter (e.win.d e.rxNextReassembly ≤ e.win.d ·.sn) := by
  have hpassed : ∀ a, e.Passed a ↔ e.win.d a < e.win.d e.rxNextReassembly := by
    intro a
    rw [Passed, snCompareRx_eq]
    omega
  have hprefix : e.rxList.Pairwise fun p q => decide (e.Passed q.sn) = true → decide (e.Passed p.sn) = true := by
    refine h.le.imp fun {p q} hpq hq => ?_
    rw [decide_eq_true_iff, hpassed] at hq ⊢
    omega
  rw [Grouped.takeWhile_eq_filter hprefix, Grouped.dropWhile_eq_filter hprefix]
  refine ⟨filter_congr fun p _ => ?_, filter_congr fun p _ => ?_⟩
  · rw [decide_eq_decide, hpassed]
  · rw [← decide_not, decide_eq_decide, hpassed]
    omega

theorem RxWf.setTime {now : Nat} (h : e.RxWf) (hr : e.setTime fuel now = .ok e') : e'.RxWf := by
  rcases checkTReassembly_ok hr with ⟨-, rfl⟩ | ⟨hexp, sn, e₁, hsn, he₁, rfl⟩
  · exact { h with }
  · obtain ⟨-, htw⟩ := h.timer hexp.1
    obtain ⟨ha, -, hle, -⟩ := skipDelivered_spec (e := { e with tCurrent := u64 now }) h.sized h.inWindow
      h.trigger htw hsn
    refine RxWf.restartTReassembly ?_
    rw [he₁]
    have hsub := dropWhile_sublist (l := e.rxList) (e₁.Passed ·.sn)
    rw [he₁] at hsub
    exact ⟨⟨h.sized, h.ordered.sublist hsub, fun p hp => h.inWindow p (hsub.subset hp), h.highest, ha, hle,
      h.trigger⟩, fun hne => absurd rfl hne⟩

theorem rxWf_new (c : UmConfig) : (newNrRlcEntityUm c).RxWf := by
  have hz : (newNrRlcEntityUm c).win.Sized := by
    rcases c.snValid with hk | hk
    · exact ⟨by simp [win, newNrRlcEntityUm, hk], by simp [win, newNrRlcEntityUm, hk]⟩
    · exact ⟨by simp [win, newNrRlcEntityUm, hk], by simp [win, newNrRlcEntityUm, hk]⟩
  have hzero : (newNrRlcEntityUm c).win.InRange 0 := ⟨Int.le_refl _, hz.pos⟩
  exact ⟨⟨hz, ⟨by simp [newNrRlcEntityUm], .nil⟩, by simp [newNrRlcEntityUm], hzero, hzero,
    Int.le_of_eq hz.highest, hzero⟩, fun hne => absurd rfl hne⟩

theorem RxWf.exec (h : e.RxWf) (hm : e.snModulus = 2 ^ e.snFieldLength) (hr : e.exec fuel op = .ok e') : e'.RxWf := by
  cases op with
  | recvSdu buffer sduId => exact h.of_outsideTx (recvSdu_outside hr)
  | recvPdu buffer => exact h.recvPdu hm hr
  | generatePdu buffer =>
    obtain ⟨r, hg, rfl⟩ := map_eq_ok.mp hr
    exact h.of_outsideTx (generatePdu_outside hg)
  | setTime now => exact h.setTime hr
  | discardSdu sduId =>
    cases hr
    exact h.of_outsideTx (discardSdu_outside e sduId)
  | reestablishment =>
    cases hr
    have hz : e.reestablishment.win.Sized := ⟨h.sized.modulus, h.sized.two_le⟩
    have hzero : e.reestablishment.win.InRange 0 := ⟨Int.le_refl _, hz.pos⟩
    exact ⟨⟨hz, ⟨by simp [reestablishment], .nil⟩, by simp [reestablishment], hzero, hzero,
      Int.le_of_eq hz.highest, hzero⟩, fun hne => absurd rfl hne⟩

theorem Reaches.rxWf {ok : Um → Op → Prop} (h : Reaches ok c e) : e.RxWf := by
  induction h with
  | new => exact rxWf_new c
  | step h _ hr ih =>
    obtain ⟨fuel, hr⟩ := hr
    exact ih.exec h.txWf.modulus hr

/-! ## What holds of every segment -/

theorem stopTReassembly_rxList (e : Um) : e.stopTReassembly.rxList = e.rxList := by
  rw [Um.stopTReassembly]
  split <;> rfl

theorem startTReassembly_rxList (e : Um) : e.startTReassembly.rxList = e.rxList := by
  rw [Um.startTReassembly]
  split <;> rfl

section forall_rxList

variable {P : Pdu → Prop} (hmark : ∀ p : Pdu, P { p with data := none, size := 0 })
include hmark

theorem forall_deliverFull (h : ∀ p ∈ e.rxList, P p) (hr : e.deliverFull fuel x = .ok e') : ∀ p ∈ e'.rxList, P p := by
  obtain ⟨e₁, h₁, hr⟩ := bind_eq_ok.mp hr
  have hl : ∀ p ∈ Um.replaceSegments x (fun p => { p with data := none, size := 0 }) e.rxList, P p := by
    intro p hp
    rcases mem_append.mp hp with hp | hp
    · exact h p ((takeWhile_sublist _).subset hp)
    rcases mem_append.mp hp with hp | hp
    · obtain ⟨q, -, rfl⟩ := mem_map.mp hp
      exact hmark q
    · exact h p ((dropWhile_sublist _).subset ((dropWhile_sublist _).subset hp))
  have h₁ : ∀ p ∈ e₁.rxList, P p := by
    simp only [Um.reassembleAndDeliver] at h₁
    split at h₁ <;> cases h₁ <;> exact hl
  split at hr
  · obtain ⟨sn, -, hr⟩ := bind_eq_ok.mp hr
    cases hr
    exact h₁
  · cases hr
    exact h₁

variable (hnew : ∀ sn so isFirst isLast data, P (nrRlcNewPdu sn so isFirst isLast data))
include hnew

theorem forall_recvPdu (hz : e.win.Sized) (h : ∀ p ∈ e.rxList, P p) (hr : e.recvPdu fuel buffer = .ok e') :
    ∀ p ∈ e'.rxList, P p := by
  rcases recvPdu_cases hr with rfl | rfl | ⟨sn, so, isFirst, isLast, data, -, -, -, -, hr⟩
  · exact h
  · exact h
  · by_cases ha : (e.countRxPdu buffer.length).AcceptsSegment sn so isFirst data
    · rw [recvSegment_of_accepts ha] at hr
      obtain ⟨e₁, rfl, hcase⟩ := receptionActions_ok hr
      have hstore : ∀ q ∈ ((e.countRxPdu buffer.length).storePdu (nrRlcNewPdu sn so isFirst isLast data)).rxList,
          P q := by
        intro q hq
        rcases mem_cons.mp ((pduListAdd_perm _ _ e.rxList).mem_iff.mp hq) with rfl | hq
        · exact hnew ..
        · exact h q hq
      have h₁ : ∀ p ∈ e₁.rxList, P p := by
        rcases hcase with ⟨-, hr⟩ | ⟨-, -, hr⟩ | ⟨-, -, rfl⟩
        · exact forall_deliverFull hmark hstore hr
        · rcases moveWindow_ok (e := (e.countRxPdu buffer.length).storePdu _) hz hr with ⟨-, sn, rfl, -⟩ | ⟨-, rfl⟩
          · exact fun p hp => hstore p ((dropWhile_sublist _).subset hp)
          · exact fun p hp => hstore p ((dropWhile_sublist _).subset hp)
        · exact hstore
      rw [startTReassembly_rxList, stopTReassembly_rxList]
      exact h₁
    · rw [recvSegment_of_not_accepts ha] at hr
      cases hr
      exact h

theorem Reaches.forall_rxList {ok : Um → Op → Prop} (h : Reaches ok c e) : ∀ p ∈ e.rxList, P p := by
  induction h with
  | new => exact fun p hp => absurd hp not_mem_nil
  | @step e e' op h _ hr ih =>
    obtain ⟨fuel, hr⟩ := hr
    have htx : e'.outsideTx = e.outsideTx → ∀ p ∈ e'.rxList, P p := by
      intro he p hp
      have hl : e'.outsideTx.rxList = e.outsideTx.rxList := by rw [he]
      exact ih p (hl ▸ hp)
    cases op with
    | recvSdu buffer sduId => exact htx (recvSdu_outside hr)
    | recvPdu buffer => exact forall_recvPdu hmark hnew h.rxWf.sized ih hr
    | generatePdu buffer =>
      obtain ⟨r, hg, rfl⟩ := map_eq_ok.mp hr
      exact htx (generatePdu_outside hg)
    | setTime now =>
      rcases checkTReassembly_ok hr with ⟨-, rfl⟩ | ⟨-, sn, e₁, -, rfl, rfl⟩
      · exact ih
      · intro p hp
        rw [Um.restartTReassembly] at hp
        split at hp <;> exact ih p ((dropWhile_sublist _).subset hp)
    | discardSdu sduId =>
      cases hr
      exact htx (discardSdu_outside e sduId)
    | reestablishment =>
      cases hr
      exact fun p hp => absurd hp not_mem_nil

end forall_rxList

end Um

end OaiNr.Rlc
