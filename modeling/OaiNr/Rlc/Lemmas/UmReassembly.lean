import OaiNr.Rlc.Lemmas.Slot
import OaiNr.Rlc.Lemmas.UmWindow

/-!
# Reassembly at a UM receiver
-/

namespace OaiNr.Rlc

open List

/-! ## The segments of one SDU -/

structure PartOf (sdu : List UInt8) (p : Pdu) : Prop where
  so_nonneg : 0 ≤ p.so
  size : ∀ b, p.data = some b → p.size = b.length
  bytes : ∀ b, p.data = some b → b = (sdu.drop p.so.toNat).take b.length
  fits : ∀ b, p.data = some b → p.so + b.length ≤ sdu.length
  last : ∀ b, p.data = some b → p.isLast = true → p.so + b.length = sdu.length

variable {sdu : List UInt8} {l : List Pdu} {p : Pdu} {c : Nat}

theorem reassembleLoop_done (hl : ∀ p ∈ l, PartOf sdu p ∧ p.data ≠ none) (hmax : sdu.length ≤ 16000) :
    Am.reassembleLoop l sdu sdu.length = .ok (some sdu) := by
  induction l with
  | nil => rfl
  | cons p l ih =>
    obtain ⟨hp, hd⟩ := hl p mem_cons_self
    obtain ⟨b, hb⟩ := Option.ne_none_iff_exists'.mp hd
    have hsize := hp.size b hb
    have hfits := hp.fits b hb
    have hroom : ¬((sdu.length : Int) < p.so ∨ nrSduMax < sdu.length + (p.size - (sdu.length - p.so))) := by
      rw [nrSduMax]
      omega
    have hnew : ¬0 < p.size - (sdu.length - p.so) := by omega
    simp only [Am.reassembleLoop]
    rw [if_neg hroom, if_neg hnew]
    exact ih fun q hq => hl q (mem_cons_of_mem _ hq)

theorem take_append_part (hp : PartOf sdu p) {b : List UInt8} (hb : p.data = some b) (hc : p.so ≤ c)
    (hlt : (c : Int) < p.so + b.length) : sdu.take c ++ (b.drop (c - p.so).toNat).take (p.so + b.length - c).toNat =
      sdu.take (p.so + b.length).toNat := by
  have hso := hp.so_nonneg
  have hbytes := hp.bytes b hb
  obtain ⟨s, hs⟩ := Int.eq_ofNat_of_zero_le hso
  rw [hs] at hc hlt hbytes ⊢
  have h1 : ((c : Int) - (s : Nat)).toNat = c - s := by omega
  have h2 : ((s : Nat) + (b.length : Int) - c).toNat = s + b.length - c := by omega
  have h3 : ((s : Nat) + (b.length : Int)).toNat = c + (s + b.length - c) := by omega
  have hdrop : b.drop (c - s) = (sdu.drop c).take (b.length - (c - s)) := by
    refine (congrArg (List.drop (c - s)) hbytes).trans ?_
    rw [drop_take, drop_drop, Int.toNat_natCast, show s + (c - s) = c by omega]
  have hmin : min (s + b.length - c) (b.length - (c - s)) = s + b.length - c := by omega
  rw [h1, h2, h3, hdrop, take_take, hmin, take_add]

theorem reassembleLoop_full (hl : ∀ p ∈ l, PartOf sdu p ∧ p.data ≠ none) (hmax : sdu.length ≤ 16000)
    (hc : c ≤ sdu.length) (hf : Am.sduFullLoop l (c - 1) = true) :
    Am.reassembleLoop l (sdu.take c) c = .ok (some sdu) := by
  induction l generalizing c with
  | nil => cases hf
  | cons p l ih =>
    obtain ⟨hp, hd⟩ := hl p mem_cons_self
    have htail : ∀ q ∈ l, PartOf sdu q ∧ q.data ≠ none := fun q hq => hl q (mem_cons_of_mem _ hq)
    obtain ⟨b, hb⟩ := Option.ne_none_iff_exists'.mp hd
    have hsize := hp.size b hb
    have hfits := hp.fits b hb
    have hso := hp.so_nonneg
    rw [Am.sduFullLoop] at hf
    split at hf
    · cases hf
    · rename_i hgap
      have hlen : p.size - (c - p.so) = p.so + b.length - c := by omega
      have hroom : ¬((c : Int) < p.so ∨ nrSduMax < c + (p.so + b.length - c)) := by
        rw [nrSduMax]
        omega
      simp only [Am.reassembleLoop, hb, hlen]
      rw [if_neg hroom]
      -- the loop goes on with the first `c'` bytes
      have hnext : ∀ c' : Nat, c' ≤ sdu.length → (c' : Int) = max (c : Int) (p.so + b.length) →
          Am.reassembleLoop l (sdu.take c') c' = .ok (some sdu) := by
        intro c' hc' hmaxc
        split at hf
        · rename_i hlast
          have hend := hp.last b hb hlast
          have hc'' : c' = sdu.length := by omega
          rw [hc'', take_length]
          exact reassembleLoop_done htail hmax
        · refine ih htail hc' ?_
          rw [show ((c' : Int) - 1) = max ((c : Int) - 1) (p.so + p.size - 1) by omega]
          exact hf
      by_cases hlt : (c : Int) < p.so + b.length
      · rw [if_pos (by omega), take_append_part hp hb (by omega) hlt,
          show (c : Int) + (p.so + b.length - c) = ((p.so + b.length).toNat : Int) by omega]
        exact hnext _ (by omega) (by omega)
      · rw [if_neg (by omega)]
        exact hnext c hc (by omega)

structure GroupOk (sdu : List UInt8) (l : List Pdu) : Prop where
  part : ∀ p ∈ l, PartOf sdu p
  fresh : Am.processed l = false → ∀ p ∈ l, p.data ≠ none
  head : Am.processed l = true → ∀ p ∈ l.head?, p.so = 0

namespace GroupOk

theorem nil (sdu : List UInt8) : GroupOk sdu [] := ⟨by simp, by simp, by simp⟩

theorem insert (h : GroupOk sdu l) (hp : PartOf sdu p) (hd : p.data ≠ none) : GroupOk sdu (RxManager.insertBySo p l) ∧
      Am.processed (RxManager.insertBySo p l) = Am.processed l := by
  have hso := hp.so_nonneg
  have hpart : ∀ q ∈ RxManager.insertBySo p l, PartOf sdu q := by
    intro q hq
    rcases RxManager.mem_insertBySo.mp hq with rfl | hq
    · exact hp
    · exact h.part q hq
  cases hpr : Am.processed l with
  | false =>
    have hpr' := Am.processed_insertBySo hd hpr
    refine ⟨⟨hpart, fun _ q hq => ?_, fun ht => ?_⟩, hpr'⟩
    · rcases RxManager.mem_insertBySo.mp hq with rfl | hq
      · exact hd
      · exact h.fresh hpr q hq
    · rw [hpr'] at ht
      cases ht
  | true =>
    cases l with
    | nil => cases hpr
    | cons q l =>
      have hq : q.so = 0 := h.head hpr q rfl
      have hhead : RxManager.insertBySo p (q :: l) = q :: RxManager.insertBySo p l :=
        RxManager.head_insertBySo (by omega)
      rw [hhead] at hpart ⊢
      have hpr' : Am.processed (q :: RxManager.insertBySo p l) = true := hpr
      refine ⟨⟨hpart, fun hf => ?_, fun _ r hr => ?_⟩, hpr'⟩
      · rw [hpr'] at hf
        cases hf
      · cases hr
        exact hq

theorem mark (h : GroupOk sdu l) (hf : Am.sduFullLoop l (-1) = true) :
    GroupOk sdu (l.map fun p => { p with data := none, size := 0 }) ∧
      Am.processed (l.map fun p => { p with data := none, size := 0 }) = true := by
  obtain ⟨q, t, rfl, hq⟩ := Am.sduFullLoop_head hf
  refine ⟨⟨fun p hp => ?_, fun hf => absurd hf (by simp [Am.processed]), fun _ p hp => ?_⟩, rfl⟩
  · obtain ⟨r, hr, rfl⟩ := mem_map.mp hp
    exact ⟨(h.part r hr).so_nonneg, by simp, by simp, by simp, by simp⟩
  · cases hp
    have := (h.part q mem_cons_self).so_nonneg
    exact Int.le_antisymm hq this

theorem reassemble (h : GroupOk sdu l) (hmax : sdu.length ≤ 16000) (hpr : Am.processed l = false)
    (hf : Am.sduFullLoop l (-1) = true) : Am.reassembleLoop l [] 0 = .ok (some sdu) :=
  reassembleLoop_full (c := 0) (fun p hp => ⟨h.part p hp, h.fresh hpr p hp⟩) hmax (Nat.zero_le _) hf

end GroupOk

/-! ## All the segments in the list -/

def groupOf (l : List Pdu) (sn : Int) : List Pdu := l.filter (·.sn = sn)

variable {w : Window} {n x y : Int} {segmented : List (List UInt8)} {j : Nat}

def Groups (w : Window) (n : Int) (segmented : List (List UInt8)) (l : List Pdu) : Prop :=
  ∀ sn, w.InRange sn → groupOf l sn ≠ [] →
    ∃ (i : Nat) (sdu : List UInt8), (i : Int) = w.index n sn ∧ segmented[i]? = some sdu ∧
      GroupOk sdu (groupOf l sn)

/-- The SDU with the number `j` will not be delivered (again): it is below `rx_next_reassembly`, or its
segments in the list are marked. -/
def Done (w : Window) (n reassembly : Int) (l : List Pdu) (j : Nat) : Prop :=
  (j : Int) < w.index n reassembly ∨
    ∃ sn, w.InRange sn ∧ (j : Int) = w.index n sn ∧ Am.processed (groupOf l sn) = true

theorem groupOf_map_of_ne {f : Pdu → Pdu} (hf : ∀ p, (f p).sn = p.sn) (hne : ∀ p ∈ l, p.sn = y → f p = p) :
    groupOf (l.map f) y = groupOf l y := by
  induction l with
  | nil => rfl
  | cons p l ih =>
    have ih := ih fun q hq => hne q (mem_cons_of_mem _ hq)
    simp only [groupOf] at ih ⊢
    rw [map_cons, filter_cons, filter_cons, ih, hf]
    split
    · rename_i hp
      rw [hne p mem_cons_self (of_decide_eq_true hp)]
    · rfl

def markSn (x : Int) (l : List Pdu) : List Pdu :=
  l.map fun p => if p.sn = x then { p with data := none, size := 0 } else p

theorem groupOf_markSn_of_ne (hne : y ≠ x) (l : List Pdu) : groupOf (markSn x l) y = groupOf l y := by
  refine groupOf_map_of_ne (fun p => ?_) fun p _ hp => ?_
  · split <;> rfl
  · rw [if_neg (by rw [hp]; exact hne)]

theorem groupOf_markSn (x : Int) (l : List Pdu) :
    groupOf (markSn x l) x = (groupOf l x).map fun p => { p with data := none, size := 0 } := by
  induction l with
  | nil => rfl
  | cons p l ih =>
    simp only [groupOf, markSn] at ih ⊢
    rw [map_cons, filter_cons, filter_cons]
    by_cases hp : p.sn = x
    · simp [hp, ih]
    · simp [hp, ih]

theorem groupOf_filter {f : Int → Bool} (l : List Pdu) (y : Int) :
    groupOf (l.filter (f ·.sn)) y = if f y then groupOf l y else [] := by
  rw [groupOf, filter_filter, groupOf]
  split
  · rename_i hy
    refine filter_congr fun p _ => ?_
    by_cases hp : p.sn = y <;> simp [hp, hy]
  · rename_i hy
    refine filter_eq_nil_iff.mpr fun p _ hp => hy ?_
    simp only [Bool.and_eq_true, decide_eq_true_eq] at hp
    rw [← hp.1]
    exact hp.2

namespace Groups

theorem markSn (h : Groups w n segmented l) (hx : w.InRange x) (hf : Am.sduFullLoop (groupOf l x) (-1) = true) :
    Groups w n segmented (markSn x l) ∧ Am.processed (groupOf (Rlc.markSn x l) x) = true := by
  have hne : groupOf l x ≠ [] := by
    obtain ⟨q, t, hq, -⟩ := Am.sduFullLoop_head hf
    rw [hq]
    exact cons_ne_nil _ _
  obtain ⟨i, sdu, hi, hsdu, hok⟩ := h x hx hne
  obtain ⟨hmark, hpr⟩ := hok.mark hf
  rw [groupOf_markSn]
  refine ⟨fun sn hsn hne' => ?_, hpr⟩
  by_cases heq : sn = x
  · subst heq
    rw [groupOf_markSn]
    exact ⟨i, sdu, hi, hsdu, hmark⟩
  · rw [groupOf_markSn_of_ne heq] at hne' ⊢
    exact h sn hsn hne'

theorem filter {f : Int → Bool} {w' : Window} {n' : Int} (h : Groups w n segmented l)
    (hrange : ∀ sn, w'.InRange sn → w.InRange sn) (hindex : ∀ sn, f sn = true → w'.index n' sn = w.index n sn) :
    Groups w' n' segmented (l.filter (f ·.sn)) := by
  intro sn hsn hne
  rw [groupOf_filter] at hne ⊢
  split at hne
  · rename_i hf
    obtain ⟨i, sdu, hi, hsdu, hok⟩ := h sn (hrange sn hsn) hne
    rw [if_pos hf]
    exact ⟨i, sdu, by rw [hindex sn hf, hi], hsdu, hok⟩
  · exact absurd rfl hne

theorem mono {more : List (List UInt8)} (h : Groups w n segmented l) : Groups w n (segmented ++ more) l := by
  intro sn hsn hne
  obtain ⟨i, sdu, hi, hsdu, hok⟩ := h sn hsn hne
  refine ⟨i, sdu, hi, ?_, hok⟩
  rw [List.getElem?_append_left (List.getElem?_eq_some_iff.mp hsdu).1]
  exact hsdu

end Groups

namespace Um

variable {e e' : Um} {fuel : Nat}

theorem groupOf_pduListAdd_of_ne (e : Um) (hne : p.sn ≠ y) (l : List Pdu) :
    groupOf (e.pduListAdd p l) y = groupOf l y := by
  induction l with
  | nil => simp [pduListAdd, groupOf, hne]
  | cons q l ih =>
    rw [pduListAdd]
    simp only [groupOf] at ih ⊢
    split
    · rw [filter_cons_of_neg (by simpa using hne)]
    · rw [filter_cons, filter_cons, ih]

theorem groupOf_pduListAdd (ho : Ordered e.win l) :
    groupOf (e.pduListAdd p l) p.sn = RxManager.insertBySo p (groupOf l p.sn) := by
  induction l with
  | nil => simp [pduListAdd, groupOf, RxManager.insertBySo]
  | cons q l ih =>
    have ih := ih (ho.sublist (sublist_cons_self q l))
    have hq := (pairwise_cons.mp ho.sorted).1
    rw [pduListAdd]
    simp only [groupOf] at ih ⊢
    split
    · rename_i hlt
      rw [filter_cons_of_pos (by simp)]
      by_cases hsn : q.sn = p.sn
      · have hso : p.so < q.so := by
          rcases hlt with hlt | ⟨-, hso⟩
          · rw [snCompareRx_eq, hsn] at hlt
            omega
          · exact hso
        rw [filter_cons_of_pos (by simpa using hsn), RxManager.insertBySo, if_pos (by omega)]
      · -- what follows has bigger SNs
        have hd : e.win.d p.sn < e.win.d q.sn := by
          rcases hlt with hlt | ⟨hsn', -⟩
          · rw [snCompareRx_eq] at hlt
            omega
          · exact absurd hsn' hsn
        have hnil : (q :: l).filter (fun r => decide (r.sn = p.sn)) = [] := by
          refine filter_eq_nil_iff.mpr fun r hr hrsn => ?_
          have hrsn := of_decide_eq_true hrsn
          rcases mem_cons.mp hr with rfl | hr
          · exact hsn hrsn
          · have := (hq r hr).le
            rw [hrsn] at this
            omega
        rw [hnil]
        rfl
    · rename_i hge
      by_cases hsn : q.sn = p.sn
      · rw [filter_cons_of_pos (by simpa using hsn), filter_cons_of_pos (by simpa using hsn),
          RxManager.insertBySo, if_neg (fun hso => hge (.inr ⟨hsn, hso⟩)), ih]
      · rw [filter_cons_of_neg (by simpa using hsn), filter_cons_of_neg (by simpa using hsn), ih]

theorem groups_pduListAdd {i : Nat} {sdu : List UInt8} (h : Groups e.win n segmented l)
    (ho : Ordered e.win l) (hp : e.win.InRange p.sn) (hi : (i : Int) = e.win.index n p.sn)
    (hsdu : segmented[i]? = some sdu) (hpart : PartOf sdu p) (hd : p.data ≠ none) :
    Groups e.win n segmented (e.pduListAdd p l) ∧
      (∀ y, Am.processed (groupOf (e.pduListAdd p l) y) = Am.processed (groupOf l y)) ∧
      GroupOk sdu (groupOf (e.pduListAdd p l) p.sn) := by
  have hgroup : GroupOk sdu (groupOf l p.sn) := by
    by_cases hnil : groupOf l p.sn = []
    · rw [hnil]
      exact .nil sdu
    · obtain ⟨i', sdu', hi', hsdu', hok⟩ := h p.sn hp hnil
      have : i' = i := by omega
      subst this
      rw [hsdu] at hsdu'
      cases hsdu'
      exact hok
  obtain ⟨hok, hpr⟩ := hgroup.insert hpart hd
  rw [← groupOf_pduListAdd ho] at hok hpr
  refine ⟨fun sn hsn hne => ?_, fun y => ?_, hok⟩
  · by_cases heq : p.sn = sn
    · subst heq
      exact ⟨i, sdu, hi, hsdu, hok⟩
    · rw [groupOf_pduListAdd_of_ne e heq] at hne ⊢
      exact h sn hsn hne
  · by_cases heq : p.sn = y
    · subst heq
      exact hpr
    · rw [groupOf_pduListAdd_of_ne e heq]

/-! ## The receiver -/

/-- What the receiver stores and has delivered, if its window ends at the number `n`. -/
structure Holds (segmented : List (List UInt8)) (n : Int) (done : List Nat) (e : Um) : Prop where
  highest : e.rxNextHighest = n % e.snModulus
  groups : Groups e.win n segmented e.rxList
  done : ∀ j ∈ done, Done e.win n e.rxNextReassembly e.rxList j

variable {done : List Nat} {i : Nat}

theorem sduFull_iff (h : Ordered e.win e.rxList) (hz : e.win.Sized) (hx : e.win.InRange x) :
    e.sduFull x = true ↔ Am.processed (groupOf e.rxList x) = false ∧
      Am.sduFullLoop (groupOf e.rxList x) (-1) = true := by
  rw [sduFull, h.segmentsOf_eq hz hx]
  change (if Am.processed (groupOf e.rxList x) then false else Am.sduFullLoop (groupOf e.rxList x) (-1)) = true ↔ _
  cases Am.processed (groupOf e.rxList x) <;> simp

namespace Holds

variable (h : Holds segmented n done e)
include h

theorem of_eq (hw : e'.win = e.win)
    (hr : e'.rxNextReassembly = e.rxNextReassembly) (hl : e'.rxList = e.rxList) : Holds segmented n done e' := by
  refine ⟨?_, ?_, ?_⟩
  · have hhigh : e'.rxNextHighest = e.rxNextHighest := congrArg Window.highest hw
    have hmod : e'.snModulus = e.snModulus := congrArg Window.modulus hw
    rw [hhigh, hmod]
    exact h.highest
  · rw [hw, hl]
    exact h.groups
  · rw [hw, hr, hl]
    exact h.done

theorem mono {more : List (List UInt8)} : Holds (segmented ++ more) n done e :=
  ⟨h.highest, h.groups.mono, h.done⟩

theorem storePdu {sdu : List UInt8} (ho : Ordered e.win e.rxList)
    (hp : e.win.InRange p.sn) (hi : (i : Int) = e.win.index n p.sn) (hsdu : segmented[i]? = some sdu)
    (hpart : PartOf sdu p) (hd : p.data ≠ none) : Holds segmented n done (e.storePdu p) := by
  obtain ⟨hg, hpr, -⟩ := groups_pduListAdd h.groups ho hp hi hsdu hpart hd
  refine ⟨h.highest, hg, fun j hj => ?_⟩
  refine (h.done j hj).imp_right fun ⟨sn, hsn, hj, hdel⟩ => ⟨sn, hsn, hj, ?_⟩
  exact (hpr sn).trans hdel

theorem setReassembly (hle : e.win.d e.rxNextReassembly ≤ e.win.d y) :
    Holds segmented n done { e with rxNextReassembly := y } := by
  refine ⟨h.highest, h.groups, fun j hj => (h.done j hj).imp_left fun hlt => ?_⟩
  refine Int.lt_of_lt_of_le hlt ?_
  show e.win.index n e.rxNextReassembly ≤ e.win.index n y
  rw [Window.index, Window.index]
  omega

theorem deliverFull {sdu : List UInt8} (hw : e.InWindow)
    (hx : e.win.InRange x) (hi : (i : Int) = e.win.index n x) (hsdu : GroupOk sdu (groupOf e.rxList x))
    (hmax : sdu.length ≤ 16000) (hfull : e.sduFull x = true) (hr : e.deliverFull fuel x = .ok e') :
    Holds segmented n (done ++ [i]) e' ∧ e'.calls = e.calls ++ [.deliverSdu sdu] := by
  obtain ⟨hpr, hloop⟩ := (sduFull_iff hw.ordered hw.sized hx).mp hfull
  have hre := hsdu.reassemble hmax hpr hloop
  obtain ⟨hmark, hdel⟩ := h.groups.markSn hx hloop
  obtain ⟨e₁, h₁, hr⟩ := bind_eq_ok.mp hr
  have hw₁ := hw.reassembleAndDeliver hx h₁
  have hseg : segmentsOf x e.rxList = groupOf e.rxList x := hw.ordered.segmentsOf_eq hw.sized hx
  have hrep : replaceSegments x (fun p => { p with data := none, size := 0 }) e.rxList =
      Rlc.markSn x e.rxList := hw.ordered.replaceSegments_eq hw.sized hx _
  simp only [reassembleAndDeliver, hseg, hre, hrep] at h₁
  have hfields : e₁.win = e.win ∧ e₁.rxNextReassembly = e.rxNextReassembly ∧
      e₁.rxList = Rlc.markSn x e.rxList ∧ e₁.calls = e.calls ++ [.deliverSdu sdu] := by
    cases h₁
    exact ⟨rfl, rfl, rfl, rfl⟩
  obtain ⟨hwin, hreas, hlist, hcalls⟩ := hfields
  have hh₁ : Holds segmented n (done ++ [i]) e₁ := by
    refine ⟨?_, ?_, fun j hj => ?_⟩
    · have hhigh : e₁.rxNextHighest = e.rxNextHighest := congrArg Window.highest hwin
      have hmod : e₁.snModulus = e.snModulus := congrArg Window.modulus hwin
      rw [hhigh, hmod]
      exact h.highest
    · rw [hwin, hlist]
      exact hmark
    · rw [hwin, hreas, hlist]
      rcases mem_append.mp hj with hj | hj
      · obtain hlt | ⟨sn, hsn, hj, hd⟩ := h.done j hj
        · exact .inl hlt
        refine .inr ⟨sn, hsn, hj, ?_⟩
        by_cases heq : sn = x
        · rw [heq]
          exact hdel
        · rw [groupOf_markSn_of_ne heq]
          exact hd
      · rw [mem_singleton.mp hj]
        exact .inr ⟨x, hx, hi, hdel⟩
  split at hr
  · obtain ⟨sn, hsn, hr⟩ := bind_eq_ok.mp hr
    cases hr
    obtain ⟨-, hle, -⟩ := skipDelivered_spec hw₁.sized hw₁.inWindow hw₁.reassembly hw₁.reassembly_le hsn
    exact ⟨hh₁.setReassembly hle, hcalls⟩
  · cases hr
    exact ⟨hh₁, hcalls⟩

theorem moveWindow (hw : e.AboveWindow x)
    (hreas : e.win.d e.rxNextReassembly ≤ e.windowSize) (hi : (i : Int) = e.win.index n x)
    (hxi : x = i % e.snModulus) (hr : e.moveWindow fuel x = .ok e') :
    Holds segmented (i + 1) done e' ∧ e'.calls = e.calls := by
  have hr := moveWindow_ok hw.sized hr
  have hl₂ := hw.rxList_moved
  obtain ⟨e₂, he₂⟩ : ∃ e₂, e.moved x = e₂ := ⟨_, rfl⟩
  have hw₂ : e₂.win = e.win.moveTo x := by rw [← he₂]; rfl
  have hr₂ : e₂.rxNextReassembly = e.rxNextReassembly ∧ e₂.calls = e.calls := by
    rw [← he₂]
    exact ⟨rfl, rfl⟩
  rw [he₂] at hr hl₂
  have hmod : e₂.snModulus = e.snModulus := congrArg Window.modulus hw₂
  have hindex : ∀ a, e.win.d x + 1 - e.windowSize ≤ e.win.d a → e₂.win.index (i + 1) a = e.win.index n a := by
    intro a ha
    rw [hw₂, hi]
    exact hw.sized.index_moveTo n hw.above ha
  have hhigh : e₂.rxNextHighest = (i + 1) % e₂.snModulus := by
    have : e₂.rxNextHighest = (x + 1) % e.snModulus := congrArg Window.highest hw₂
    rw [this, hmod, hxi, Int.emod_add_emod]
  have hgroups : Groups e₂.win (i + 1) segmented e₂.rxList := by
    rw [hl₂]
    refine h.groups.filter (f := fun sn => decide (e.win.d x + 1 - e.windowSize ≤ e.win.d sn)) ?_ ?_
    · rw [hw₂]
      exact fun sn hsn => hsn
    · exact fun sn hsn => hindex sn (of_decide_eq_true hsn)
  have hsize : e₂.win.size = e.windowSize := congrArg Window.size hw₂
  have hz₂ : e₂.win.Sized := hw₂ ▸ hw.sized.moveTo x
  -- the lower edge of the new window
  have hlow : ∀ r, n - e.windowSize + (e.win.d x + 1 - e.windowSize) ≤ e₂.win.index (i + 1) r := by
    intro r
    have h0 := hz₂.nonneg r
    have hix : (i : Int) = n - e.windowSize + e.win.d x := hi
    rw [Window.index, hsize]
    omega
  have hdone : ∀ r, e.win.index n e.rxNextReassembly ≤ e₂.win.index (i + 1) r →
      ∀ j ∈ done, Done e₂.win (i + 1) r e₂.rxList j := by
    intro r hle j hj
    rcases h.done j hj with hlt | ⟨sn, hsn, hj, hdel⟩
    · exact .inl (Int.lt_of_lt_of_le hlt hle)
    · by_cases hkeep : e.win.d x + 1 - e.windowSize ≤ e.win.d sn
      · refine .inr ⟨sn, ?_, by rw [hindex sn hkeep, hj], ?_⟩
        · rw [hw₂]
          exact hsn
        · rw [hl₂, groupOf_filter (f := fun sn => decide (e.win.d x + 1 - e.windowSize ≤ e.win.d sn)),
            if_pos (decide_eq_true hkeep)]
          exact hdel
      · -- its segments have left the window, and `rx_next_reassembly` is in it
        have hjx : (j : Int) = n - e.windowSize + e.win.d sn := hj
        have := hlow r
        exact .inl (by omega)
  have hnext : e.windowSize ≤ e₂.win.d e.rxNextReassembly ↔
      e.win.d e.rxNextReassembly < e.win.d x + 1 - e.windowSize := by
    rw [hw₂]
    exact hw.sized.size_le_d_moveTo hw.above (Int.le_trans hreas hw.above)
  have hindexR : e.win.index n e.rxNextReassembly = n - e.windowSize + e.win.d e.rxNextReassembly := rfl
  rcases hr with ⟨hout, sn, rfl, -⟩ | ⟨hin, rfl⟩
  · have hlt := hnext.mp hout
    have := hlow sn
    exact ⟨⟨hhigh, hgroups, hdone sn (by omega)⟩, hr₂.2⟩
  · have hge : e.win.d x + 1 - e.windowSize ≤ e.win.d e.rxNextReassembly := by
      by_contra hlt
      have := hnext.mpr (by omega)
      omega
    refine ⟨⟨hhigh, hgroups, ?_⟩, hr₂.2⟩
    rw [hr₂.1]
    exact hdone _ (Int.le_of_eq (hindex _ hge).symm)

theorem stopTReassembly :
    Holds segmented n done e.stopTReassembly ∧ e.stopTReassembly.calls = e.calls := by
  rw [Um.stopTReassembly]
  split
  · exact ⟨h.of_eq rfl rfl rfl, rfl⟩
  · exact ⟨h, rfl⟩

theorem startTReassembly :
    Holds segmented n done e.startTReassembly ∧ e.startTReassembly.calls = e.calls := by
  rw [Um.startTReassembly]
  split
  · exact ⟨h.of_eq rfl rfl rfl, rfl⟩
  · exact ⟨h, rfl⟩

theorem restartTReassembly :
    Holds segmented n done e.restartTReassembly ∧ e.restartTReassembly.calls = e.calls := by
  rw [Um.restartTReassembly]
  split
  · exact ⟨h.of_eq rfl rfl rfl, rfl⟩
  · exact ⟨h, rfl⟩

theorem setTime {now : Nat} (hw : e.RxWf) (hr : e.setTime fuel now = .ok e') :
    Holds segmented n done e' ∧ e'.calls = e.calls := by
  rcases checkTReassembly_ok hr with ⟨-, rfl⟩ | ⟨hexp, sn, e₁, hsn, he₁, rfl⟩
  · exact ⟨h.of_eq rfl rfl rfl, rfl⟩
  · obtain ⟨hrt, htw⟩ := hw.timer hexp.1
    have hspec := skipDelivered_spec (e := { e with tCurrent := u64 now }) hw.sized hw.inWindow hw.trigger htw hsn
    have hle : e.win.d e.rxTimerTrigger ≤ e.win.d sn := hspec.2.1
    have hl₁ : e₁.rxList = e.rxList := by rw [he₁]
    have hw₁ : e₁.win = e.win := by rw [he₁]; rfl
    have hr₁ : e₁.rxNextReassembly = sn := by rw [he₁]
    have hc₁ : e₁.calls = e.calls := by rw [he₁]
    have hord : Ordered e₁.win e₁.rxList := by
      rw [hw₁, hl₁]
      exact hw.ordered
    have hdrop := (passed_filter hord).2
    rw [hw₁, hr₁, hl₁] at hdrop
    have hh₁ : Holds segmented n done (e₁.dropExpired (e₁.rxList.takeWhile (e₁.Passed ·.sn))
        (e₁.rxList.dropWhile (e₁.Passed ·.sn))) := by
      rw [hl₁, hdrop]
      have hset := h.setReassembly (y := sn) (Int.le_trans (Int.le_of_lt hrt) hle)
      refine ⟨?_, ?_, fun j hj => ?_⟩
      · rw [he₁]
        exact h.highest
      · have hg : Groups e.win n segmented (e.rxList.filter (e.win.d sn ≤ e.win.d ·.sn)) :=
          h.groups.filter (f := fun a => decide (e.win.d sn ≤ e.win.d a)) (fun _ ha => ha) fun _ _ => rfl
        rw [he₁]
        exact hg
      · have hd : Done e.win n sn (e.rxList.filter (e.win.d sn ≤ e.win.d ·.sn)) j := by
          rcases hset.done j hj with hlt | ⟨a, ha, hj, hdel⟩
          · exact .inl hlt
          · by_cases hkeep : e.win.d sn ≤ e.win.d a
            · refine .inr ⟨a, ha, hj, ?_⟩
              rw [groupOf_filter (f := fun a => decide (e.win.d sn ≤ e.win.d a)), if_pos (decide_eq_true hkeep)]
              exact hdel
            · refine .inl ?_
              have hj : (j : Int) = e.win.index n a := hj
              rw [hj, Window.index, Window.index]
              omega
        rw [he₁]
        exact hd
    obtain ⟨hh, hcalls⟩ := hh₁.restartTReassembly
    exact ⟨hh, hcalls.trans hc₁⟩

theorem not_mem_of_full {sdu : List UInt8} (hw : e.InWindow)
    (hp : e.win.InRange p.sn) (hi : (i : Int) = e.win.index n p.sn) (hsdu : segmented[i]? = some sdu)
    (hpart : PartOf sdu p) (hd : p.data ≠ none) (hle : e.win.d e.rxNextReassembly ≤ e.win.d p.sn)
    (hfull : (e.storePdu p).sduFull p.sn = true) : i ∉ done := by
  intro hmem
  have hord : Ordered (e.storePdu p).win (e.storePdu p).rxList := ordered_pduListAdd hw.ordered hw.sized hp
  obtain ⟨-, hpr, -⟩ := groups_pduListAdd h.groups hw.ordered hp hi hsdu hpart hd
  have hnot := ((sduFull_iff hord hw.sized hp).mp hfull).1
  rw [Window.index] at hi
  rcases h.done i hmem with hlt | ⟨sn, hsn, hj, hdel⟩
  · rw [Window.index] at hlt
    omega
  · rw [Window.index] at hj
    have heq : sn = p.sn := hw.sized.inj hsn hp (by omega)
    rw [heq, ← hpr p.sn] at hdel
    exact absurd (hdel.symm.trans hnot) (by decide)

/-- A segment of the SDU with the number `i` is received while `i` is near `n`. The window then ends at
`i + 1` at least, unless there was no room. -/
theorem recvSegment {sdu data : List UInt8} {so : Int} {isFirst isLast : Bool} {size : Nat} (hw : e.RxWf)
    (h0 : n - e.windowSize ≤ i) (h1 : (i : Int) < n + e.windowSize)
    (hsdu : segmented[i]? = some sdu) (hmax : sdu.length ≤ 16000) (hdata : data ≠ [])
    (hpart : PartOf sdu (nrRlcNewPdu (i % e.snModulus) so isFirst isLast data))
    (hseg : (isFirst && isLast) = false) (hso : isFirst = false → so ≠ 0)
    (hr : e.recvSegment fuel (i % e.snModulus) so isFirst isLast data size = .ok e') {n' : Int}
    (hn : n' = if e.rxSize + data.length ≤ e.rxMaxsize then max n (i + 1) else n) :
    (Holds segmented n' done e' ∧ e'.calls = e.calls) ∨
      (i ∉ done ∧ Holds segmented n' (done ++ [i]) e' ∧ e'.calls = e.calls ++ [.deliverSdu sdu]) := by
  have hindex : e.win.index n (i % e.snModulus) = i := hw.sized.index_emod h.highest h0 h1
  have hd : (i : Int) = n - e.windowSize + e.win.d (i % e.snModulus) := hindex.symm
  have hx : e.win.InRange (i % e.snModulus) := hw.sized.inRange_emod i
  have hfirst : ¬(¬isFirst ∧ so = 0) := fun hf => hso (Bool.eq_false_of_not_eq_true hf.1) hf.2
  have hne : data.length ≠ 0 := fun h0 => hdata (length_eq_zero_iff.mp h0)
  by_cases ha : e.AcceptsSegment (i % e.snModulus) so isFirst data
  · rw [recvSegment_of_accepts ha] at hr
    have hroom := ha.room
    rw [if_pos (by omega)] at hn
    have hpassed : e.win.d e.rxNextReassembly ≤ e.win.d (i % e.snModulus) := by
      have := ha.notPassed
      rw [snCompareRx_eq] at this
      omega
    have hstored := h.storePdu (p := nrRlcNewPdu (i % e.snModulus) so isFirst isLast data) hw.ordered hx
      hindex.symm hsdu hpart nofun
    have hlast : so ≤ 0 → isLast = false := by
      intro hle
      have h0 : 0 ≤ so := hpart.so_nonneg
      cases isFirst with
      | true => exact hseg
      | false => exact absurd (Int.le_antisymm hle h0) (hso rfl)
    obtain ⟨e₁, rfl, hcase⟩ := receptionActions_cases hw.toInWindow hx rfl hlast hr
    have hstep : (Holds segmented n' done e₁ ∧ e₁.calls = e.calls) ∨
        (i ∉ done ∧ Holds segmented n' (done ++ [i]) e₁ ∧ e₁.calls = e.calls ++ [.deliverSdu sdu]) := by
      rcases hcase with ⟨hin, hfull, hr⟩ | ⟨habove, hr⟩ | ⟨hin, rfl⟩
      · have hin : e.win.d (i % e.snModulus) < e.windowSize := hin
        have hgroup := (groups_pduListAdd (p := nrRlcNewPdu (i % e.snModulus) so isFirst isLast data) h.groups
          hw.ordered hx hindex.symm hsdu hpart nofun).2.2
        obtain ⟨hh, hcalls⟩ := hstored.deliverFull (hw.toInWindow.storePdu hx hin) hx hindex.symm hgroup hmax hfull hr
        rw [show n' = n by omega]
        exact .inr ⟨h.not_mem_of_full hw.toInWindow hx hindex.symm hsdu hpart nofun hpassed hfull, hh, hcalls⟩
      · have habove : e.windowSize ≤ e.win.d (i % e.snModulus) := habove
        obtain ⟨hh, hcalls⟩ := hstored.moveWindow (hw.toInWindow.storePdu_above hx habove) hw.reassembly_le
          hindex.symm rfl hr
        rw [show n' = i + 1 by omega]
        exact .inl ⟨hh, hcalls⟩
      · have hin : e.win.d (i % e.snModulus) < e.windowSize := hin
        rw [show n' = n by omega]
        exact .inl ⟨hstored, rfl⟩
    -- the timer changes nothing of this
    have htimer : ∀ {done'}, Holds segmented n' done' e₁ →
        Holds segmented n' done' e₁.stopTReassembly.startTReassembly ∧
          e₁.stopTReassembly.startTReassembly.calls = e₁.calls := by
      intro done' h₁
      obtain ⟨h₂, hc₂⟩ := h₁.stopTReassembly
      obtain ⟨h₃, hc₃⟩ := h₂.startTReassembly
      exact ⟨h₃, hc₃.trans hc₂⟩
    rcases hstep with ⟨hh, hc⟩ | ⟨hnot, hh, hc⟩
    · exact .inl ⟨(htimer hh).1, (htimer hh).2.trans hc⟩
    · exact .inr ⟨hnot, (htimer hh).1, (htimer hh).2.trans hc⟩
  · rw [recvSegment_of_not_accepts ha] at hr
    cases hr
    have hn' : n' = n := by
      split at hn
      · have hpassed : e.snCompareRx (i % e.snModulus) e.rxNextReassembly < 0 := by
          by_contra hp
          exact ha ⟨hfirst, hne, by omega, hp⟩
        have hle := hw.reassembly_le
        rw [snCompareRx_eq] at hpassed
        omega
      · exact hn
    rw [hn']
    exact .inl ⟨h.of_eq rfl rfl rfl, rfl⟩

end Holds

end Um

end OaiNr.Rlc
