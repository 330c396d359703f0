import Mathlib.Algebra.BigOperators.Group.List.Lemmas
import Mathlib.Algebra.Order.BigOperators.Group.List
import OaiNr.Rlc.Lemmas.UmWindow

/-!
# Buffer accounting of a UM entity
-/

namespace OaiNr.Rlc.Um

open List

variable {e e' : Um} {fuel : Nat} {x : Int} {p : Pdu} {buffer : List UInt8} {sduId : Int} {op : Op} {c : UmConfig}

def rxSurplus (e : Um) : Int := e.rxSize - (e.rxList.map Pdu.size).sum

def txSurplus (e : Um) : Int := e.txSize - (e.txList.map UmSegment.size).sum

def bstatusSurplus (e : Um) : Int :=
  e.bstatusTxSize - (e.txList.map fun x => e.computePduHeaderSize x + x.size).sum

structure Accounted (e : Um) : Prop where
  rx : e.rxSize = (e.rxList.map Pdu.size).sum
  tx : e.txSize = (e.txList.map UmSegment.size).sum
  bstatus : e.bstatusTxSize = (e.txList.map fun x => e.computePduHeaderSize x + x.size).sum

/-- The segment stays at the expiry of t-Reassembly: an SDU from `rx_timer_trigger` up to its own was not
delivered. -/
def StaysAtExpiry (e : Um) (p : Pdu) : Prop :=
  ∃ sn, (0 ≤ sn ∧ sn < e.snModulus) ∧ 0 ≤ e.snCompareRx sn e.rxTimerTrigger ∧
    0 ≤ e.snCompareRx p.sn sn ∧ e.sduDelivered sn = false

def Counted (e : Um) : Op → Prop
  | .generatePdu buffer => ¬e.Starved buffer.length
  | .discardSdu sduId => ∀ x ∈ e.txList.find? (·.upperLayerId = sduId),
      x.isFirst = true → x.isLast = true → x.size = 0
  | .setTime now => ({ e with tCurrent := u64 now } : Um).TReassemblyExpired →
      ∀ p ∈ e.rxList, p.size ≠ 0 → e.StaysAtExpiry p
  | _ => True

theorem accounted_iff : Accounted e ↔ e.rxSurplus = 0 ∧ e.txSurplus = 0 ∧ e.bstatusSurplus = 0 := by
  simp only [rxSurplus, txSurplus, bstatusSurplus, Int.sub_eq_zero]
  exact ⟨fun h => ⟨h.rx, h.tx, h.bstatus⟩, fun h => ⟨h.1, h.2.1, h.2.2⟩⟩

/-! ## Reception -/

theorem sum_takeWhile_dropWhile (f : Pdu → Bool) (l : List Pdu) :
    ((l.takeWhile f).map Pdu.size).sum + ((l.dropWhile f).map Pdu.size).sum = (l.map Pdu.size).sum := by
  rw [← sum_append, ← map_append, takeWhile_append_dropWhile]

theorem rxSurplus_storePdu (e : Um) (p : Pdu) : (e.storePdu p).rxSurplus = e.rxSurplus := by
  have hsum := ((pduListAdd_perm e p e.rxList).map Pdu.size).sum_eq
  rw [map_cons, sum_cons] at hsum
  show e.rxSize + p.size - ((e.pduListAdd p e.rxList).map Pdu.size).sum = _
  rw [hsum, rxSurplus]
  omega

theorem sum_replaceSegments (x : Int) (l : List Pdu) :
    ((replaceSegments x (fun p => { p with data := none, size := 0 }) l).map Pdu.size).sum =
      (l.map Pdu.size).sum - ((segmentsOf x l).map Pdu.size).sum := by
  have h1 := sum_takeWhile_dropWhile (·.sn ≠ x) l
  have h2 := sum_takeWhile_dropWhile (·.sn = x) (l.dropWhile (·.sn ≠ x))
  have hzero : (((segmentsOf x l).map fun p => { p with data := none, size := 0 }).map Pdu.size).sum = 0 := by
    simp [map_map, Function.comp_def]
  rw [replaceSegments, map_append, sum_append, map_append, sum_append, hzero, segmentsOf]
  omega

theorem rxSurplus_reassembleAndDeliver (hr : e.reassembleAndDeliver x = .ok e') : e'.rxSurplus = e.rxSurplus := by
  have hsum := sum_replaceSegments x e.rxList
  have hfields : e'.rxSize = e.rxSize - ((segmentsOf x e.rxList).map Pdu.size).sum ∧
      e'.rxList = replaceSegments x (fun p => { p with data := none, size := 0 }) e.rxList := by
    simp only [reassembleAndDeliver] at hr
    split at hr <;> cases hr <;> exact ⟨rfl, rfl⟩
  rw [rxSurplus, rxSurplus, hfields.1, hfields.2, hsum]
  omega

theorem rxSurplus_deliverFull (hr : e.deliverFull fuel x = .ok e') : e'.rxSurplus = e.rxSurplus := by
  obtain ⟨e₁, h₁, hr⟩ := bind_eq_ok.mp hr
  have h₁ := rxSurplus_reassembleAndDeliver h₁
  split at hr
  · obtain ⟨sn, -, hr⟩ := bind_eq_ok.mp hr
    cases hr
    exact h₁
  · cases hr
    exact h₁

theorem rxSurplus_moveWindow (hz : e.win.Sized) (hr : e.moveWindow fuel x = .ok e') : e'.rxSurplus = e.rxSurplus := by
  have h₂ : (e.moved x).rxSurplus = e.rxSurplus := by
    have hsum := sum_takeWhile_dropWhile
      (({ e with rxNextHighest := (x + 1) % e.snModulus } : Um).OutsideWindow ·.sn) e.rxList
    simp only [rxSurplus, moved, dropOutside]
    omega
  rcases moveWindow_ok hz hr with ⟨-, sn, rfl, -⟩ | ⟨-, rfl⟩
  · exact h₂
  · exact h₂

theorem rxSurplus_stopTReassembly (e : Um) : e.stopTReassembly.rxSurplus = e.rxSurplus := by
  rw [stopTReassembly]
  split <;> rfl

theorem rxSurplus_startTReassembly (e : Um) : e.startTReassembly.rxSurplus = e.rxSurplus := by
  rw [startTReassembly]
  split <;> rfl

theorem rxSurplus_recvPdu (hz : e.win.Sized) (hr : e.recvPdu fuel buffer = .ok e') : e'.rxSurplus = e.rxSurplus := by
  rcases recvPdu_cases hr with rfl | rfl | ⟨sn, so, isFirst, isLast, data, -, -, -, -, hr⟩
  · rfl
  · rfl
  · by_cases ha : (e.countRxPdu buffer.length).AcceptsSegment sn so isFirst data
    · rw [recvSegment_of_accepts ha] at hr
      obtain ⟨e₁, he', hcase⟩ := receptionActions_ok hr
      have hz' : ((e.countRxPdu buffer.length).storePdu (nrRlcNewPdu sn so isFirst isLast data)).win.Sized := hz
      have hstore : ((e.countRxPdu buffer.length).storePdu (nrRlcNewPdu sn so isFirst isLast data)).rxSurplus =
        e.rxSurplus := rxSurplus_storePdu (e.countRxPdu buffer.length) _
      rw [he', rxSurplus_startTReassembly, rxSurplus_stopTReassembly]
      rcases hcase with ⟨-, hr⟩ | ⟨-, -, hr⟩ | ⟨-, -, hr⟩
      · exact (rxSurplus_deliverFull hr).trans hstore
      · exact (rxSurplus_moveWindow hz' hr).trans hstore
      · rw [hr]
        exact hstore
    · rw [recvSegment_of_not_accepts ha] at hr
      cases hr
      rfl

/-! ## Time -/

def SizesNonneg (e : Um) : Prop := ∀ p ∈ e.rxList, 0 ≤ p.size

theorem Reaches.sizesNonneg {ok : Um → Op → Prop} (h : Reaches ok c e) : e.SizesNonneg :=
  h.forall_rxList (fun _ => Int.le_refl 0) fun _ _ _ _ _ => Int.natCast_nonneg _

theorem restartTReassembly_rxSurplus (e : Um) : e.restartTReassembly.rxSurplus = e.rxSurplus := by
  rw [restartTReassembly]
  split <;> rfl

theorem staysAtExpiry_iff (h : e.RxWf) (hrun : e.tReassemblyStart ≠ 0) {sn : Int}
    (hsn : e.skipDelivered fuel e.rxTimerTrigger = .ok sn) (p : Pdu) :
    e.StaysAtExpiry p ↔ e.win.d sn ≤ e.win.d p.sn := by
  obtain ⟨-, htw⟩ := h.timer hrun
  obtain ⟨ha, hle, -, hnot, hall⟩ := skipDelivered_spec h.sized h.inWindow h.trigger htw hsn
  simp only [StaysAtExpiry, snCompareRx_eq]
  constructor
  · rintro ⟨b, hb, htb, hbp, hdel⟩
    refine Int.le_of_not_gt fun hlt => ?_
    have := hall b hb (by omega) (by omega)
    rw [hdel] at this
    cases this
  · intro hge
    exact ⟨sn, ha, by omega, by omega, hnot⟩

theorem sum_eq_zero_iff {l : List Pdu} (h : ∀ p ∈ l, 0 ≤ p.size) : (l.map Pdu.size).sum = 0 ↔ ∀ p ∈ l, p.size = 0 := by
  induction l with
  | nil => simp
  | cons p l ih =>
    have hp := h p mem_cons_self
    have hl : ∀ q ∈ l, 0 ≤ q.size := fun q hq => h q (mem_cons_of_mem _ hq)
    have hsum : 0 ≤ (l.map Pdu.size).sum := sum_nonneg (by simpa using hl)
    rw [map_cons, sum_cons, forall_mem_cons, ← ih hl]
    omega

theorem rxSurplus_setTime {now : Nat} (h : e.RxWf) (hs : e.SizesNonneg) (hr : e.setTime fuel now = .ok e') :
    e'.rxSurplus = e.rxSurplus ↔ e.Counted (.setTime now) := by
  rcases checkTReassembly_ok hr with ⟨hexp, rfl⟩ | ⟨hexp, sn, e₁, hsn, he₁, he'⟩
  · exact ⟨fun _ hexp' => absurd hexp' hexp, fun _ => rfl⟩
  · have hl₁ : e₁.rxList = e.rxList := by rw [he₁]
    have hw₁ : e₁.win = e.win := by rw [he₁]; rfl
    have hr₁ : e₁.rxNextReassembly = sn := by rw [he₁]
    have hord : Ordered e₁.win e₁.rxList := by
      rw [hw₁, hl₁]
      exact h.ordered
    obtain ⟨htake, hdrop⟩ := passed_filter hord
    have hsum := sum_takeWhile_dropWhile (e₁.Passed ·.sn) e₁.rxList
    rw [hl₁] at hsum htake hdrop
    have hsur : e'.rxSurplus = e.rxSurplus + ((e.rxList.takeWhile (e₁.Passed ·.sn)).map Pdu.size).sum := by
      have hsize : e₁.rxSize = e.rxSize := by rw [he₁]
      rw [he', restartTReassembly_rxSurplus, rxSurplus, rxSurplus]
      show e₁.rxSize - ((e₁.rxList.dropWhile (e₁.Passed ·.sn)).map Pdu.size).sum = _
      rw [hsize, hl₁]
      omega
    have hstay : ∀ p, e.StaysAtExpiry p ↔ e.win.d sn ≤ e.win.d p.sn := staysAtExpiry_iff h hexp.1 hsn
    rw [hsur, show ∀ a b : Int, a + b = a ↔ b = 0 by omega,
      sum_eq_zero_iff fun p hp => hs p ((takeWhile_sublist _).subset hp), htake, hr₁, hw₁]
    constructor
    · intro hzero _ p hp hne
      rw [hstay p]
      refine Int.le_of_not_gt fun hlt => hne (hzero p (mem_filter.mpr ⟨hp, ?_⟩))
      exact decide_eq_true hlt
    · intro hcounted p hp
      obtain ⟨hp, hlt⟩ := mem_filter.mp hp
      by_contra hne
      have := (hstay p).mp (hcounted hexp p hp hne)
      have := of_decide_eq_true hlt
      omega

/-! ## Transmission -/

theorem txSurplus_of_outsideRx (h : e'.outsideRx = e.outsideRx) :
    e'.txSurplus = e.txSurplus ∧ e'.bstatusSurplus = e.bstatusSurplus := by
  have htx : e'.outsideRx.txSurplus = e.outsideRx.txSurplus := by rw [h]
  have hb : e'.outsideRx.bstatusSurplus = e.outsideRx.bstatusSurplus := by rw [h]
  exact ⟨htx, hb⟩

theorem rxSurplus_of_outsideTx (h : e'.outsideTx = e.outsideTx) : e'.rxSurplus = e.rxSurplus := by
  have hrx : e'.outsideTx.rxSurplus = e.outsideTx.rxSurplus := by rw [h]
  exact hrx

theorem txSurplus_recvSdu (h : e.recvSdu buffer sduId = .ok e') :
    e'.txSurplus = e.txSurplus ∧ e'.bstatusSurplus = e.bstatusSurplus := by
  obtain ⟨-, l, s, st, ⟨-, rfl⟩ | ⟨-, rfl⟩⟩ := recvSdu_cases h
  · exact ⟨rfl, rfl⟩
  · constructor
    · simp only [txSurplus, acceptSdu, newSdu, map_append, sum_append, map_cons, map_nil,
        sum_cons, sum_nil, Nat.cast_add]
      omega
    · simp only [bstatusSurplus, acceptSdu, newSdu, map_append, sum_append, map_cons,
        map_nil, sum_cons, sum_nil, Nat.cast_add, computePduHeaderSize]
      omega

theorem txSurplus_takeHead {y : UmSegment} {rest : List UmSegment} (hl : e.txList = y :: rest) :
    (e.takeHead y rest).txSurplus = e.txSurplus + y.size ∧ (e.takeHead y rest).bstatusSurplus = e.bstatusSurplus := by
  constructor
  · simp only [txSurplus, takeHead, hl, map_cons, sum_cons, Nat.cast_add]
    omega
  · simp only [bstatusSurplus, takeHead, hl, map_cons, sum_cons, Nat.cast_add, computePduHeaderSize]
    omega

theorem txSurplus_putBack (e : Um) (next : UmSegment) : (e.putBack next).txSurplus = e.txSurplus - next.size ∧
      (e.putBack next).bstatusSurplus = e.bstatusSurplus := by
  constructor
  · simp only [txSurplus, putBack, map_cons, sum_cons, Nat.cast_add]
    omega
  · simp only [bstatusSurplus, putBack, map_cons, sum_cons, Nat.cast_add, computePduHeaderSize]
    omega

theorem txSurplus_segmentSent (e : Um) (y : UmSegment) (grant : Nat) :
    (e.segmentSent y grant).txSurplus = e.txSurplus - y.size ∧
      (e.segmentSent y grant).bstatusSurplus = e.bstatusSurplus := by
  constructor
  · simp only [txSurplus, segmentSent]
    omega
  · rfl

theorem txSurplus_generatePdu {r : Um × List UInt8 × Nat} (h : e.TxWf) (hr : e.generatePdu buffer = .ok r) :
    (r.1.txSurplus = e.txSurplus ↔ e.Counted (.generatePdu buffer)) ∧ r.1.bstatusSurplus = e.bstatusSurplus := by
  rcases generatePdu_spec h buffer with ⟨hn, -, hs⟩ | ⟨y, rest, hl, hst, hs⟩ |
      ⟨y, rest, out, hl, hn, -, hs⟩ | ⟨y, rest, y', next, out, hl, hn, -, hc, -, hs⟩ <;> rw [hs] at hr <;> cases hr
  · exact ⟨⟨fun _ => hn, fun _ => rfl⟩, rfl⟩
  · obtain ⟨htx, hb⟩ := txSurplus_takeHead hl
    refine ⟨⟨fun heq => ?_, fun hn => absurd hst hn⟩, hb⟩
    have heq : (e.takeHead y rest).txSurplus = e.txSurplus := heq
    obtain ⟨z, hz, -, -, hsize, -⟩ := hst
    rw [hl] at hz
    cases hz
    omega
  · obtain ⟨htx, hb⟩ := txSurplus_takeHead hl
    obtain ⟨htx', hb'⟩ := txSurplus_segmentSent (e.takeHead y rest) y buffer.length
    exact ⟨⟨fun _ => hn, fun _ => by simp only; omega⟩, hb'.trans hb⟩
  · have hsize : next.size = y.size - y'.size := by rw [hc.next]
    have hlt := hc.lt
    obtain ⟨htx, hb⟩ := txSurplus_takeHead hl
    obtain ⟨htx', hb'⟩ := txSurplus_putBack (e.takeHead y rest) next
    obtain ⟨htx'', hb''⟩ := txSurplus_segmentSent ((e.takeHead y rest).putBack next) y' buffer.length
    exact ⟨⟨fun _ => hn, fun _ => by simp only; omega⟩, hb''.trans (hb'.trans hb)⟩

theorem find?_append_cons {before : List UmSegment} {cur : UmSegment} (rest : List UmSegment)
    (hcur : cur.upperLayerId = sduId) (hbefore : ∀ y ∈ before, y.upperLayerId ≠ sduId) :
    (before ++ cur :: rest).find? (·.upperLayerId = sduId) = some cur := by
  rw [List.find?_append, List.find?_eq_none.mpr (by simpa using hbefore), Option.none_or,
    List.find?_cons_of_pos (by simpa using hcur)]

theorem txSurplus_discardSdu (e : Um) (sduId : Int) :
    ((e.discardSdu sduId).txSurplus = e.txSurplus ↔ e.Counted (.discardSdu sduId)) ∧
      (e.discardSdu sduId).bstatusSurplus = e.bstatusSurplus := by
  rcases discardSdu_cases e sduId with ⟨hd, hnone⟩ | ⟨before, cur, rest, hl, hid, hf, hlast, hbefore, hd⟩
  · rw [hd]
    refine ⟨⟨fun _ x hx hf hlast => absurd ⟨hf, hlast⟩ (hnone x hx), fun _ => rfl⟩, rfl⟩
  · rw [hd]
    constructor
    · have hfind := find?_append_cons rest hid hbefore
      simp only [Counted, hl, hfind, Option.mem_some_iff, forall_eq', hf, hlast, true_implies]
      simp only [txSurplus, removeSdu, hl, map_append, map_cons, sum_append, sum_cons, Nat.cast_add]
      omega
    · simp only [bstatusSurplus, removeSdu, hl, map_append, map_cons, sum_append, sum_cons,
        Nat.cast_add, computePduHeaderSize]
      omega

/-! ## Whole runs -/

theorem accounted_exec (h : Accounted e) (hrx : e.RxWf) (htx : e.TxWf) (hs : e.SizesNonneg)
    (hr : e.exec fuel op = .ok e') : Accounted e' ↔ e.Counted op := by
  obtain ⟨h0, h1, h2⟩ := accounted_iff.mp h
  rw [accounted_iff]
  cases op with
  | recvSdu buffer sduId =>
    have hsur := rxSurplus_of_outsideTx (recvSdu_outside hr)
    obtain ⟨htx', hb⟩ := txSurplus_recvSdu hr
    refine ⟨fun _ => trivial, fun _ => ?_⟩
    rw [hsur, htx', hb]
    exact ⟨h0, h1, h2⟩
  | recvPdu buffer =>
    obtain ⟨htx', hb⟩ := txSurplus_of_outsideRx (recvPdu_outside hr)
    refine ⟨fun _ => trivial, fun _ => ?_⟩
    rw [rxSurplus_recvPdu hrx.sized hr, htx', hb]
    exact ⟨h0, h1, h2⟩
  | generatePdu buffer =>
    obtain ⟨r, hg, rfl⟩ := map_eq_ok.mp hr
    have hsur := rxSurplus_of_outsideTx (generatePdu_outside hg)
    obtain ⟨htx', hb⟩ := txSurplus_generatePdu htx hg
    rw [← htx', hsur, hb, h0, h1, h2]
    simp
  | setTime now =>
    obtain ⟨htx', hb⟩ := txSurplus_of_outsideRx (setTime_outside hr)
    rw [← rxSurplus_setTime hrx hs hr, htx', hb, h0, h1, h2]
    simp
  | discardSdu sduId =>
    cases hr
    have hsur := rxSurplus_of_outsideTx (discardSdu_outside e sduId)
    obtain ⟨htx', hb⟩ := txSurplus_discardSdu e sduId
    rw [← htx', hsur, hb, h0, h1, h2]
    simp
  | reestablishment =>
    cases hr
    exact ⟨fun _ => trivial, fun _ => ⟨rfl, rfl, rfl⟩⟩

theorem Reaches.accounted (h : Reaches Counted c e) : Accounted e := by
  induction h with
  | new => exact ⟨rfl, rfl, rfl⟩
  | step h hok hr ih =>
    obtain ⟨fuel, hr⟩ := hr
    exact (accounted_exec ih h.rxWf h.txWf h.sizesNonneg hr).mpr hok

/-- If every operation is counted, the sizes are the sums over the lists in every state. From such a state
an operation keeps them so exactly if it is counted. -/
theorem sizes_accounted (c : UmConfig) : (∀ e, Reaches Counted c e → Accounted e) ∧
      ∀ e op e', Reaches Counted c e → e.Returns op e' → (Accounted e' ↔ e.Counted op) := by
  refine ⟨fun e h => h.accounted, fun e op e' h ⟨fuel, hr⟩ => ?_⟩
  exact accounted_exec h.accounted h.rxWf h.txWf h.sizesNonneg hr

def um6 : UmConfig :=
  { rxMaxsize := 100000, txMaxsize := 100000, tReassembly := 35, snFieldLength := 6, snValid := .inl rfl }

/-- A last segment is stored and a part of an SDU is sent. -/
theorem sizes_accounted_segments :
    ∃ e, Reaches Counted um6 e ∧ (e.rxSize = 1 ∧ e.txSize = 1 ∧ e.bstatusTxSize = 4) ∧ Accounted e := by
  have r₁ : Reaches Counted um6 _ := @Reaches.step _ _ _ _ (.setTime 1) .new (fun h => absurd h (by decide)) ⟨1, rfl⟩
  have r₂ : Reaches Counted um6 _ := @Reaches.step _ _ _ _ (.recvPdu [0x80, 0, 5, 7]) r₁ trivial ⟨1, rfl⟩
  have r₃ : Reaches Counted um6 _ := @Reaches.step _ _ _ _ (.recvSdu [1, 2, 3, 4] 0) r₂ trivial ⟨1, rfl⟩
  have r₄ : Reaches Counted um6 _ := @Reaches.step _ _ _ _ (.generatePdu [0, 0, 0, 0]) r₃
    (fun ⟨_, _, _, _, _, h⟩ => absurd h (by decide)) ⟨1, rfl⟩
  exact ⟨_, r₄, ⟨rfl, rfl, rfl⟩, (sizes_accounted um6).1 _ r₄⟩

/-- A last segment waits for the rest of its SDU until t-Reassembly expires, and an SDU is discarded: the
lists are empty, and the sizes are not 0. -/
theorem dropped_bytes_counted :
    ∃ e, (newNrRlcEntityUm um6).execAll 1 [.setTime 1, .recvPdu [0x80, 0, 5, 7], .setTime 100,
        .recvSdu [1, 2, 3] 0, .discardSdu 0] = .ok e ∧ e.rxList = [] ∧ e.rxSize = 1 ∧ e.txList = [] ∧ e.txSize = 3 :=
  ⟨_, rfl, rfl, rfl, rfl, rfl⟩

end OaiNr.Rlc.Um
