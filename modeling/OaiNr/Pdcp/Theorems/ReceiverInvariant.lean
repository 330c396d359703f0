import OaiNr.Pdcp.Lemmas.RoundTrip

/-!
# The receiver in every run
-/

namespace OaiNr.Pdcp.Entity

def Clocked (cr : Crypto) (e : Entity) : Op → Prop
  | .recvPdu buffer =>
    0 < e.tCurrent ∧ (e.Accepts cr buffer → e.pduCount buffer + 1 < 4294967296)
  | .setTime now => 0 < now % 2 ^ 64
  | _ => True

variable {cr : Crypto} {c : EntityConfig} {e e' : Entity} {p : KeysAndAlgos} {op : Op} {buffer : List UInt8}

theorem rxInv_of_nil (hl : e.rxList = []) (ht : e.tReorderingStart = 0) (hn : e.rxNext = 0)
    (hd : e.rxDeliv = 0) : RxInv e := by
  refine ⟨⟨⟨?_, ?_, ?_, by omega, by omega⟩, fun h => absurd ht h⟩, fun h => absurd hl h⟩ <;> rw [hl]
  · exact List.Pairwise.nil
  · simp
  · simp

theorem RxInv.recvPdu (h : RxInv e) (ht : 0 < e.tCurrent)
    (hw : e.Accepts cr buffer → e.pduCount buffer + 1 < 4294967296) : RxInv (e.recvPdu cr buffer) := by
  by_cases ha : e.Accepts cr buffer
  · obtain ⟨⟨h1, h2⟩, -⟩ := h.toTimed.recvPdu ha (hw ha)
    exact ⟨h1, h2 (Nat.ne_of_gt ht)⟩
  · obtain ⟨st, hst⟩ := recvPdu_of_not_accepts ha
    rw [hst]
    exact h.of_rxState rfl

theorem RxInv.setTime {now : Nat} (h : RxInv e) (ht : 0 < now % 2 ^ 64) : RxInv (e.setTime now) := by
  have h' : Timed { e with tCurrent := now % 2 ^ 64 } := h.toTimed.of_rxState rfl
  obtain ⟨⟨h1, h2⟩, -⟩ := h'.checkTReordering
  exact ⟨h1, h2 (Nat.ne_of_gt ht) h.running⟩

theorem RxInv.rxList_suspend (h : RxInv e) : e.suspend.rxList = [] := by
  simp only [suspend]
  split
  · rfl
  · rename_i hz
    by_contra hne
    exact hz (h.running hne)

theorem tReorderingStart_suspend (e : Entity) : e.suspend.tReorderingStart = 0 := by
  simp only [suspend]
  split
  · rfl
  · rename_i hz
    exact not_not.mp hz

theorem RxInv.rxList_reestablish (h : RxInv e) (ht : e.type ≠ .drbAm)
    (hr : e.reestablish p = some e') : e'.rxList = [] := by
  rw [reestablish] at hr
  split at hr
  · exact absurd ‹_› ht
  · obtain ⟨i, k, rfl⟩ := resume_cases hr
    simp only
    split
    · rfl
    · rename_i hz
      by_contra hne
      exact hz (h.running hne)
  · obtain ⟨i, k, rfl⟩ := resume_cases hr
    rfl

theorem RxInv.reestablish (h : RxInv e) (hr : e.reestablish p = some e') : RxInv e' := by
  by_cases ht : e.type = .drbAm
  · simp only [Entity.reestablish, ht] at hr
    obtain ⟨i, k, rfl⟩ := resume_cases hr
    exact h.of_rxState rfl
  · have hnil := h.rxList_reestablish ht hr
    rw [Entity.reestablish] at hr
    split at hr
    · exact absurd ‹_› ht
    · obtain ⟨i, k, rfl⟩ := resume_cases hr
      exact rxInv_of_nil hnil rfl rfl rfl
    · obtain ⟨i, k, rfl⟩ := resume_cases hr
      exact rxInv_of_nil hnil rfl rfl rfl

theorem RxInv.exec (h : RxInv e) (hok : e.Clocked cr op) (hs : e.exec cr op = some e') : RxInv e' := by
  cases op with
  | processSdu buffer pduMaxSize =>
    obtain ⟨r, hr, rfl⟩ := Option.map_eq_some_iff.mp hs
    rcases processSdu_cases hr with ⟨-, rfl⟩ | ⟨st, rfl⟩
    · exact h
    · exact h.of_rxState rfl
  | recvPdu buffer =>
    cases hs
    exact h.recvPdu hok.1 hok.2
  | setTime now =>
    cases hs
    exact h.setTime hok
  | suspend =>
    cases hs
    exact rxInv_of_nil h.rxList_suspend (tReorderingStart_suspend e) rfl rfl
  | reestablish p => exact h.reestablish hs

theorem Reaches.rxInv (h : Reaches cr (Clocked cr) c e) : RxInv e := by
  induction h with
  | new h =>
    obtain ⟨i, k, rfl⟩ := setSecurity_cases h
    exact rxInv_of_nil rfl rfl rfl rfl
  | step _ hok hs ih => exact ih.exec hok hs

/-- In every run, the invariant of the receiver holds; suspension empties the list, and so does
re-establishment, but for an AM DRB, whose list is kept. -/
theorem rxInv_of_reaches (h : Reaches cr (Clocked cr) c e) :
    RxInv e ∧ (∀ e', e.exec cr .suspend = some e' → e'.rxList = []) ∧
      (∀ p e', e.type ≠ .drbAm → e.exec cr (.reestablish p) = some e' → e'.rxList = []) ∧
      ∀ p e', e.type = .drbAm → e.exec cr (.reestablish p) = some e' → e'.rxList = e.rxList := by
  refine ⟨h.rxInv, fun e' hs => ?_, fun p e' ht hr => h.rxInv.rxList_reestablish ht hr, fun p e' ht hr => ?_⟩
  · cases hs
    exact h.rxInv.rxList_suspend
  · simp only [exec, reestablish, ht] at hr
    obtain ⟨i, k, rfl⟩ := resume_cases hr
    rfl

theorem reaches_gap : ∃ e, Reaches .plain (Clocked .plain) (.plain .drbAm) e ∧ e.rxList.map PdcpSdu.count = [1] ∧
    (e.reestablish ⟨-1, -1, [], []⟩).map (fun e' => e'.rxList.map PdcpSdu.count) = some [1] := by
  have h : (newNrPdcpEntity (.plain .drbAm)).map (fun e => decide ((e.setTime 1).tCurrent = 1 ∧
      (e.setTime 1).pduCount [0x80, 0x01, 0xaa] = 1 ∧
      ((e.setTime 1).recvPdu .plain [0x80, 0x01, 0xaa]).rxList.map PdcpSdu.count = [1] ∧
      (((e.setTime 1).recvPdu .plain [0x80, 0x01, 0xaa]).reestablish ⟨-1, -1, [], []⟩).map
        (fun e' => e'.rxList.map PdcpSdu.count) = some [1])) = some true := by decide
  obtain ⟨e, he, h⟩ := Option.map_eq_some_iff.mp h
  obtain ⟨h1, h2, h3, h4⟩ := of_decide_eq_true h
  have hone : 0 < 1 % 2 ^ 64 := by decide
  have hclock : e.Clocked .plain (.setTime 1) := hone
  have harrive : (e.setTime 1).Clocked .plain (.recvPdu [0x80, 0x01, 0xaa]) :=
    ⟨by omega, fun _ => by omega⟩
  exact ⟨_, ((Reaches.new he).step hclock rfl).step harrive rfl, h3, h4⟩

/-- The invariant with an SDU in the list. -/
theorem rxInv_of_reaches_gap : ∃ e, Reaches .plain (Clocked .plain) (.plain .drbAm) e ∧
    e.rxList ≠ [] ∧ RxInv e ∧ ∀ e', e.exec .plain .suspend = some e' → e'.rxList = [] := by
  obtain ⟨e, he, hl, -⟩ := reaches_gap
  refine ⟨e, he, fun h => ?_, (rxInv_of_reaches he).1, (rxInv_of_reaches he).2.1⟩
  rw [h] at hl
  exact absurd hl (by decide)

/-! ## What the invariant does not cover -/

/-- Time runs, and the HFN of a received PDU does not fall below 0. -/
def NoUnderflow (e : Entity) : Op → Prop
  | .recvPdu buffer => 0 < e.tCurrent ∧ ∀ n, e.Infers (e.rcvdSn (e.forceDataBit buffer)) n → 0 ≤ n
  | .setTime now => 0 < now % 2 ^ 64
  | _ => True

/-- An AM DRB without security has delivered the SDUs with the COUNTs below `d`. -/
structure InOrderUpTo (d : Nat) (e : Entity) : Prop where
  reached : Reaches .plain NoUnderflow (.plain .drbAm) e
  setup : e.setup = ((.drbAm, false, 1, false, false, 12, 100, 4095, 2048), none, none, false)
  rxDeliv : e.rxDeliv = d
  rxNext : e.rxNext = d
  rxList : e.rxList = []
  stopped : e.tReorderingStart = 0
  tCurrent : e.tCurrent = 1

def pduOfCount (e : Entity) (n : Nat) : List UInt8 := e.txHeader (n % 4096) ++ [0xaa]

theorem InOrderUpTo.accepts {d n : Nat} (h : InOrderUpTo d e) (hge : d ≤ n) (hlt : n < d + 2048)
    (hmax : n < 4294967296) : e.Accepts .plain (e.pduOfCount n) ∧ e.pduCount (e.pduOfCount n) = n ∧
      e.NoUnderflow (.recvPdu (e.pduOfCount n)) := by
  have hset := h.setup
  simp only [Entity.setup, config, Prod.mk.injEq] at hset
  obtain ⟨⟨ht, -, -, hsdap, -, hsize, -, hsnMax, hwindow⟩, hc, hi, hactive⟩ := hset
  have hformed : e.Formed := ⟨.inl hsize, by rw [hsnMax, hsize]; rfl, by rw [hwindow, hsize]; rfl⟩
  have hsn : n % 4096 < 2 ^ e.snSize := by rw [hsize]; exact Nat.mod_lt _ (by decide)
  have hrcvd : e.rcvdSn (e.forceDataBit (e.pduOfCount n)) = n % 4096 := by
    rw [pduOfCount, forceDataBit_txHeader rfl, rcvdSn_txHeader (.inl hsize) rfl hsn]
  have hinfers : e.Infers (n % 4096) n := by
    refine ⟨by rw [hsize]; omega, ?_, ?_⟩ <;> rw [h.rxDeliv, hwindow] <;> omega
  have hcount : e.pduCount (e.pduOfCount n) = n := by
    have := hformed.rcvdCount_eq hsn hinfers
    rw [pduCount, hrcvd]
    omega
  refine ⟨⟨hactive, ?_, ?_, ?_⟩, hcount, by rw [h.tCurrent]; decide, fun m hm => ?_⟩
  · rw [TooSmall, pduOfCount, List.length_append, length_txHeader, sdapRxHeaderSize, integritySize, hsdap, hi, ht]
    simp
  · rw [IntegrityOk, hi]
    trivial
  · rw [hcount, IsDuplicate, h.rxDeliv, h.rxList]
    rintro (hlt | ⟨x, hx, -⟩)
    · omega
    · cases hx
  · rw [hrcvd] at hm
    rw [(hformed.existsUnique_infers hsn).unique hm hinfers]
    omega

theorem InOrderUpTo.next {d : Nat} (h : InOrderUpTo d e) (hmax : d + 1 < 4294967296) :
    ∃ e', InOrderUpTo (d + 1) e' := by
  obtain ⟨ha, hcount, hok⟩ := h.accepts (Nat.le_refl d) (by omega) (by omega)
  have hu : u32 (d + 1) = d + 1 := Nat.mod_eq_of_lt hmax
  have hsame := congrArg Prod.fst (txSide_recvPdu .plain e (e.pduOfCount d))
  have hfields : ∀ e', e' = e.recvPdu .plain (e.pduOfCount d) → e'.rxDeliv = d + 1 ∧ e'.rxNext = d + 1 ∧
      e'.rxList = [] ∧ e'.tReorderingStart = 0 ∧ e'.tCurrent = 1 := by
    rintro _ rfl
    rw [ha.recvPdu]
    simp [acceptSdu, storeSdu, sduOf, hcount, countRxPdu, h.rxDeliv, h.rxNext, h.rxList, h.stopped, h.tCurrent, hu,
      deliverFrom, deliver, takeRun, sduListAdd, updateTReordering, stopTReordering, startTReordering]
  obtain ⟨hdeliv, hnext, hlist, hstop, htime⟩ := hfields _ rfl
  exact ⟨_, h.reached.step hok rfl, hsame.trans h.setup, hdeliv, hnext, hlist, hstop, htime⟩

theorem exists_inOrderUpTo (d : Nat) (hmax : d < 4294967296) : ∃ e, InOrderUpTo d e := by
  induction d with
  | zero =>
    exact ⟨_, (Reaches.new rfl).step (show NoUnderflow _ (.setTime 1) from (by decide : 0 < 1 % 2 ^ 64)) rfl,
      rfl, rfl, rfl, rfl, rfl, rfl⟩
  | succ d ih =>
    obtain ⟨e, he⟩ := ih (by omega)
    exact he.next hmax

/-- The re-establishment of an AM DRB leaves the SDU in the list; and without an HFN underflow, the PDU with COUNT
`2 ^ 32 - 1` sets `rx_next` back to 0 while the one before it is missing. -/
theorem receiver_invariant_exceptions :
    (∃ e e', Reaches .plain (Clocked .plain) (.plain .drbAm) e ∧
      e.exec .plain (.reestablish ⟨-1, -1, [], []⟩) = some e' ∧ e'.rxList ≠ []) ∧
    ∃ e, Reaches .plain NoUnderflow (.plain .drbAm) e ∧ e.rxDeliv = 4294967294 ∧ e.rxNext = 0 ∧ ¬RxInv e := by
  constructor
  · obtain ⟨e, he, -, hr⟩ := reaches_gap
    obtain ⟨e', he', hl⟩ := Option.map_eq_some_iff.mp hr
    refine ⟨e, e', he, he', fun h => ?_⟩
    rw [h] at hl
    exact absurd hl (by decide)
  · obtain ⟨e, he⟩ := exists_inOrderUpTo 4294967294 (by decide)
    obtain ⟨ha, hcount, hok⟩ := he.accepts (n := 4294967295) (by decide) (by decide) (by decide)
    have hnew : (e.recvPdu .plain (e.pduOfCount 4294967295)).rxDeliv = 4294967294 ∧
        (e.recvPdu .plain (e.pduOfCount 4294967295)).rxNext = 0 := by
      rw [ha.recvPdu]
      simp [acceptSdu, storeSdu, sduOf, hcount, countRxPdu, he.rxDeliv, he.rxNext, he.rxList, he.stopped, u32,
        updateTReordering, stopTReordering, startTReordering]
    refine ⟨_, he.reached.step hok rfl, hnew.1, hnew.2, fun hinv => ?_⟩
    have := hinv.le
    omega

end OaiNr.Pdcp.Entity
