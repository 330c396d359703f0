import OaiNr.Rlc.Lemmas.Codec
import OaiNr.Rlc.Lemmas.Reception

/-!
# The receive window over whole runs
-/

namespace OaiNr.Rlc

open OaiNr.Serial

/-! ## Empty windows -/

theorem RxState.Geometry.inv_of_empty {s : RxState} (h : s.Geometry) (hn : s.rxNext = 0)
    (hs : s.rxHighestStatus = 0) (hh : s.rxNextHighest = 0) (ht : s.tReassemblyStart = 0)
    (hrx : s.rx.rxList = fun _ => []) : s.Inv := by
  have hat : ∀ k, s.rx.at k = [] := fun k => by rw [RxManager.at, hrx]
  have hd : s.d 0 = 0 := by rw [RxState.d, hn, offset_self]
  have hpos := h.modulus_pos
  have hw := h.window_pos
  exact { h with
      status_nonneg := by omega, status_lt := by omega
      highest_nonneg := by omega, highest_lt := by omega
      status_le := by rw [hs, hh], highest_le := by rw [hh, hd]; omega
      slot := fun k _ _ => by rw [hat]; exact SlotOk.nil
      empty := fun k _ _ => hat k
      outside := fun i _ => by rw [hrx]
      next := by rw [hat]; rfl
      status := fun _ => by rw [hat]; rfl
      trigger := fun h => absurd ht h }

/-! ## Decoded fields -/

namespace Am

variable {e e' : Am} {fuel : Nat} {buffer data : List UInt8} {p sn so x : Int} {isFirst isLast : Bool} {size : Nat}

theorem readDataHeader_range {d : Decoder} (h : (e.readDataHeader d).2.error = false) :
    0 ≤ (e.readDataHeader d).1.2.2.1 ∧ (e.readDataHeader d).1.2.2.1 < 2 ^ e.snFieldLength ∧
      0 ≤ (e.readDataHeader d).1.2.2.2 ∧
      ((e.readDataHeader d).1.2.1 / 2 % 2 = 0 → (e.readDataHeader d).1.2.2.2 = 0) := by
  simp only [readDataHeader] at h ⊢
  split at h
  · rename_i hsi
    rw [if_pos hsi]
    obtain ⟨h0, h1⟩ := Decoder.getBits_range h
    exact ⟨h0, h1, Int.le_refl _, fun _ => rfl⟩
  · rename_i hsi
    rw [if_neg hsi]
    obtain ⟨h0, h1⟩ := Decoder.getBits_range (Decoder.error_of_getBits h)
    exact ⟨h0, h1, (Decoder.getBits_range h).1, fun hc => absurd hc hsi⟩

/-! ## Data PDUs -/

structure AcceptsData (e : Am) (sn so : Int) (isFirst : Bool) (data : List UInt8) : Prop where
  first : ¬(¬isFirst ∧ so = 0)
  nonempty : data.length ≠ 0
  room : ¬e.rxSize + data.length > e.rxMaxsize
  window : e.SnInRecvWindow sn
  new : ¬e.segmentAlreadyReceived sn so data.length

theorem recvDataPdu_of_accepts (h : e.AcceptsData sn so isFirst data) :
    e.recvDataPdu fuel p sn so isFirst isLast data size =
      ((e.storePdu (nrRlcNewPdu sn so isFirst isLast data)).receptionActions fuel sn).map (answerPoll · p) := by
  rw [recvDataPdu, if_neg h.first, if_neg h.nonempty, if_neg h.room, if_neg (not_not.mpr h.window), if_neg h.new]
  cases (e.storePdu (nrRlcNewPdu sn so isFirst isLast data)).receptionActions fuel sn <;> rfl

theorem recvDataPdu_of_not_accepts (fuel : Nat) (p : Int) (isLast : Bool) (size : Nat)
    (h : ¬e.AcceptsData sn so isFirst data) :
    ∃ triggered stats, e.recvDataPdu fuel p sn so isFirst isLast data size =
      .ok { e with statusTriggered := triggered, stats := stats } := by
  rw [recvDataPdu]
  split
  · exact ⟨_, _, rfl⟩
  split
  · exact ⟨_, _, rfl⟩
  split
  · exact ⟨_, _, rfl⟩
  split
  · exact ⟨_, _, rfl⟩
  split
  · exact ⟨_, _, rfl⟩
  · rename_i h1 h2 h3 h4 h5
    exact absurd ⟨h1, h2, h3, not_not.mp h4, h5⟩ h

theorem pduOk_of_accepts (isLast : Bool) (h : e.AcceptsData sn so isFirst data) (hso : 0 ≤ so)
    (hfirst : isFirst → so = 0) : PduOk sn (nrRlcNewPdu sn so isFirst isLast data) :=
  { sn_eq := rfl
    so_nonneg := hso
    size_pos := by have := h.nonempty; show (0 : Int) < data.length; omega
    first := ⟨hfirst, fun hz => by by_contra hc; exact h.first ⟨hc, hz⟩⟩
    data_length := fun b hb => by cases hb; rfl }

theorem AcceptsData.lt_window (h : e.AcceptsData sn so isFirst data) (hg : e.rxState.Geometry)
    (h0 : 0 ≤ sn) (h1 : sn < e.snModulus) : e.rxState.d sn < e.windowSize := by
  have := h.window
  rwa [SnInRecvWindow, modulusRx_eq hg h0 h1] at this

theorem storePdu_inv (isLast : Bool) (h : e.rxState.Inv) (ha : e.AcceptsData sn so isFirst data) (h0 : 0 ≤ sn)
    (h1 : sn < e.snModulus) (hso : 0 ≤ so) (hfirst : isFirst → so = 0) :
    ((e.storePdu (nrRlcNewPdu sn so isFirst isLast data)).updateRxNextHighest sn).rxState.Inv ∧
      e.rxState.d sn < e.windowSize := by
  have hw := ha.lt_window h.toGeometry h0 h1
  refine ⟨?_, hw⟩
  have hpdu := pduOk_of_accepts isLast ha hso hfirst
  have hst : ((e.storePdu (nrRlcNewPdu sn so isFirst isLast data)).updateRxNextHighest sn).rxState =
      e.rxState.store (nrRlcNewPdu sn so isFirst isLast data) := by
    have hr := updateRxNextHighest_rxState (x := sn) h.toCore h0 h1
    show { (e.updateRxNextHighest sn).rxState with
      rx := e.rx.addPdu (nrRlcNewPdu sn so isFirst isLast data) } = _
    rw [hr]
    rfl
  rw [hst]
  exact h.store h0 h1 hw hpdu (by simp [nrRlcNewPdu])

theorem recvDataPdu_inv (h : e.rxState.Inv) (h0 : 0 ≤ sn) (h1 : sn < e.snModulus) (hso : 0 ≤ so)
    (hfirst : isFirst → so = 0)
    (hr : e.recvDataPdu fuel p sn so isFirst isLast data size = .ok e') : e'.rxState.Inv := by
  by_cases ha : e.AcceptsData sn so isFirst data
  · rw [recvDataPdu_of_accepts ha, map_eq_ok] at hr
    obtain ⟨e₁, hr, rfl⟩ := hr
    obtain ⟨hst, hw⟩ := storePdu_inv isLast h ha h0 h1 hso hfirst
    obtain ⟨e₂, hr₂, hr₃⟩ := bind_eq_ok.mp hr
    cases hr₃
    exact startTReassembly_inv (stopTReassembly_moved (deliverFull_moved hst h0 h1 hw hr₂))
  · obtain ⟨triggered, stats, hd⟩ := recvDataPdu_of_not_accepts fuel p isLast size ha
    rw [hd] at hr
    cases hr
    exact h

/-! ## Operations and runs -/

def snConfig (e : Am) : Nat × Int × Int := (e.snFieldLength, e.snModulus, e.windowSize)

structure RxGood (c : AmConfig) (e : Am) : Prop where
  config : e.snConfig = (newNrRlcEntityAm c).snConfig
  inv : e.rxState.Inv

variable {c : AmConfig} {op : Op}

theorem RxGood.snModulus (h : RxGood c e) : e.snModulus = 2 ^ e.snFieldLength := by
  have hc := h.config
  simp only [snConfig, Prod.mk.injEq] at hc
  rw [hc.1, hc.2.1]
  rfl

theorem RxGood.of_outsideTx (h : RxGood c e) (he : e'.outsideTx = e.outsideTx) : RxGood c e' := by
  have hconf : e'.outsideTx.snConfig = e.outsideTx.snConfig := by rw [he]
  have hrx : e'.outsideTx.rxState = e.outsideTx.rxState := by rw [he]
  change e'.rxState = e.rxState at hrx
  exact ⟨hconf.trans h.config, by rw [hrx]; exact h.inv⟩

theorem RxGood.of_outsideRx (h : RxGood c e) (he : e'.outsideRx = e.outsideRx)
    (hinv : e'.rxState.Inv) : RxGood c e' := by
  have hconf : e'.outsideRx.snConfig = e.outsideRx.snConfig := by rw [he]
  exact ⟨hconf.trans h.config, hinv⟩

theorem newNrRlcEntityAm_good (c : AmConfig) : RxGood c (newNrRlcEntityAm c) := by
  have hm : (2 : Int) ^ c.snFieldLength = 2 * (2 ^ c.snFieldLength / 2) ∧ 0 < (2 : Int) ^ c.snFieldLength / 2 ∧
      (2 : Int) ^ (c.snFieldLength - 1) = 2 ^ c.snFieldLength / 2 := by
    rcases c.snValid with h | h <;> rw [h] <;> decide
  have hg : (newNrRlcEntityAm c).rxState.Geometry :=
    { modulus := hm.1, window_pos := hm.2.1, size := hm.2.2, snStart := rfl
      rxNext_nonneg := Int.le_refl _
      rxNext_lt := by show (0 : Int) < 2 ^ c.snFieldLength; omega }
  exact ⟨rfl, hg.inv_of_empty rfl rfl rfl rfl rfl⟩

theorem reestablishment_good (h : RxGood c e) : RxGood c e.reestablishment := by
  have hg : e.reestablishment.rxState.Geometry :=
    { h.inv.toGeometry with
      snStart := rfl, rxNext_nonneg := Int.le_refl _, rxNext_lt := h.inv.toGeometry.modulus_pos }
  exact ⟨h.config, hg.inv_of_empty rfl rfl rfl rfl rfl⟩

theorem RxGood.discardPdu (h : RxGood c e) : RxGood c (e.discardPdu p size) := ⟨h.config, h.inv⟩

theorem recvPdu_good (h : RxGood c e) (hr : e.recvPdu fuel buffer = .ok e') : RxGood c e' := by
  have hc : RxGood c (e.countRxPdu buffer.length) := ⟨h.config, h.inv⟩
  rcases recvPdu_cases hr with ⟨p, rfl⟩ | ⟨-, rfl⟩ | ⟨_, rfl, herr, hr⟩
  · exact hc.discardPdu
  · exact hc.of_outsideTx (outsideTx_of_control (processControlPdu_outside ..))
  · obtain ⟨h0, h1, hso, hfirst⟩ := readDataHeader_range herr
    refine hc.of_outsideRx (recvDataPdu_outside hr) (recvDataPdu_inv hc.inv h0 ?_ hso ?_ hr)
    · rw [hc.snModulus]
      exact h1
    · exact fun hf => hfirst (by simpa using hf)

theorem generatePdu_good {r : Am × List UInt8 × Nat} (h : RxGood c e)
    (hr : e.generatePdu fuel buffer = .ok r) : RxGood c r.1 := by
  obtain ⟨r₁, h₁, hr⟩ := generatePdu_cases hr
  have hg₁ : RxGood c r₁.1 := by
    rcases h₁ with rfl | h₁
    · exact h
    · rw [(generateStatus_ok h₁).2.2]
      exact ⟨h.config, h.inv⟩
  rcases hr with ⟨-, rfl⟩ | ⟨-, r₂, h₂, hr⟩
  · exact hg₁
  · have hg₂ : RxGood c r₂.1 := by
      rcases h₂ with rfl | h₂
      · exact hg₁
      · exact hg₁.of_outsideTx (generateRetxPdu_outside h₂)
    rcases hr with ⟨-, rfl⟩ | ⟨-, hr⟩
    · exact hg₂
    · exact hg₂.of_outsideTx (generateTxPdu_outside hr)

theorem setTime_good {now : Nat} (h : RxGood c e) (hr : e.setTime fuel now = .ok e') : RxGood c e' := by
  obtain ⟨e₁, h₁, hr⟩ := setTime_ok hr
  have hg : RxGood c { e with tCurrent := u64 now } := ⟨h.config, h.inv⟩
  have hg₁ : RxGood c e₁ := hg.of_outsideTx (checkTPollRetransmit_outside h₁)
  exact hg₁.of_outsideRx (checkTReassembly_outside hr) (checkTReassembly_inv hg₁.inv hr)

theorem exec_good (h : RxGood c e) (hr : e.exec fuel op = .ok e') : RxGood c e' := by
  cases op with
  | recvSdu buffer sduId => exact h.of_outsideTx (recvSdu_outside hr)
  | recvPdu buffer => exact recvPdu_good h hr
  | generatePdu buffer =>
    obtain ⟨r, hg, rfl⟩ := map_eq_ok.mp hr
    exact generatePdu_good h hg
  | setTime now => exact setTime_good h hr
  | discardSdu sduId =>
    cases hr
    exact h.of_outsideTx (discardSdu_outside ..)
  | reestablishment =>
    cases hr
    exact reestablishment_good h

theorem reaches_good {ok : Am → Op → Prop} (h : Reaches ok c e) : RxGood c e := by
  induction h with
  | new => exact newNrRlcEntityAm_good c
  | step _ _ hr ih =>
    obtain ⟨fuel, hr⟩ := hr
    exact exec_good ih hr

end Am

end OaiNr.Rlc
