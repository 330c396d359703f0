import OaiNr.Lib.Fallible
import OaiNr.Lib.Periodic
import OaiNr.Mac.FrameStructure

/-!
# Numbers of uplink slots

An uplink slot is known by how many there were before it: so the PUCCHs of a UE are kept, and the CSI reports of the
UEs spread.
-/

namespace OaiNr.Mac

theorem setTddBmapPeriod_count {pattern : TddPattern} {pc pc' : TddPeriodConfig}
    (hok : setTddBmapPeriod pattern pc = .ok pc') (h : pc.tddSlotBitmap.countP TddSlot.hasUl = pc.numUlSlots) :
    pc'.tddSlotBitmap.countP TddSlot.hasUl = pc'.numUlSlots := by
  unfold setTddBmapPeriod at hok
  split at hok
  · cases hok
    have hmixed : (if 0 < pattern.nrofUplinkSymbols + pattern.nrofDownlinkSymbols then
          [TddSlot.mixed pattern.nrofDownlinkSymbols pattern.nrofUplinkSymbols] else []).countP TddSlot.hasUl =
        if 0 < pattern.nrofUplinkSymbols then 1 else 0 := by
      split_ifs <;> simp [TddSlot.hasUl] <;> omega
    simp only [List.countP_append, List.countP_replicate, h, hmixed, TddSlot.hasUl]
    simp only [Bool.false_eq_true, ↓reduceIte]
    omega
  · cases hok

namespace FrameStructure

variable {mu : Fin 4} {tdd : Option TddConfig} {fs : FrameStructure} {slot : Nat}

theorem isUlSlot_periodic (fs : FrameStructure) : Function.Periodic (fs.isUlSlot · = true) fs.numbSlotsPeriod := by
  intro slot
  simp [isUlSlot]

theorem count_bitmap (l : List TddSlot) :
    Nat.count (fun i => (l.getD (i % l.length) .downlink).hasUl = true) l.length = l.countP TddSlot.hasUl := by
  have hmap : (List.range l.length).map (fun i => l.getD (i % l.length) .downlink) = l := by
    refine List.ext_getElem (by simp) fun i hi hi' => ?_
    simp [Nat.mod_eq_of_lt hi', hi']
  nth_rewrite 6 [← hmap]
  rw [List.countP_map, Nat.count]
  simp [Function.comp_def]

/-- What is used of a configuration -/
theorem configFrameStructure_spec (h : configFrameStructure mu tdd = .ok fs) :
    0 < fs.numbSlotsFrame ∧ fs.numbSlotsPeriod = fs.numbSlotsFrame / fs.numbPeriodFrame ∧
      Nat.count (fs.isUlSlot ·) fs.numbSlotsPeriod = fs.getUlSlotsPerPeriod ∧
      fs.getUlSlotsPerFrame = fs.numbPeriodFrame * fs.getUlSlotsPerPeriod := by
  have hpos : 0 < 10 * 2 ^ mu.val := Nat.mul_pos (by decide) (Nat.two_pow_pos _)
  cases tdd with
  | none =>
    cases h
    exact ⟨hpos, (Nat.div_one _).symm, Nat.count_of_forall fun _ _ => rfl, (Nat.one_mul _).symm⟩
  | some tdd =>
    obtain ⟨pc₁, h₁, h⟩ := bind_eq_ok.mp h
    obtain ⟨pc, h₂, h⟩ := bind_eq_ok.mp h
    split at h
    · next hlength =>
      cases h
      have hcount : pc.tddSlotBitmap.countP TddSlot.hasUl = pc.numUlSlots := by
        have hfirst := setTddBmapPeriod_count h₁ rfl
        cases hp : tdd.pattern2 with
        | none =>
          rw [hp] at h₂
          cases h₂
          exact hfirst
        | some pattern =>
          rw [hp] at h₂
          exact setTddBmapPeriod_count h₂ hfirst
      refine ⟨hpos, rfl, ?_, rfl⟩
      rw [← hlength]
      exact (count_bitmap _).trans hcount
    · cases h

/-- Seven downlink slots, a mixed one and two uplink slots -/
def tdd5ms : FrameStructure := ⟨20, 2, 10, some ⟨List.replicate 7 .downlink ++ [.mixed 6 4, .uplink, .uplink], 3⟩⟩

theorem config_tdd5ms : configFrameStructure 1 (some ⟨6, ⟨7, 6, 2, 4⟩, none⟩) = .ok tdd5ms := rfl

/-! ## PUCCHs -/

section

variable (hfs : configFrameStructure mu tdd = .ok fs) (hwhole : fs.numbPeriodFrame ∣ fs.numbSlotsFrame)

include hfs hwhole

theorem periods_mul_slots : fs.numbPeriodFrame * fs.numbSlotsPeriod = fs.numbSlotsFrame := by
  obtain ⟨-, hperiod, -⟩ := configFrameStructure_spec hfs
  rw [hperiod, Nat.mul_div_cancel' hwhole]

theorem count_add_frames (frames t : Nat) :
    Nat.count (fs.isUlSlot ·) (t + frames * fs.numbSlotsFrame) =
      Nat.count (fs.isUlSlot ·) t + frames * fs.numbPeriodFrame * fs.getUlSlotsPerPeriod := by
  obtain ⟨-, -, hcount, -⟩ := configFrameStructure_spec hfs
  rw [← periods_mul_slots hfs hwhole, ← Nat.mul_assoc, count_add_mul fs.isUlSlot_periodic, hcount]

/-- The index of an uplink slot counts those before it, from a frame 0. -/
theorem getPucchIndex_eq {frame size : Nat} (hul : fs.isUlSlot slot) :
    fs.getPucchIndex frame slot size = ↑(Nat.count (fs.isUlSlot ·) (slot + frame * fs.numbSlotsFrame) % size) := by
  obtain ⟨-, -, hcount, hframe⟩ := configFrameStructure_spec hfs
  have hslot : Nat.count (fs.isUlSlot ·) slot = Nat.count (fs.isUlSlot ·) (slot % fs.numbSlotsPeriod) +
      slot / fs.numbSlotsPeriod * fs.getUlSlotsPerPeriod := by
    rw [← hcount, ← count_add_mul fs.isUlSlot_periodic, Nat.mod_add_div']
  have hul' : fs.isUlSlot (slot % fs.numbSlotsPeriod) := by
    rwa [isUlSlot, Nat.mod_mod]
  rw [count_add_frames hfs hwhole, hslot, getPucchIndex, hframe, Nat.count_succ, if_pos hul']
  rw [Int.natCast_mod, ← Int.tmod_eq_emod_of_nonneg (Int.natCast_nonneg _)]
  congr 1
  push_cast
  ring

omit hfs hwhole in
/-- The cycle of 1024 frames holds a multiple of the ring. -/
theorem schedPucchListSize_dvd {maxFbTime koffset : Nat}
    (hlist : fs.schedPucchListSize maxFbTime koffset ≤ 1024 * fs.getUlSlotsPerPeriod) :
    fs.schedPucchListSize maxFbTime koffset ∣ 1024 * fs.getUlSlotsPerPeriod := by
  rw [schedPucchListSize, Nat.mul_comm] at hlist ⊢
  rcases Nat.eq_zero_or_pos fs.getUlSlotsPerPeriod with hzero | hul
  · simp [hzero]
  · have hle := Nat.le_of_mul_le_mul_right hlist hul
    have hexp := (Nat.pow_le_pow_iff_right (m := 10) Nat.one_lt_two).mp hle
    exact Nat.mul_dvd_mul_right (Nat.pow_dvd_pow 2 hexp) _

theorem getPucchIndex_cycle {size t : Nat} (hdvd : size ∣ 1024 * fs.getUlSlotsPerPeriod)
    (ht : fs.isUlSlot (t % fs.numbSlotsFrame)) :
    fs.getPucchIndex (t / fs.numbSlotsFrame % 1024) (t % fs.numbSlotsFrame) size =
      ↑(Nat.count (fs.isUlSlot ·) t % size) := by
  have hcycle : t = t % fs.numbSlotsFrame + t / fs.numbSlotsFrame % 1024 * fs.numbSlotsFrame +
      t / fs.numbSlotsFrame / 1024 * 1024 * fs.numbSlotsFrame := by
    rw [Nat.add_assoc, ← Nat.add_mul, Nat.mod_add_div', Nat.mod_add_div']
  obtain ⟨c, hc⟩ := hdvd
  have hturns : t / fs.numbSlotsFrame / 1024 * 1024 * fs.numbPeriodFrame * fs.getUlSlotsPerPeriod =
      size * (c * (t / fs.numbSlotsFrame / 1024 * fs.numbPeriodFrame)) := by
    rw [← Nat.mul_assoc, ← hc]
    ring
  rw [getPucchIndex_eq hfs hwhole ht]
  conv_rhs => rw [hcycle, count_add_frames hfs hwhole, hturns, Nat.add_mul_mod_self_left]

/-- In a frame of whole periods, uplink slots that are no further apart than the feedback have PUCCHs of their own. Slots
are numbered through all frames, and the frames go from 1023 to 0. -/
theorem pucch_indices_distinct {maxFbTime koffset a b : Nat}
    (hlist : fs.schedPucchListSize maxFbTime koffset ≤ 1024 * fs.getUlSlotsPerPeriod)
    (ha : fs.isUlSlot (a % fs.numbSlotsFrame)) (hb : fs.isUlSlot (b % fs.numbSlotsFrame)) (hab : a < b)
    (hnear : b ≤ a + (maxFbTime + koffset)) :
    fs.getPucchIndex (a / fs.numbSlotsFrame % 1024) (a % fs.numbSlotsFrame) (fs.schedPucchListSize maxFbTime koffset) ≠
      fs.getPucchIndex (b / fs.numbSlotsFrame % 1024) (b % fs.numbSlotsFrame)
        (fs.schedPucchListSize maxFbTime koffset) := by
  obtain ⟨hpos, -, hcount, -⟩ := configFrameStructure_spec hfs
  have hmul := periods_mul_slots hfs hwhole
  have hperiod : 0 < fs.numbSlotsPeriod := Nat.pos_of_mul_pos_left (hmul ▸ hpos)
  have hul {t : Nat} (ht : fs.isUlSlot (t % fs.numbSlotsFrame)) : fs.isUlSlot t := by
    rwa [isUlSlot, Nat.mod_mod_of_dvd _ ⟨_, hmul.symm.trans (Nat.mul_comm _ _)⟩] at ht
  have hdvd := schedPucchListSize_dvd hlist
  rw [getPucchIndex_cycle hfs hwhole hdvd ha, getPucchIndex_cycle hfs hwhole hdvd hb, Ne, Int.natCast_inj]
  refine count_mod_ne fs.isUlSlot_periodic (m := (maxFbTime + koffset) / fs.numbSlotsPeriod + 1) (hul ha) (hul hb)
    hab ?_ ?_
  · have := Nat.lt_mul_div_succ (maxFbTime + koffset) hperiod
    rw [Nat.mul_comm] at this
    omega
  · rw [hcount, Nat.mul_comm]
    exact Nat.mul_le_mul_left _ (Nat.le_pow_clog (by decide) _)

omit hfs hwhole in
/-- The last uplink slot before the frame number wraps, and the first one after. -/
theorem pucch_indices_distinct_wrap :
    tdd5ms.isUlSlot 19 ∧ tdd5ms.isUlSlot 7 ∧ tdd5ms.getPucchIndex 1023 19 (tdd5ms.schedPucchListSize 8 0) ≠
      tdd5ms.getPucchIndex 0 7 (tdd5ms.schedPucchListSize 8 0) :=
  ⟨rfl, rfl, pucch_indices_distinct (a := 20479) (b := 20487) config_tdd5ms (by decide) (by decide) rfl rfl (by decide)
    (by decide)⟩

omit hfs hwhole in
/-- At 15 kHz four periods of 2.5 ms leave two slots of the frame, which have indices of the next one. -/
theorem pucch_indices_same : ∃ fs, configFrameStructure 0 (some ⟨5, ⟨1, 0, 1, 0⟩, none⟩) = .ok fs ∧
    fs.schedPucchListSize 2 0 ≤ 1024 * fs.getUlSlotsPerPeriod ∧ fs.isUlSlot 9 ∧ fs.isUlSlot 1 ∧
    fs.getPucchIndex 0 9 (fs.schedPucchListSize 2 0) = fs.getPucchIndex 1 1 (fs.schedPucchListSize 2 0) :=
  ⟨_, rfl, by decide, rfl, rfl, by decide⟩

end

/-! ## CSI reports -/

/-- UEs with the same PUCCH2 are two reports apart. -/
theorem reports_apart {uid uid' n : Nat} (hmod : uid % n = uid' % n) (h : uid < uid') :
    uid * 2 / n + 2 ≤ uid' * 2 / n := by
  obtain ⟨k, hk⟩ := (Nat.modEq_iff_dvd' h.le).mp hmod
  have hpos : 0 < n * k := by omega
  have hk' : 0 < k := Nat.pos_of_mul_pos_left hpos
  rw [show uid' * 2 = uid * 2 + n * (k * 2) by rw [← Nat.mul_assoc]; omega,
    Nat.add_mul_div_left _ _ (Nat.pos_of_mul_pos_right hpos)]
  omega

section

variable (hfs : configFrameStructure mu tdd = .ok fs) (hul : 0 < fs.getUlSlotsPerPeriod)

include hfs hul

theorem getUlSlotOffset_spec (idx : Nat) :
    fs.isUlSlot (fs.getUlSlotOffset idx true) ∧ Nat.count (fs.isUlSlot ·) (fs.getUlSlotOffset idx true) = idx := by
  obtain ⟨-, -, hcount, -⟩ := configFrameStructure_spec hfs
  unfold getUlSlotOffset
  cases hcfg : fs.periodCfg with
  | none =>
    have hall (i : Nat) : fs.isUlSlot i = true := by simp [isUlSlot, hcfg]
    exact ⟨hall _, Nat.count_of_forall fun i _ => hall i⟩
  | some pc =>
    have hfilter : (List.range fs.numbSlotsPeriod).filter (fun i => decide (fs.isUlSlot i = true)) =
        (List.range fs.numbSlotsPeriod).filter fun i =>
          true && fs.isUlSlot i || pc.tddSlotBitmap.getD i .downlink == .uplink := by
      refine List.filter_congr fun i hi => ?_
      rw [isUlSlot, hcfg, Nat.mod_eq_of_lt (List.mem_range.mp hi), Option.all_some]
      generalize pc.tddSlotBitmap.getD i .downlink = slot
      cases slot <;> simp [TddSlot.hasUl]
    refine nth_periodic fs.isUlSlot_periodic hfilter ?_ idx
    rwa [← hfilter, ← List.countP_eq_length_filter, ← Nat.count, hcount]

theorem getUlSlotOffset_mono {i j : Nat} (h : i ≤ j) : fs.getUlSlotOffset i true ≤ fs.getUlSlotOffset j true := by
  by_contra hlt
  have hcount := Nat.count_strict_mono (p := (fs.isUlSlot · = true)) (getUlSlotOffset_spec hfs hul j).1 (not_le.mp hlt)
  rw [(getUlSlotOffset_spec hfs hul i).2, (getUlSlotOffset_spec hfs hul j).2] at hcount
  omega

/-- A period that is accepted has room for both reports of every UE. -/
theorem getUlSlotOffset_lt {idx val : Nat} (hidx : idx < maxMobilesPerGnb * 2)
    (hval : fs.checkPeriodicity fs.setIdealPeriod val) : fs.getUlSlotOffset idx true < val := by
  obtain ⟨-, -, hcount, -⟩ := configFrameStructure_spec hfs
  simp only [checkPeriodicity, Bool.and_eq_true, Bool.or_eq_true, decide_eq_true_eq, beq_iff_eq] at hval
  obtain ⟨hideal, hval⟩ := hval
  rw [setIdealPeriod, Nat.div_lt_iff_lt_mul hul] at hideal
  have hul_le : fs.getUlSlotsPerPeriod ≤ fs.numbSlotsPeriod := hcount ▸ Nat.count_le _
  by_contra hge
  have hle := Nat.count_monotone (fs.isUlSlot · = true) (not_lt.mp hge)
  rw [(getUlSlotOffset_spec hfs hul idx).2] at hle
  refine absurd hideal (not_lt.mpr ?_)
  rcases hval with hnone | hmod
  · have hall (i : Nat) : fs.isUlSlot i = true := by simp [isUlSlot, Option.isNone_iff_eq_none.mp hnone]
    rw [Nat.count_of_forall fun i _ => hall i] at hle
    exact Nat.mul_le_mul (by omega) hul_le
  · obtain ⟨m, rfl⟩ := Nat.dvd_of_mod_eq_zero hmod
    rw [Nat.mul_comm, ← Nat.zero_add (m * _), count_add_mul fs.isUlSlot_periodic, Nat.count_zero, Nat.zero_add,
      hcount] at hle
    calc (fs.numbSlotsPeriod * m + 1) * fs.getUlSlotsPerPeriod
        = fs.numbSlotsPeriod * (m * fs.getUlSlotsPerPeriod) + fs.getUlSlotsPerPeriod := by ring
      _ ≤ fs.numbSlotsPeriod * idx + fs.numbSlotsPeriod := Nat.add_le_add (Nat.mul_le_mul_left _ hle) hul_le
      _ = (idx + 1) * fs.numbSlotsPeriod := by ring
      _ ≤ maxMobilesPerGnb * 2 * fs.numbSlotsPeriod := Nat.mul_le_mul_right _ hidx

variable {numAdditionalBwps numAntPorts numPucch2 currBwp uid uid' : Nat}

theorem setCsiMeasPeriodicity_spec (huid : uid < maxMobilesPerGnb) (isRsrp : Bool)
    (hverify : fs.verifyRadioConfiguration numAdditionalBwps numAntPorts numPucch2 currBwp uid) :
    ∃ offset, fs.setCsiMeasPeriodicity numPucch2 uid isRsrp = .ok (fs.csiPeriod, offset) ∧
      fs.isUlSlot offset ∧ offset < fs.csiPeriod ∧
      Nat.count (fs.isUlSlot ·) offset = uid * 2 / numPucch2 + isRsrp.toNat := by
  have hlt := getUlSlotOffset_mono hfs hul (Nat.add_le_add_left (Bool.toNat_le isRsrp) (uid * 2 / numPucch2))
  simp only [verifyRadioConfiguration, Bool.and_eq_true, decide_eq_true_eq] at hverify
  have hoffset := hlt.trans_lt hverify.2
  obtain ⟨hul', hcount⟩ := getUlSlotOffset_spec hfs hul (uid * 2 / numPucch2 + isRsrp.toNat)
  refine ⟨_, if_pos hoffset, hul', ?_, hcount⟩
  unfold csiPeriod
  cases hfind : [4, 5, 8, 10, 16, 20, 40, 80, 160].find? (fs.checkPeriodicity fs.setIdealPeriod) with
  | none => exact hoffset
  | some val =>
    refine getUlSlotOffset_lt hfs hul ?_ (List.find?_some hfind)
    have := Nat.div_le_self (uid * 2) numPucch2
    have := Bool.toNat_le isRsrp
    omega

/-- Reports of different UEs are uplink slots in a common period, and in one slot they start at different blocks. -/
theorem csi_reports_apart (huid : uid < maxMobilesPerGnb) (huid' : uid' < maxMobilesPerGnb)
    (hne : uid ≠ uid') (hverify : fs.verifyRadioConfiguration numAdditionalBwps numAntPorts numPucch2 currBwp uid)
    (hverify' : fs.verifyRadioConfiguration numAdditionalBwps numAntPorts numPucch2 currBwp uid')
    (isRsrp isRsrp' : Bool) :
    ∃ period offset offset', fs.setCsiMeasPeriodicity numPucch2 uid isRsrp = .ok (period, offset) ∧
      fs.setCsiMeasPeriodicity numPucch2 uid' isRsrp' = .ok (period, offset') ∧
      fs.isUlSlot offset ∧ fs.isUlSlot offset' ∧ offset < period ∧ offset' < period ∧
      ∀ slot, slot % period = offset → slot % period = offset' →
        pucch2StartingPrb numAntPorts numPucch2 uid ≠ pucch2StartingPrb numAntPorts numPucch2 uid' := by
  obtain ⟨offset, hok, hslot, hlt, hcount⟩ := setCsiMeasPeriodicity_spec hfs hul huid isRsrp hverify
  obtain ⟨offset', hok', hslot', hlt', hcount'⟩ := setCsiMeasPeriodicity_spec hfs hul huid' isRsrp' hverify'
  refine ⟨_, offset, offset', hok, hok', hslot, hslot', hlt, hlt', fun slot h h' hprb => ?_⟩
  rw [← h.symm.trans h', hcount] at hcount'
  have hsize : 0 < getPucch2Size numAntPorts := by
    unfold getPucch2Size
    split <;> decide
  have hmod := Nat.eq_of_mul_eq_mul_left hsize hprb
  have := Bool.toNat_le isRsrp
  have := Bool.toNat_le isRsrp'
  rcases Nat.lt_or_gt_of_ne hne with hlt | hgt
  · have := reports_apart hmod hlt
    omega
  · have := reports_apart hmod.symm hgt
    omega

omit hfs hul in
/-- Two UEs with reports in the uplink slots of a period of 5 ms. -/
theorem csi_reports_apart_tdd5ms :
    ∃ period offset offset', tdd5ms.setCsiMeasPeriodicity 2 0 true = .ok (period, offset) ∧
      tdd5ms.setCsiMeasPeriodicity 2 1 true = .ok (period, offset') ∧
      tdd5ms.isUlSlot offset ∧ tdd5ms.isUlSlot offset' ∧ offset < period ∧ offset' < period ∧
      ∀ slot, slot % period = offset → slot % period = offset' → pucch2StartingPrb 1 2 0 ≠ pucch2StartingPrb 1 2 1 :=
  have hverify : ∀ uid < 2, tdd5ms.verifyRadioConfiguration 0 1 2 106 uid := by decide
  csi_reports_apart config_tdd5ms (by decide) (by decide) (by decide) (by decide) (hverify 0 (by decide))
    (hverify 1 (by decide)) true true

end

end FrameStructure

end OaiNr.Mac
