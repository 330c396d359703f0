import Mathlib.Algebra.BigOperators.Group.List.Basic
import OaiNr.Lib.Fallible
import OaiNr.Mac.Bsr

/-!
# Estimates of the buffer status
-/

namespace OaiNr.Mac

open List

section Tables

theorem length_nrShortBsrTable : nrShortBsrTable.length = 32 := rfl

theorem length_nrLongBsrTable : nrLongBsrTable.length = 256 := by
  decide +kernel

theorem nrLongBsrTable_ends : nrLongBsrTable.getD 0 0 = 0 ∧ nrLongBsrTable.getD 253 0 = 81338368 ∧
    nrLongBsrTable.getD 254 0 = 162676736 ∧ nrLongBsrTable.getD 255 0 = 2 ^ 32 - 1 := by
  decide

theorem nrLongBsrTable_ascends : nrLongBsrTable.IsChain (· < ·) := by
  decide +kernel

theorem nrShortBsrTable_ascends : nrShortBsrTable.IsChain (· < ·) := by
  decide

theorem lt_of_ascends {table : List Nat} (h : table.IsChain (· < ·)) (i : Nat) (hi : i < table.length - 1) :
    table.getD i 0 < table.getD (i + 1) 0 := by
  rw [getD_eq_getElem _ _ (by omega), getD_eq_getElem _ _ (by omega)]
  exact isChain_iff_getElem.mp h i (by omega)

theorem le_of_ascends {table : List Nat} (h : table.IsChain (· < ·)) {i j : Nat} (hij : i ≤ j)
    (hj : j < table.length) : table.getD i 0 ≤ table.getD j 0 := by
  induction j, hij using Nat.le_induction with
  | base => exact Nat.le_refl _
  | succ j hij ih => exact Nat.le_trans (ih (by omega)) (Nat.le_of_lt (lt_of_ascends h j (by omega)))

def longEstimate (level : Nat) : Int :=
  ((nrLongBsrTable.getD (min (overestimBsrIndex level) 255) 0 : Nat) : Int).bmod (2 ^ 32)

theorem longEntry_le {i j : Nat} (hij : i ≤ j) (hj : j < 256) : nrLongBsrTable.getD i 0 ≤ nrLongBsrTable.getD j 0 :=
  le_of_ascends nrLongBsrTable_ascends hij (by rwa [length_nrLongBsrTable])

theorem overestimBsrIndex_bounds (level : Nat) : level ≤ overestimBsrIndex level ∧
    overestimBsrIndex level ≤ level + 1 ∧ (254 ≤ level → overestimBsrIndex level = level + 1) := by
  unfold overestimBsrIndex
  split <;> omega

theorem longEstimate_low {level : Nat} (h : level < 254) :
    longEstimate level = nrLongBsrTable.getD (overestimBsrIndex level) 0 := by
  obtain ⟨-, hindex, -⟩ := overestimBsrIndex_bounds level
  have hle := longEntry_le (show overestimBsrIndex level ≤ 254 by omega) (by omega)
  rw [nrLongBsrTable_ends.2.2.1] at hle
  unfold longEstimate
  rw [Nat.min_eq_left (by omega)]
  generalize nrLongBsrTable.getD (overestimBsrIndex level) 0 = entry at *
  exact Int.bmod_eq_of_le (by omega) (by omega)

theorem longEstimate_high {level : Nat} (h : 254 ≤ level) : longEstimate level = -1 := by
  have hindex := (overestimBsrIndex_bounds level).2.2 h
  unfold longEstimate
  rw [Nat.min_eq_right (by omega), nrLongBsrTable_ends.2.2.2]
  decide

theorem longEstimate_zero : longEstimate 0 = 0 := by
  rw [longEstimate_low (by omega)]
  exact congrArg Nat.cast nrLongBsrTable_ends.1

theorem longEstimate_bounds (level : Nat) : -1 ≤ longEstimate level ∧ longEstimate level ≤ 162676736 := by
  rcases Nat.lt_or_ge level 254 with h | h
  · obtain ⟨-, hindex, -⟩ := overestimBsrIndex_bounds level
    have hle := longEntry_le (show overestimBsrIndex level ≤ 254 by omega) (by omega)
    rw [nrLongBsrTable_ends.2.2.1] at hle
    rw [longEstimate_low h]
    omega
  · rw [longEstimate_high h]
    decide

theorem le_longEstimate {level : Nat} (h : level < 254) : (nrLongBsrTable.getD level 0 : Int) ≤ longEstimate level := by
  obtain ⟨hle, hindex, -⟩ := overestimBsrIndex_bounds level
  rw [longEstimate_low h]
  exact Int.ofNat_le.mpr (longEntry_le hle (by omega))

theorem longEstimate_sub (level : Nat) : longEstimate level - lowerEdge nrLongBsrTable level =
    BsrReport.excess level - BsrReport.lack level := by
  unfold BsrReport.excess BsrReport.lack
  rcases Nat.lt_or_ge level 254 with h | h
  · have hedge : lowerEdge nrLongBsrTable level ≤ nrLongBsrTable.getD (overestimBsrIndex level) 0 := by
      obtain ⟨hle, hindex, -⟩ := overestimBsrIndex_bounds level
      unfold lowerEdge
      split
      · exact Nat.zero_le _
      · exact longEntry_le (by omega) (by omega)
    rw [longEstimate_low h, if_pos h, if_neg (by omega)]
    omega
  · rw [longEstimate_high h, if_neg (by omega), if_pos h]
    omega

def shortEstimate (level : Nat) : Nat := nrShortBsrTable.getD (min (overestimBsrIndex level) 31) 0

theorem shortEstimate_facts : ∀ level < 32, (shortEstimate level : Int).bmod (2 ^ 32) = shortEstimate level ∧
    lowerEdge nrShortBsrTable level ≤ shortEstimate level ∧
    (level < 31 → nrShortBsrTable.getD level 0 ≤ shortEstimate level) ∧ 150000 ≤ shortEstimate 31 := by
  decide

end Tables

section Locate

variable {table : List Nat}

theorem locate_spec (table : List Nat) (hlen : 2 ≤ table.length) (hzero : table.getD 0 0 = 0)
    (hlt : ∀ i < table.length - 1, table.getD i 0 < table.getD (i + 1) 0) {value : Nat} (hpos : 0 < value) :
    ∃ jl, nrLocateBsrIndexByBufferSize table value = jl + 1 ∧ jl + 1 < table.length ∧ table.getD jl 0 < value ∧
      (value ≤ table.getD (jl + 1) 0 ∨ jl + 1 = table.length - 1) := by
  have hascend : decide (table.getD 0 0 ≤ table.getD (table.length - 1) 0) = true :=
    decide_eq_true (by rw [hzero]; exact Nat.zero_le _)
  obtain ⟨hless, hmet, hnext⟩ := bisect_spec
    (p := fun jm => decide (table.getD jm 0 ≤ value) == true) (show 0 < table.length - 1 by omega)
    (by simp only [hzero, Nat.zero_le, decide_true, beq_self_eq_true])
  unfold nrLocateBsrIndexByBufferSize
  simp only [if_neg (Nat.ne_of_gt hpos), hascend]
  generalize bisect (fun jm => decide (table.getD jm 0 ≤ value) == true) 0 (table.length - 1) = jl at *
  simp only [beq_true, decide_eq_true_eq, decide_eq_false_iff_not, Nat.not_le] at hmet hnext
  split
  · next heq =>
    obtain ⟨j, rfl⟩ : ∃ j, jl = j + 1 := Nat.exists_eq_succ_of_ne_zero fun h => by
      rw [h, hzero] at heq
      omega
    exact ⟨j, rfl, by omega, heq ▸ hlt j (by omega), .inl (Nat.le_of_eq heq)⟩
  · next hne =>
    refine ⟨jl, rfl, by omega, by omega, ?_⟩
    rcases hnext with hnext | hnext
    · exact .inl (Nat.le_of_lt hnext)
    · exact .inr hnext

theorem locate_zero : nrLocateBsrIndexByBufferSize table 0 = 0 := by
  simp [nrLocateBsrIndexByBufferSize]

theorem locate_long {value : Nat} : nrLocateBsrIndexByBufferSize nrLongBsrTable value < 256 ∧
      (nrLocateBsrIndexByBufferSize nrLongBsrTable value = 0 ↔ value = 0) ∧
      (value ≤ 81338368 → (value : Int) ≤ longEstimate (nrLocateBsrIndexByBufferSize nrLongBsrTable value)) := by
  have hlength := length_nrLongBsrTable
  obtain ⟨hzero, hlast, -⟩ := nrLongBsrTable_ends
  rcases Nat.eq_zero_or_pos value with rfl | hpos
  · rw [locate_zero, longEstimate_zero]
    exact ⟨by omega, by simp, fun _ => Int.le_refl _⟩
  · obtain ⟨jl, hlevel, hless, habove, hbelow⟩ := locate_spec nrLongBsrTable (by omega) hzero
      (lt_of_ascends nrLongBsrTable_ascends) hpos
    rw [hlevel]
    refine ⟨by omega, by omega, fun hle => ?_⟩
    have hj : jl < 253 := by
      by_contra hge
      have := longEntry_le (Nat.le_of_not_lt hge) (by omega : jl < _)
      omega
    have hestimate := le_longEstimate (by omega : jl + 1 < 254)
    omega

theorem locate_short (value : Nat) : nrLocateBsrIndexByBufferSize nrShortBsrTable value < 32 ∧ (value ≤ 150000 →
      value ≤ shortEstimate (nrLocateBsrIndexByBufferSize nrShortBsrTable value)) := by
  have hlength := length_nrShortBsrTable
  rcases Nat.eq_zero_or_pos value with rfl | hpos
  · rw [locate_zero]
    exact ⟨by omega, fun _ => Nat.zero_le _⟩
  · obtain ⟨jl, hlevel, hless, habove, hbelow⟩ := locate_spec nrShortBsrTable (by omega) rfl
      (lt_of_ascends nrShortBsrTable_ascends) hpos
    rw [hlevel]
    refine ⟨by omega, fun hle => ?_⟩
    obtain ⟨-, -, hestimate, hlast⟩ := shortEstimate_facts (jl + 1) (by omega)
    rcases Nat.lt_or_ge (jl + 1) 31 with hlt | hge
    · have := hestimate hlt
      omega
    · obtain rfl : jl = 30 := by omega
      exact Nat.le_trans hle hlast

end Locate

section Estimate

theorem add_bmod_of_bounds {x y : Int} (hlo : -2 ^ 31 ≤ x + y.bmod (2 ^ 32)) (hhi : x + y.bmod (2 ^ 32) < 2 ^ 31) :
    (x + y).bmod (2 ^ 32) = x + y.bmod (2 ^ 32) := by
  rw [← Int.add_bmod_bmod]
  generalize x + y.bmod (2 ^ 32) = z at hlo hhi
  rw [Int.bmod_def]
  split <;> omega

theorem estimateUlBufferShortBsr_eq {level lcgId : Nat} (h : level < 32) :
    estimateUlBufferShortBsr (octet [(5, level), (3, lcgId)]) = .ok (shortEstimate level) := by
  have hlevel : (octet [(5, level), (3, lcgId)]).toNat % 32 = level := by
    simp [octet, bitFields]
    omega
  have hlength := length_nrShortBsrTable
  unfold estimateUlBufferShortBsr getBsrValue
  rw [hlevel, hlength, if_pos (by omega)]
  exact congrArg Except.ok (shortEstimate_facts level h).1

theorem estimateLongBsrLoop_eq {bsr : Nat → UInt8} (level : Nat → Option UInt8) {ns : List Nat} {m k : Nat}
    {estimSize : Int} (hbits : ∀ n ∈ ns, (bsr 0).toNat.testBit n = (level n).isSome)
    (hoctets : ∀ i l, (ns.filterMap level)[i]? = some l → bsr (m + i + 1) = l)
    (hlo : -k ≤ estimSize) (hhi : estimSize ≤ 162676736 * k) (hk : k + ns.length ≤ 8) :
    estimateLongBsrLoop bsr ns m estimSize =
      .ok (estimSize + ((ns.filterMap level).map fun l => longEstimate l.toNat).sum) := by
  induction ns generalizing m k estimSize with
  | nil => simp [estimateLongBsrLoop]
  | cons n ns ih =>
    have hbit := hbits n mem_cons_self
    have hlater : ∀ n ∈ ns, (bsr 0).toNat.testBit n = (level n).isSome :=
      fun n hn => hbits n (mem_cons_of_mem _ hn)
    rw [length_cons] at hk
    unfold estimateLongBsrLoop
    cases hlevel : level n with
    | none =>
      rw [hlevel] at hbit
      rw [filterMap_cons_none hlevel] at hoctets ⊢
      rw [hbit]
      exact ih hlater hoctets (k := k) hlo hhi (by omega)
    | some l =>
      rw [hlevel] at hbit
      rw [filterMap_cons_some hlevel] at hoctets ⊢
      have hl : bsr (m + 1) = l := hoctets 0 l rfl
      have hlength := length_nrLongBsrTable
      obtain ⟨hless, hgreater⟩ := longEstimate_bounds l.toNat
      rw [hbit, hl, hlength]
      simp only [Option.isSome_some, if_true, getBsrValue]
      rw [if_pos (by omega)]
      have hsum : (estimSize + (nrLongBsrTable.getD (min (overestimBsrIndex l.toNat) 255) 0 : Nat)).bmod (2 ^ 32) =
          estimSize + longEstimate l.toNat := by
        unfold longEstimate at *
        exact add_bmod_of_bounds (by omega) (by omega)
      simp only [ok_bind, hsum]
      rw [ih hlater (k := k + 1) (fun i l' hi => ?_) (by omega) (by omega) (by omega), map_cons, sum_cons,
        Int.add_assoc]
      rw [show m + 1 + i + 1 = m + (i + 1) + 1 by omega]
      exact hoctets (i + 1) l' (by simpa using hi)

def longEstimates (levels : List UInt8) : Int := (levels.map fun l => longEstimate l.toNat).sum

theorem estimate_long (level : Nat → Option UInt8) :
    (BsrReport.long level).estimate = .ok (longEstimates (reported level)) := by
  have hbitmap : (UInt8.ofNat (Nat.ofBits fun n : Fin 8 => (level n).isSome)).toNat =
      Nat.ofBits fun n : Fin 8 => (level n).isSome :=
    UInt8.toNat_ofNat_of_lt' (Nat.ofBits_lt_two_pow _)
  rw [BsrReport.estimate, estimateUlBufferLongBsr, estimateLongBsrLoop_eq level (k := 0), Int.zero_add]
  · rfl
  · intro n hn
    rw [BsrReport.ce, getD_cons_zero, hbitmap, Nat.testBit_ofBits_lt _ _ (mem_range.mp hn)]
  · intro i l hl
    rw [BsrReport.ce, getD_cons_succ, Nat.zero_add, getD_eq_getElem?_getD]
    exact congrArg (Option.getD · 0) hl
  · exact Int.le_refl _
  · exact Int.le_refl _
  · exact Nat.le_refl _

theorem sum_sub_sum {f : UInt8 → Int} {g h k : UInt8 → Nat} (heq : ∀ l, f l - g l = h l - k l) (levels : List UInt8) :
    (levels.map f).sum - (levels.map g).sum = (levels.map h).sum - (levels.map k).sum := by
  induction levels with
  | nil => simp
  | cons l levels ih =>
    have hl := heq l
    simp only [map_cons, sum_cons, Int.natCast_add]
    omega

theorem covered_iff (levels : List UInt8) :
    0 ≤ longEstimates levels ∧ (levels.map fun l => lowerEdge nrLongBsrTable l.toNat).sum ≤ longEstimates levels ↔
      (levels.map fun l => BsrReport.lack l.toNat).sum ≤ (levels.map fun l => BsrReport.excess l.toNat).sum := by
  have hsub := sum_sub_sum (fun l => longEstimate_sub l.toNat) levels
  rw [← longEstimates] at hsub
  omega

theorem report_iff (r : BsrReport) : r.NotUnderestimated ↔ r.Covered := by
  cases r with
  | short lcgId level =>
    obtain ⟨-, hedge, -⟩ := shortEstimate_facts level level.isLt
    refine iff_of_true ⟨shortEstimate level, estimateUlBufferShortBsr_eq level.isLt, Int.natCast_nonneg _, ?_⟩ trivial
    exact Int.ofNat_le.mpr hedge
  | long level =>
    unfold BsrReport.NotUnderestimated
    rw [estimate_long]
    refine Iff.trans ?_ (covered_iff (reported level))
    simp [BsrReport.lowerEdges]

end Estimate

section Ue

variable {levels : Nat → Nat}

def groupLevel (levels : Nat → Nat) (n : Nat) : Option UInt8 :=
  if levels n = 0 then none else some (UInt8.ofNat (levels n))

theorem writeLcgs_eq {ns : List Nat} {room : Nat} (h : ns.countP (fun n => 0 < levels n) ≤ room) :
    writeLcgs levels ns room = ns.filterMap fun n => if levels n = 0 then none else some (n, levels n) := by
  induction ns generalizing room with
  | nil => rfl
  | cons n ns ih =>
    unfold writeLcgs
    rcases Nat.eq_zero_or_pos (levels n) with hzero | hpos
    · rw [countP_cons_of_neg (by simp [hzero])] at h
      rw [if_neg (by simp [hzero]), filterMap_cons_none (by simp [hzero]), ih h]
    · rw [countP_cons_of_pos (by simpa using hpos)] at h
      rw [if_pos ⟨by omega, by omega⟩, filterMap_cons_some (by rw [if_neg (by omega)]), ih (by omega)]

theorem ce_long {paddingLen : Nat} (h : (List.range 8).countP (fun n => 0 < levels n) + 3 ≤ paddingLen) :
    (UeBsr.long false levels).ce paddingLen = (BsrReport.long (groupLevel levels)).ce := by
  rw [UeBsr.ce, BsrReport.ce, longBsrOctets, writeLcgs_eq (by omega)]
  congr 2
  · congr 1
    funext n
    rcases Nat.eq_zero_or_pos (levels n) with hn | hn
    · simp [groupLevel, hn, mem_filterMap]
    · simp [groupLevel, Nat.ne_of_gt hn, mem_filterMap]
  · rw [map_filterMap, reported]
    congr 1
    funext n
    rcases Nat.eq_zero_or_pos (levels n) with hn | hn
    · simp [groupLevel, hn]
    · simp [groupLevel, Nat.ne_of_gt hn]

theorem sum_reported {M : Type} [AddMonoid M] {f : Nat → M} (hzero : f 0 = 0) (hlt : ∀ n, levels n < 256) :
    ((reported (groupLevel levels)).map fun l => f l.toNat).sum = ((List.range 8).map fun n => f (levels n)).sum := by
  unfold reported
  induction List.range 8 with
  | nil => rfl
  | cons n ns ih =>
    rcases Nat.eq_zero_or_pos (levels n) with hn | hn
    · rw [filterMap_cons_none (by simp [groupLevel, hn]), ih, map_cons, sum_cons, hn, hzero, zero_add]
    · rw [filterMap_cons_some (by rw [groupLevel, if_neg (by omega)]), map_cons, sum_cons, ih,
        UInt8.toNat_ofNat_of_lt' (hlt n), map_cons, sum_cons]

theorem cast_sum_le {f : Nat → Nat} {g : Nat → Int} {ns : List Nat} (h : ∀ n ∈ ns, (f n : Int) ≤ g n) :
    ((ns.map f).sum : Int) ≤ (ns.map g).sum := by
  induction ns with
  | nil => simp
  | cons n ns ih =>
    have hn := h n mem_cons_self
    have hns := ih fun n hn => h n (mem_cons_of_mem _ hn)
    simp only [map_cons, sum_cons, Int.natCast_add]
    omega

variable {lcgBytes : Nat → Nat} {lcgIdBsrMax paddingLen lcgId level : Nat}

theorem chooseBsr_short (h : chooseBsr lcgBytes lcgIdBsrMax paddingLen = .short false lcgId level) :
    level = nrLocateBsrIndexByBufferSize nrShortBsrTable (lcgBytes lcgId) := by
  unfold chooseBsr at h
  simp only at h
  split_ifs at h
  · cases h
    rfl
  · cases h

theorem chooseBsr_long (h : chooseBsr lcgBytes lcgIdBsrMax paddingLen = .long false levels) :
    levels = (fun n => nrLocateBsrIndexByBufferSize nrLongBsrTable (lcgBytes n)) ∧
      (List.range 8).countP (fun n => 0 < lcgBytes n) + 3 ≤ paddingLen := by
  unfold chooseBsr at h
  simp only at h
  split_ifs at h with _ hroom
  · cases h
    exact ⟨rfl, hroom⟩
  · cases h

theorem ue_iff (s : UeStatus) : s.NotUnderestimated ↔ s.Covered := by
  unfold UeStatus.NotUnderestimated UeStatus.Covered
  cases hbsr : s.bsr with
  | none => exact Iff.rfl
  | short truncated lcgId level =>
    cases truncated with
    | true => exact Iff.rfl
    | false =>
      obtain rfl := chooseBsr_short hbsr
      obtain ⟨hlt, hbytes⟩ := locate_short (s.lcgBytes lcgId)
      obtain ⟨-, hedge, -⟩ := shortEstimate_facts _ hlt
      refine iff_of_true ⟨_, estimateUlBufferShortBsr_eq hlt, Int.natCast_nonneg _, Int.ofNat_le.mpr hedge, ?_⟩ trivial
      exact fun hle => Int.ofNat_le.mpr (hbytes hle)
  | long truncated levels =>
    cases truncated with
    | true => exact Iff.rfl
    | false =>
      obtain ⟨rfl, hroom⟩ := chooseBsr_long hbsr
      generalize hlevels : (fun n => nrLocateBsrIndexByBufferSize nrLongBsrTable (s.lcgBytes n)) = levels at *
      have hlt : ∀ n, levels n < 256 := fun n => by rw [← hlevels]; exact locate_long.1
      have hdata : ∀ n, 0 < levels n ↔ 0 < s.lcgBytes n := fun n => by
        rw [← hlevels, Nat.pos_iff_ne_zero, Nat.pos_iff_ne_zero]
        exact not_congr locate_long.2.1
      have hbytes : (∀ n < 8, s.lcgBytes n ≤ 81338368) →
          ((List.range 8).map s.lcgBytes).sum ≤ longEstimates (reported (groupLevel levels)) := by
        intro hle
        rw [longEstimates, sum_reported longEstimate_zero hlt]
        refine cast_sum_le fun n hn => ?_
        rw [← hlevels]
        exact locate_long.2.2 (hle n (mem_range.mp hn))
      have hestimate : estimateUlBufferLongBsr (((UeBsr.long false levels).ce s.paddingLen).getD · 0) =
          .ok (longEstimates (reported (groupLevel levels))) := by
        rw [ce_long (by simpa only [hdata] using hroom)]
        exact estimate_long _
      have hcovered := covered_iff (reported (groupLevel levels))
      rw [sum_reported rfl hlt, sum_reported rfl hlt, sum_reported rfl hlt] at hcovered
      simp only [hestimate]
      rw [← hcovered]
      constructor
      · rintro ⟨_, heq, hnonneg, hedges, -⟩
        cases heq
        exact ⟨hnonneg, hedges⟩
      · rintro ⟨hnonneg, hedges⟩
        exact ⟨_, rfl, hnonneg, hedges, hbytes⟩

end Ue

/-- No report is estimated below the lower edges of its levels, whether a UE built it or not, unless a long
report has one of the last levels and the other groups do not make up for it. Up to the last finite level, the
estimate is not below the bytes that a UE has. -/
theorem bsr_not_underestimated_iff (r : BsrReport) (s : UeStatus) :
    (r.NotUnderestimated ↔ r.Covered) ∧ (s.NotUnderestimated ↔ s.Covered) :=
  ⟨report_iff r, ue_iff s⟩

/-- Level 254 for one group, which is more than 81338368 bytes, is estimated as -1. -/
theorem level_254_estimated_negative : let r := BsrReport.long fun n => if n = 0 then some 254 else none
    r.ce = [1, 254] ∧ r.estimate = .ok (-1) ∧ r.lowerEdges = 81338368 := by
  decide +kernel

end OaiNr.Mac
