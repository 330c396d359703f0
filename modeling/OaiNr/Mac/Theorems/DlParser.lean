import OaiNr.Lib.Fallible
import OaiNr.Mac.UeMsgB

/-!
# Which downlink MAC PDUs the UE reads safely

The UE compares the length of an SDU with what is left of the PDU, but the subheader is in there as well.
-/

namespace OaiNr.Mac

open List

variable {pdu rest : List UInt8} {b : UInt8}

section MsgB

theorem nextMsgB_shrinks : Shrinks length nextMsgB := by
  rintro (_ | ⟨b, rest⟩) l' h
  · cases h
  · simp only [nextMsgB] at h
    split at h
    · cases h
      unfold msgBLen
      split <;> rw [length_drop, length_cons] <;> omega
    · cases h

theorem afterMsgB_stop (h : nextMsgB (b :: rest) = none) :
    afterMsgB (b :: rest) = (b :: rest).drop (msgBLen b) := by
  rw [afterMsgB, stations_stop nextMsgB_shrinks (by simp) h]
  rfl

theorem afterMsgB_step {l' : List UInt8} (h : nextMsgB (b :: rest) = some l') :
    afterMsgB (b :: rest) = afterMsgB l' := by
  rw [afterMsgB, afterMsgB, stations_cons nextMsgB_shrinks h]
  cases hl : stations length nextMsgB l' with
  | nil =>
    -- there is nothing behind this subPDU
    cases l' with
    | nil =>
      simp only [nextMsgB] at h
      split at h
      · simpa using h
      · cases h
    | cons b' rest' =>
      rw [stations_elim nextMsgB_shrinks (by simp)] at hl
      cases hl
  | cons p ps => rw [List.getLast?_cons_cons]

theorem successrarLoop_complete {l : List UInt8} (h : CompleteMsgB (b :: l)) (fuel : Nat) :
    successrarLoop (fuel + 1) (b :: l) = if b.toNat / 128 % 2 = 1 then
      successrarLoop fuel ((b :: l).drop (msgBLen b)) else .ok ((b :: l).drop (msgBLen b)) := by
  obtain ⟨hkind, hlen⟩ := h
  rw [successrarLoop]
  simp only [if_pos hkind, msgBLen] at hlen ⊢
  split at hlen
  · next hbackoff => simp only [if_pos hbackoff, drop_succ_cons, drop_zero]
  · next hrar =>
    simp only [if_neg hrar, if_neg (show ¬ l.length < 11 by omega), drop_succ_cons]

theorem successrarLoop_incomplete {l : List UInt8} (h : ¬ CompleteMsgB (b :: l)) (fuel : Nat) :
    ∃ f, successrarLoop (fuel + 1) (b :: l) = .error f := by
  rw [successrarLoop]
  by_cases hkind : b.toNat / 64 % 2 = 0
  · have hlen : ¬ msgBLen b ≤ l.length + 1 := fun hlen => h ⟨hkind, hlen⟩
    unfold msgBLen at hlen
    split at hlen
    · omega
    · next hrar =>
      simp only [if_pos hkind, if_neg hrar, if_pos (show l.length < 11 by omega)]
      exact ⟨_, rfl⟩
  · exact ⟨_, if_neg hkind⟩

theorem successrarLoop_iff {fuel : Nat} (hfuel : pdu.length < fuel) :
    successrarLoop fuel pdu = .ok rest ↔
      (∀ p ∈ stations length nextMsgB pdu, CompleteMsgB p) ∧ rest = afterMsgB pdu := by
  induction fuel generalizing pdu with
  | zero => omega
  | succ fuel ih =>
    cases pdu with
    | nil => simp [successrarLoop, afterMsgB, stations_nil, eq_comm]
    | cons b l =>
      by_cases hcomplete : CompleteMsgB (b :: l)
      · rw [successrarLoop_complete hcomplete]
        by_cases hmore : b.toNat / 128 % 2 = 1
        · have hnext : nextMsgB (b :: l) = some ((b :: l).drop (msgBLen b)) := if_pos hmore
          have hless := nextMsgB_shrinks _ _ hnext
          rw [length_cons] at hless hfuel
          rw [if_pos hmore, ih (by omega), stations_cons nextMsgB_shrinks hnext, afterMsgB_step hnext,
            forall_mem_cons, and_iff_right hcomplete]
        · have hnext : nextMsgB (b :: l) = none := if_neg hmore
          rw [if_neg hmore, stations_stop nextMsgB_shrinks (by simp) hnext, afterMsgB_stop hnext, forall_mem_singleton,
            and_iff_right hcomplete, Except.ok.injEq, eq_comm]
      · obtain ⟨f, hf⟩ := successrarLoop_incomplete hcomplete fuel
        rw [hf]
        simp only [reduceCtorEq, false_iff, not_and]
        intro hall
        exact absurd (hall _ (by rw [stations_elim nextMsgB_shrinks (by simp)]; exact mem_cons_self)) hcomplete

end MsgB

section Walk

variable {ue : UeMac} {b : UInt8} {l : List UInt8}

theorem firstLcid_cons (b : UInt8) (l : List UInt8) : firstLcid (b :: l) = lcidOf b := rfl

theorem getMacLen_subheader (pdu : List UInt8) : 0 < (getMacLen pdu).subheader := by
  unfold getMacLen
  split
  · split
    · split <;> simp
    · simp
  · simp

theorem subPduLen_pos (pdu : List UInt8) : 0 < subPduLen pdu := by
  have hsub := getMacLen_subheader pdu
  unfold subPduLen
  split_ifs <;> omega

theorem nextSubPdu_shrinks : Shrinks DlWalk.left nextSubPdu := by
  rintro ⟨ue, p⟩ w' h
  have hpos := subPduLen_pos p
  unfold nextSubPdu at h
  obtain ⟨⟨-, hle⟩, h⟩ := Option.ite_none_right_eq_some.mp h
  cases h
  simp only [DlWalk.left, length_drop]
  omega

theorem len_eq_zero_of_all_zero
    (hzero : (pdu.take ((getMacLen pdu).subheader + (getMacLen pdu).len)).all (· == 0) = true) :
    (getMacLen pdu).len = 0 := by
  rcases pdu with _ | ⟨b, _ | ⟨n, l⟩⟩
  · rfl
  · rfl
  · obtain ⟨k, hk⟩ := Nat.exists_eq_succ_of_ne_zero
      (Nat.ne_of_gt (Nat.add_pos_left (getMacLen_subheader (b :: n :: l)) (getMacLen (b :: n :: l)).len))
    rw [hk, take_succ_cons, all_cons, Bool.and_eq_true, beq_iff_eq] at hzero
    obtain ⟨rfl, hzero⟩ := hzero
    have hshort : getMacLen (0 :: n :: l) = ⟨n.toNat ≤ l.length + 2, 2, n.toNat⟩ := rfl
    rw [hshort] at hk ⊢
    obtain rfl : k = n.toNat + 1 := by simp only at hk; omega
    rw [take_succ_cons, all_cons, Bool.and_eq_true, beq_iff_eq] at hzero
    rw [hzero.1]
    rfl

theorem dataInd_ok {lcid : Nat} {m : MacLen} (h : m.subheader + m.len ≤ pdu.length) :
    dataInd pdu lcid m = .ok ⟨m.subheader, m.len, some (lcid, (pdu.drop m.subheader).take m.len), .next⟩ :=
  if_pos h

structure Visits (ue : UeMac) (pdu : List UInt8) (v : Visit) : Prop where
  len : v.subheader + v.len = subPduLen pdu
  ind : v.ind.isSome = ue.collects pdu
  verdict : v.verdict = .next ↔ ue.goesOn pdu = true

inductive Round (ue : UeMac) (pdu : List UInt8) : Except Fault Visit → Prop where
  | visits {v : Visit} (complete : ue.Complete pdu) (visits : Visits ue pdu v) : Round ue pdu (.ok v)
  | fails {f : Fault} (incomplete : ¬ ue.Complete pdu) : Round ue pdu (.error f)

theorem round_ccch (h : firstLcid pdu = 0) : Round ue pdu (visitCcch pdu) := by
  have hlen : subPduLen pdu = (getMacLen pdu).subheader + (getMacLen pdu).len := by simp [subPduLen, h]
  unfold visitCcch
  simp only
  split
  · next hvalid =>
    split
    · next hzero =>
      have hnone := len_eq_zero_of_all_zero hzero
      refine .visits ?_ ⟨hlen.symm, ?_, ?_⟩
      · simp [UeMac.Complete, h, hvalid, hnone]
      · simp [UeMac.collects, h, hnone]
      · simp [UeMac.goesOn, h, hlen, hzero]
    · next hzero =>
      have hgoes : ue.goesOn pdu = true := by simpa [UeMac.goesOn, h, hlen] using hzero
      split
      · next hpos =>
        rcases Nat.lt_or_ge pdu.length ((getMacLen pdu).subheader + (getMacLen pdu).len) with hover | hfits
        · rw [dataInd, if_neg (by omega)]
          refine .fails ?_
          simp [UeMac.Complete, h, hlen]
          omega
        · rw [dataInd_ok hfits]
          refine .visits ?_ ⟨hlen.symm, ?_, ?_⟩
          · simp [UeMac.Complete, h, hvalid, hlen, hfits]
          · simp [UeMac.collects, h, hgoes, hpos]
          · simp [hgoes]
      · next hnone =>
        refine .visits ?_ ⟨hlen.symm, ?_, ?_⟩
        · simp [UeMac.Complete, h, hvalid, Nat.eq_zero_of_not_pos hnone]
        · simp [UeMac.collects, h, Nat.eq_zero_of_not_pos hnone]
        · simp [hgoes]
  · next hvalid =>
    refine .fails ?_
    simp [UeMac.Complete, h, hvalid]

theorem round_sdu (h0 : firstLcid pdu ≠ 0) (h32 : firstLcid pdu ≤ 32) :
    Round ue pdu (ue.visitSdu pdu (firstLcid pdu)) := by
  have hlen : subPduLen pdu = (getMacLen pdu).subheader + (getMacLen pdu).len := by simp [subPduLen, h32]
  have h3D : firstLcid pdu ≠ 0x3D := by omega
  have h3E : firstLcid pdu ≠ 0x3E := by omega
  have h3F : firstLcid pdu ≠ 0x3F := by omega
  unfold UeMac.visitSdu
  simp only
  split
  · next hvalid =>
    have hgoes : ue.goesOn pdu = true := by simp [UeMac.goesOn, h0, h3D, h3E, h3F, hvalid]
    split
    · next hsuspended =>
      have hnot : ue.collects pdu = false := by simp [UeMac.collects, h0, hsuspended]
      refine .visits ?_ ⟨hlen.symm, hnot.symm, ?_⟩
      · simp [UeMac.Complete, h0, h3D, h3E, hnot]
      · simp [hgoes]
    · next hsuspended =>
      have hcollects : ue.collects pdu = true := by simp [UeMac.collects, h0, h32, hvalid, hsuspended]
      rcases Nat.lt_or_ge pdu.length ((getMacLen pdu).subheader + (getMacLen pdu).len) with hover | hfits
      · rw [dataInd, if_neg (by omega)]
        refine .fails ?_
        simp [UeMac.Complete, h0, h3D, h3E, hcollects, hlen, hover]
      · rw [dataInd_ok hfits]
        refine .visits ?_ ⟨hlen.symm, hcollects.symm, ?_⟩
        · simp [UeMac.Complete, h0, h3D, h3E, hlen, hfits]
        · simp [hgoes]
  · next hvalid =>
    have hnot : ue.collects pdu = false := by simp [UeMac.collects, h0, hvalid]
    refine .visits ?_ ⟨hlen.symm, hnot.symm, ?_⟩
    · simp [UeMac.Complete, h0, h3D, h3E, hnot]
    · simp [UeMac.goesOn, h0, h3D, h3E, h3F, hvalid, h32]

theorem round_ta {l : List UInt8} (h : firstLcid (b :: l) = 0x3D) :
    Round ue (b :: l) (ue.visitTa (b :: l)) := by
  cases l with
  | nil =>
    refine .fails ?_
    simp [UeMac.Complete, h]
  | cons ta l =>
    refine .visits ?_ ⟨?_, ?_, ?_⟩
    · simp [UeMac.Complete, h]
    · simp [subPduLen, h, variableCes]
    · simp [UeMac.collects, h]
    · simp [UeMac.goesOn, h]

theorem round_contRes (h : firstLcid pdu = 0x3E) : Round ue pdu (ue.visitContRes pdu) := by
  have hlen : subPduLen pdu = 7 := by simp [subPduLen, h, variableCes]
  unfold UeMac.visitContRes
  split
  · next hnone =>
    refine .visits ?_ ⟨hlen.symm, ?_, ?_⟩
    · simp [UeMac.Complete, h, hnone]
    · simp [UeMac.collects, h]
    · simp [UeMac.goesOn, h, hnone]
  · next own hown =>
    split
    · next hseven =>
      refine .visits ?_ ⟨hlen.symm, ?_, ?_⟩
      · simp [UeMac.Complete, h, hseven]
      · simp [UeMac.collects, h]
      · simp [UeMac.goesOn, h, hown]
    · next hseven =>
      refine .fails ?_
      simp [UeMac.Complete, h, hown]
      omega

theorem round_skipped {subheader len : Nat} (h32 : 32 < firstLcid pdu) (h3D : firstLcid pdu ≠ 0x3D)
    (h3E : firstLcid pdu ≠ 0x3E) (h3F : firstLcid pdu ≠ 0x3F) (hlen : subheader + len = subPduLen pdu) :
    Round ue pdu (.ok ⟨subheader, len, none, .next⟩) := by
  have h0 : firstLcid pdu ≠ 0 := by omega
  have hnot : ue.collects pdu = false := by simp [UeMac.collects, h0, Nat.not_le.mpr h32]
  refine .visits ?_ ⟨hlen, hnot.symm, ?_⟩
  · simp [UeMac.Complete, h0, h3D, h3E, hnot]
  · simp [UeMac.goesOn, h0, h3D, h3E, h3F, h32]

theorem round_visit (ue : UeMac) (b : UInt8) (l : List UInt8) : Round ue (b :: l) (ue.visit (b :: l) (lcidOf b)) := by
  rw [← firstLcid_cons b l]
  unfold UeMac.visit
  split_ifs with h0 hvariable h3D h3E h3F h32
  · exact round_ccch h0
  · have hmem := hvariable
    simp only [variableCes, mem_cons, not_mem_nil, or_false] at hmem
    exact round_skipped (by omega) (by omega) (by omega) (by omega) (by simp [subPduLen, hvariable])
  · exact round_ta h3D
  · exact round_contRes h3E
  · refine .visits ?_ ⟨?_, ?_, ?_⟩
    · simp [UeMac.Complete, h3F, UeMac.collects]
    · simp [subPduLen, h3F, variableCes]
    · simp [UeMac.collects, h3F]
    · simp [UeMac.goesOn, h3F]
  · exact round_sdu h0 h32
  · exact round_skipped (by omega) h3D h3E h3F (by simp [subPduLen, h32, hvariable, h3D, h3E, h3F])

theorem length_ind {ind : Option Sdu} {dataInd : List Sdu} :
    (dataInd ++ ind.toList).length = dataInd.length + if ind.isSome then 1 else 0 := by
  cases ind <;> simp

theorem stopped_iff {r : Parsed} {v : Visit} (hstop : nextSubPdu (ue, b :: l) = none) (hcomplete : ue.Complete (b :: l))
    (hind : v.ind.isSome = ue.collects (b :: l)) (hroom : (r.dataInd ++ v.ind.toList).length < maxNumDataInd) :
    (∀ w ∈ stations DlWalk.left nextSubPdu (ue, b :: l), w.1.Complete w.2) ∧ r.dataInd.length +
      (stations DlWalk.left nextSubPdu (ue, b :: l)).countP (fun w => w.1.collects w.2) < maxNumDataInd := by
  rw [stations_stop nextSubPdu_shrinks (by simp [DlWalk.left]) hstop, forall_mem_singleton, countP_singleton]
  rw [length_ind, hind] at hroom
  exact ⟨hcomplete, hroom⟩

theorem walk_iff {fuel : Nat} (hfuel : pdu.length < fuel) (r : Parsed) (hr : r.dataInd.length < maxNumDataInd) :
    (∃ r', ue.walk fuel pdu r = .ok r') ↔ (∀ w ∈ stations DlWalk.left nextSubPdu (ue, pdu), w.1.Complete w.2) ∧
      r.dataInd.length + (stations DlWalk.left nextSubPdu (ue, pdu)).countP (fun w => w.1.collects w.2) <
        maxNumDataInd := by
  induction fuel generalizing ue pdu r with
  | zero => omega
  | succ fuel ih =>
    cases pdu with
    | nil =>
      rw [stations_nil (rfl : DlWalk.left (ue, []) = 0)]
      simpa [UeMac.walk] using hr
    | cons b l =>
      have hround := round_visit ue b l
      have hfirst : (ue, b :: l) ∈ stations DlWalk.left nextSubPdu (ue, b :: l) := by
        rw [stations_elim nextSubPdu_shrinks (by simp [DlWalk.left])]
        exact mem_cons_self
      rw [UeMac.walk]
      cases hvisit : ue.visit (b :: l) (lcidOf b) with
      | error f =>
        rw [hvisit] at hround
        cases hround with
        | fails hincomplete =>
          refine iff_of_false (by rintro ⟨_, ⟨⟩⟩) fun h => hincomplete (h.1 _ hfirst)
      | ok v =>
        rw [hvisit] at hround
        cases hround with
        | visits hcomplete hv =>
        simp only [ok_bind, hv.len]
        by_cases hfull : v.ind.isSome ∧ maxNumDataInd ≤ (r.dataInd ++ v.ind.toList).length
        · -- the entries run out
          rw [if_pos hfull]
          refine iff_of_false (by rintro ⟨_, ⟨⟩⟩) fun h => ?_
          have hcount : 0 < (stations DlWalk.left nextSubPdu (ue, b :: l)).countP (fun w => w.1.collects w.2) :=
            countP_pos_iff.mpr ⟨_, hfirst, hv.ind ▸ hfull.1⟩
          have hmany := hfull.2
          rw [length_ind, if_pos hfull.1] at hmany
          omega
        · have hroom : (r.dataInd ++ v.ind.toList).length < maxNumDataInd := by
            rw [length_ind] at hfull ⊢
            split
            · next hsome =>
              rw [if_pos hsome] at hfull
              exact Nat.lt_of_not_le (not_and.mp hfull hsome)
            · exact hr
          rw [if_neg hfull]
          by_cases hgoes : ue.goesOn (b :: l) = true ∧ subPduLen (b :: l) ≤ (b :: l).length
          · have hnext : nextSubPdu (ue, b :: l) = some (ue.after (lcidOf b), (b :: l).drop (subPduLen (b :: l))) :=
              if_pos hgoes
            have hless : ((b :: l).drop (subPduLen (b :: l))).length < (b :: l).length := nextSubPdu_shrinks _ _ hnext
            rw [hv.verdict.mpr hgoes.1]
            simp only
            rw [if_neg (by simpa using hgoes.2), ih (by omega) _ hroom, length_ind, hv.ind]
            rw [stations_cons nextSubPdu_shrinks hnext, forall_mem_cons, and_iff_right hcomplete,
              countP_cons]
            refine and_congr_right fun _ => ?_
            dsimp only
            omega
          · have hnext : nextSubPdu (ue, b :: l) = none := if_neg hgoes
            refine iff_of_true ?_ (stopped_iff hnext hcomplete hv.ind hroom)
            cases hverdict : v.verdict with
            | discard => exact ⟨_, rfl⟩
            | done => exact ⟨_, rfl⟩
            | next =>
              have hover := not_and.mp hgoes (hv.verdict.mp hverdict)
              exact ⟨_, if_pos (by simpa using hover)⟩

theorem processMacPdu_iff (ue : UeMac) (pdu : List UInt8) :
    (∃ r, ue.processMacPdu pdu = .ok r) ↔ ue.WellFormed pdu := by
  rw [UeMac.processMacPdu, walk_iff (Nat.lt_succ_self _) _ (by decide)]
  simp only [length_nil, Nat.zero_add]
  exact ⟨fun h => ⟨h.1, h.2⟩, fun h => ⟨h.complete, h.few⟩⟩

end Walk

/-- The UE reads inside of the PDU, hands RLC data from inside of the PDU and meets no failing assertion, exactly
when the PDU is well formed for it. -/
theorem dl_parser_safe_iff (ue : UeMac) (waitMsgB : Bool) (pdu : List UInt8) :
    (∃ r, ue.processDlPdu waitMsgB pdu = .ok r) ↔ if waitMsgB then ue.WellFormedMsgB pdu else ue.WellFormed pdu := by
  unfold UeMac.processDlPdu
  cases waitMsgB with
  | false => exact processMacPdu_iff ue pdu
  | true =>
    simp only [if_true, nrUeValidateSuccessrar]
    constructor
    · rintro ⟨r, h⟩
      obtain ⟨rest, hrest, h⟩ := bind_eq_ok.mp h
      obtain ⟨after, hloop, hrest⟩ := bind_eq_ok.mp hrest
      obtain ⟨hcomplete, rfl⟩ := (successrarLoop_iff (Nat.lt_succ_self _)).mp hloop
      split at hrest
      · cases hrest
      · next hlen =>
        cases hrest
        exact ⟨hcomplete, by omega, (processMacPdu_iff _ _).mp ⟨r, h⟩⟩
    · rintro ⟨hcomplete, hlen, hrest⟩
      obtain ⟨r, h⟩ := (processMacPdu_iff _ _).mpr hrest
      refine ⟨r, bind_eq_ok.mpr ⟨afterMsgB pdu, bind_eq_ok.mpr ⟨afterMsgB pdu, ?_, ?_⟩, h⟩⟩
      · exact (successrarLoop_iff (Nat.lt_succ_self _)).mpr ⟨hcomplete, rfl⟩
      · exact if_neg (by omega)

/-- A PDU of two octets: an SDU of channel 4 with a length of two. RLC gets two octets behind the PDU. Below, a
timing advance command without its octet, and a message of the common channel without a length -/
theorem truncated_dl_pdus_fail : let ue : UeMac := ⟨0, [(4, false)], none, false⟩
    ue.processDlPdu false [4, 2] = .error .outOfBounds ∧ ue.processDlPdu false [0x3D] = .error .outOfBounds ∧
      ue.processDlPdu false [0] = .error .assertFatal :=
  ⟨rfl, rfl, rfl⟩

end OaiNr.Mac
