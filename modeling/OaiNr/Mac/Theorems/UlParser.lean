import OaiNr.Lib.Fallible
import OaiNr.Mac.GnbUlsch

/-!
# What the gNB reads of an uplink MAC PDU

A subheader is decoded before its octets are known to be there, and the levels of a long BSR are read by its bitmap,
whatever its length is.
-/

namespace OaiNr.Mac

open List

variable {pdu : List UInt8}

section Header

variable {behind : Nat → UInt8} {b : UInt8} {l : List UInt8}

theorem octetAt_of_lt {i : Nat} (h : i < pdu.length) : octetAt behind pdu i = pdu.getD i 0 := by
  simp [octetAt, h]

theorem decode_subheader (behind : Nat → UInt8) (b : UInt8) (l : List UInt8) :
    (decodeUlMacSubPduHeader (octetAt behind (b :: l))).subheader = (ulHeader (b :: l)).subheader := by
  have hfirst : octetAt behind (b :: l) 0 = (b :: l).getD 0 0 := rfl
  unfold ulHeader decodeUlMacSubPduHeader
  simp only [hfirst]
  split_ifs <;> rfl

theorem decode_eq (h : HasSubheader pdu) :
    decodeUlMacSubPduHeader (octetAt behind pdu) = ulHeader pdu := by
  unfold HasSubheader ulHeader decodeUlMacSubPduHeader at *
  simp only at *
  split_ifs at h with hlength hlong
  · simp only at h
    simp [octetAt_of_lt (show 0 < pdu.length by omega), octetAt_of_lt (show 1 < pdu.length by omega),
      octetAt_of_lt (show 2 < pdu.length by omega)]
  · simp only at h
    simp only [octetAt_of_lt (show 0 < pdu.length by omega), octetAt_of_lt (show 1 < pdu.length by omega), hlength,
      hlong]
    simp
  · simp only at h
    simp only [octetAt_of_lt (show 0 < pdu.length by omega), hlength]
    simp

theorem subheader_pos (pdu : List UInt8) : 0 < (ulHeader pdu).subheader := by
  unfold ulHeader decodeUlMacSubPduHeader
  simp only
  split_ifs <;> simp

theorem whole_iff : (b :: l).length < (decodeUlMacSubPduHeader (octetAt behind (b :: l))).subheader +
    (decodeUlMacSubPduHeader (octetAt behind (b :: l))).len ↔ ¬ ulSubPduLen (b :: l) ≤ (b :: l).length := by
  by_cases h : HasSubheader (b :: l)
  · rw [decode_eq h, ulSubPduLen]
    omega
  · have hsub := decode_subheader behind b l
    unfold HasSubheader at h
    unfold ulSubPduLen
    omega

theorem hasSubheader_of_whole (h : ulSubPduLen pdu ≤ pdu.length) : HasSubheader pdu :=
  Nat.le_trans (Nat.le_add_right _ _) h

theorem ulHeader_fixed (pdu : List UInt8) (h : hasUlLength (ulHeader pdu).lcid = false) :
    ulHeader pdu = ⟨(ulHeader pdu).lcid, 1, fixedUlLen (ulHeader pdu).lcid⟩ := by
  have hlcid : (ulHeader pdu).lcid = lcidOf (pdu.getD 0 0) := by
    unfold ulHeader decodeUlMacSubPduHeader
    simp only
    split_ifs <;> rfl
  rw [hlcid] at h ⊢
  unfold ulHeader decodeUlMacSubPduHeader
  simp only [h]
  rfl

theorem ulStep_pos (pdu : List UInt8) (n : Nat) : 0 < ulStep (ulHeader pdu) n := by
  have hpos := subheader_pos pdu
  unfold ulStep
  split <;> omega

theorem drop_shrinks {c : List UInt8 → Prop} [DecidablePred c] {len : List UInt8 → Nat} (hlen : ∀ pdu, 0 < len pdu) :
    Shrinks length fun pdu => if ulSubPduLen pdu ≤ pdu.length ∧ c pdu then some (pdu.drop (len pdu)) else none := by
  intro p p' h
  have hpos := subheader_pos p
  have hstep := hlen p
  obtain ⟨⟨hwhole, _⟩, hdrop⟩ := Option.ite_none_right_eq_some.mp h
  cases hdrop
  rw [ulSubPduLen] at hwhole
  rw [length_drop]
  omega

theorem nextUlSubPdu_shrinks : Shrinks length nextUlSubPdu := drop_shrinks fun pdu => ulStep_pos pdu _

theorem nextLookahead_shrinks : Shrinks length nextLookahead :=
  drop_shrinks fun pdu => Nat.add_pos_left (subheader_pos pdu) _

end Header

section Safe

variable {α : Type} {a : Access} {accesses accesses' : List Access} {result : Except Fault α}

theorem safe_ok {x : α} : Safe accesses (.ok x : Except Fault α) ↔ ∀ a ∈ accesses, a.reads ≤ a.limit :=
  ⟨fun h => h.inside, fun h => ⟨by simp, h⟩⟩

theorem safe_cons : Safe (a :: accesses) result ↔ a.reads ≤ a.limit ∧ Safe accesses result := by
  constructor
  · intro h
    exact ⟨h.inside a mem_cons_self, h.ends, fun a ha => h.inside a (mem_cons_of_mem _ ha)⟩
  · rintro ⟨ha, h⟩
    exact ⟨h.ends, forall_mem_cons.mpr ⟨ha, h.inside⟩⟩

theorem safe_append :
    Safe (accesses ++ accesses') result ↔ (∀ a ∈ accesses, a.reads ≤ a.limit) ∧ Safe accesses' result := by
  constructor
  · intro h
    exact ⟨fun a ha => h.inside a (mem_append_left _ ha), h.ends,
      fun a ha => h.inside a (mem_append_right _ ha)⟩
  · rintro ⟨hleft, h⟩
    exact ⟨h.ends, forall_mem_append.mpr ⟨hleft, h.inside⟩⟩

end Safe

section Lookahead

variable {behind : Nat → UInt8}

theorem crntiLoop_safe_iff {fuel : Nat} (hfuel : pdu.length < fuel) :
    Safe (crntiLoop behind fuel pdu).accesses (crntiLoop behind fuel pdu).crnti ↔
      ∀ p ∈ stations length nextLookahead pdu, HasSubheader p := by
  induction fuel generalizing pdu with
  | zero => omega
  | succ fuel ih =>
    cases pdu with
    | nil => exact iff_of_true ⟨by simp [crntiLoop], by simp [crntiLoop]⟩ (by simp [stations_nil])
    | cons b l =>
      rw [crntiLoop]
      by_cases hwhole : ulSubPduLen (b :: l) ≤ (b :: l).length
      · have hsub := hasSubheader_of_whole hwhole
        have hfits : ¬ l.length + 1 < (ulHeader (b :: l)).subheader + (ulHeader (b :: l)).len := Nat.not_lt.mpr hwhole
        simp only [decode_eq hsub, if_neg hfits]
        split_ifs with hcrnti hpadding
        · have hnext : nextLookahead (b :: l) = none := if_neg fun h => h.2.1 hcrnti
          have hfixed := ulHeader_fixed (b :: l) (by rw [hcrnti]; rfl)
          rw [stations_stop nextLookahead_shrinks (by simp) hnext, forall_mem_singleton, safe_ok]
          refine iff_of_true ?_ hsub
          rw [forall_mem_cons, forall_mem_singleton, hfixed, hcrnti]
          exact ⟨by simp, by decide⟩
        · have hnext : nextLookahead (b :: l) = none := if_neg fun h => h.2.2 hpadding
          rw [stations_stop nextLookahead_shrinks (by simp) hnext, forall_mem_singleton, safe_ok, forall_mem_singleton]
          exact Iff.rfl
        · have hnext : nextLookahead (b :: l) = some ((b :: l).drop (ulSubPduLen (b :: l))) :=
            if_pos ⟨hwhole, hcrnti, hpadding⟩
          have hless := nextLookahead_shrinks _ _ hnext
          rw [length_cons] at hless hfuel
          rw [stations_cons nextLookahead_shrinks hnext, forall_mem_cons, safe_cons, ← ulSubPduLen, ih (by omega)]
          exact Iff.rfl
      · have hnext : nextLookahead (b :: l) = none := if_neg fun h => hwhole h.1
        have hbroken := (@whole_iff behind b l).mpr hwhole
        rw [length_cons] at hbroken
        simp only [if_pos hbroken]
        rw [stations_stop nextLookahead_shrinks (by simp) hnext, forall_mem_singleton, safe_ok, forall_mem_singleton]
        simp only [decode_subheader]
        exact Iff.rfl

end Lookahead

section Handle

variable {behind : Nat → UInt8} {pdu : List UInt8} {s : UlState}

theorem estimateUlBufferShortBsr_ok (o : UInt8) : ∃ estimate, estimateUlBufferShortBsr o = .ok estimate := by
  have hlength : nrShortBsrTable.length = 32 := rfl
  unfold estimateUlBufferShortBsr getBsrValue
  rw [hlength, if_pos (by omega)]
  exact ⟨_, rfl⟩

theorem estimateLongBsrLoop_ok (o : Nat → UInt8) (ns : List Nat) (m : Nat) (estimSize : Int) :
    ∃ estimate, estimateLongBsrLoop o ns m estimSize = .ok estimate := by
  induction ns generalizing m estimSize with
  | nil => exact ⟨_, rfl⟩
  | cons n ns ih =>
    have hlength : nrLongBsrTable.length = 256 := by decide +kernel
    unfold estimateLongBsrLoop getBsrValue
    split
    · rw [hlength, if_pos (by omega)]
      exact ih _ _
    · exact ih _ _

theorem fixed_of_two {n : Nat} (h : ulCase n = .phr ∨ ulCase n = .cRnti) :
    hasUlLength n = false ∧ fixedUlLen n = 2 := by
  unfold ulCase at h
  split_ifs at h with _ _ _ _ hn hn <;> simp at h
  · exact hn ▸ ⟨rfl, rfl⟩
  · exact hn ▸ ⟨rfl, rfl⟩

theorem fixed_of_shortBsr {n : Nat} (h : ulCase n = .shortBsr) : hasUlLength n = false ∧ fixedUlLen n = 1 := by
  unfold ulCase at h
  split_ifs at h with _ _ _ _ _ _ hn
  rcases hn with rfl | rfl <;> exact ⟨rfl, rfl⟩

theorem handle_inside_iff (hwhole : ulSubPduLen pdu ≤ pdu.length) :
    (∀ a ∈ (s.handle (octetAt behind pdu) pdu (ulHeader pdu)).1, a.reads ≤ a.limit) ↔ HasLevels pdu := by
  unfold UlState.handle HasLevels
  have hlen : ∀ k, hasUlLength (ulHeader pdu).lcid = false → fixedUlLen (ulHeader pdu).lcid = k →
      (ulHeader pdu).subheader = 1 ∧ (ulHeader pdu).len = k := by
    intro k hfixed hk
    rw [ulHeader_fixed pdu hfixed]
    exact ⟨rfl, hk⟩
  cases hcase : ulCase (ulHeader pdu).lcid with
  | ccch => simp
  | srb => simp
  | dtch => simp
  | ignored => simp
  | phr =>
    obtain ⟨hsub, hk⟩ := hlen 2 (fixed_of_two (.inl hcase)).1 (fixed_of_two (.inl hcase)).2
    simp [hk]
  | cRnti =>
    obtain ⟨hsub, hk⟩ := hlen 2 (fixed_of_two (.inr hcase)).1 (fixed_of_two (.inr hcase)).2
    cases s.ue.raIdle <;> simp [hsub, hk]
  | shortBsr =>
    obtain ⟨hsub, hk⟩ := hlen 1 (fixed_of_shortBsr hcase).1 (fixed_of_shortBsr hcase).2
    simp [hk]
  | longBsr =>
    simp only [forall_mem_singleton, forall_const, hwhole]
    unfold ulSubPduLen at hwhole
    rcases Nat.eq_zero_or_pos (ulHeader pdu).len with hzero | hpos
    · omega
    · rw [octetAt_of_lt (by omega)]
      omega
  | last => simp

end Handle

section Process

variable {behind : Nat → UInt8} {b : UInt8} {l : List UInt8} {s : UlState} {fuel : Nat}

/-- What the walk does at a station: what it reads, and the state or the error -/
def ulVisit (behind : Nat → UInt8) (pdu : List UInt8) (s : UlState) : List Access × Except Fault UlState :=
  let header : Access := ⟨(ulHeader pdu).subheader, pdu.length⟩
  if ulSubPduLen pdu ≤ pdu.length then
    if isEmptyCcch (ulHeader pdu) pdu then ([header], .ok { s with dataInd := [] })
    else (s.handle (octetAt behind pdu) pdu (ulHeader pdu)).map (header :: ·) id
  else ([header], .ok s)

theorem ulVisit_snd (h : ulSubPduLen pdu ≤ pdu.length ∧ !isEmptyCcch (ulHeader pdu) pdu) :
    (ulVisit behind pdu s).2 = (s.handle (octetAt behind pdu) pdu (ulHeader pdu)).2 := by
  simp_all [ulVisit]

theorem ulWalk_eq (b : UInt8) (l : List UInt8) (s : UlState) : ulWalk behind (fuel + 1) (b :: l) s =
    match (ulVisit behind (b :: l) s).2 with
    | .error f => ⟨(ulVisit behind (b :: l) s).1, .error f⟩
    | .ok s' => match nextUlSubPdu (b :: l) with
      | none => ⟨(ulVisit behind (b :: l) s).1, .ok s'⟩
      | some l' => ⟨(ulVisit behind (b :: l) s).1 ++ (ulWalk behind fuel l' s').accesses,
          (ulWalk behind fuel l' s').result⟩ := by
  rw [ulWalk]
  by_cases h : ulSubPduLen (b :: l) ≤ (b :: l).length
  · have hfits : ¬ l.length + 1 < (ulHeader (b :: l)).subheader + (ulHeader (b :: l)).len := Nat.not_lt.mpr h
    simp only [ulVisit, decode_eq (hasSubheader_of_whole h), if_neg hfits, if_pos h]
    cases hempty : isEmptyCcch (ulHeader (b :: l)) (b :: l) with
    | true => simp [nextUlSubPdu, hempty]
    | false =>
      rcases s.handle (octetAt behind (b :: l)) (b :: l) (ulHeader (b :: l)) with ⟨accesses, result⟩
      cases result with
      | error f => simp
      | ok s' =>
        have hnext : nextUlSubPdu (b :: l) = some ((b :: l).drop (ulStep (ulHeader (b :: l)) (b :: l).length)) :=
          if_pos ⟨h, by simp [hempty]⟩
        simp [hnext]
  · have hbroken := (@whole_iff behind b l).mpr h
    have hnext : nextUlSubPdu (b :: l) = none := if_neg fun hnext => h hnext.1
    rw [length_cons] at hbroken
    simp only [ulVisit, hnext, if_pos hbroken, if_neg h]
    rw [decode_subheader, length_cons]

theorem ulVisit_inside_iff :
    (∀ a ∈ (ulVisit behind pdu s).1, a.reads ≤ a.limit) ↔ HasSubheader pdu ∧ HasLevels pdu := by
  unfold ulVisit
  split_ifs with hwhole hempty
  · have hccch : HasLevels pdu := fun hcase _ => by
      simp only [isEmptyCcch, decide_eq_true_eq] at hempty
      rw [hempty.1] at hcase
      cases hcase
    rw [forall_mem_singleton, and_iff_left hccch, HasSubheader]
  · rw [← @handle_inside_iff behind _ s hwhole]
    exact forall_mem_cons
  · have hlevels : HasLevels pdu := fun _ hle => absurd hle hwhole
    rw [forall_mem_singleton, and_iff_left hlevels, HasSubheader]

theorem handle_not_endless (o : Nat → UInt8) (pdu : List UInt8) (h : UlHeader) :
    (s.handle o pdu h).2 ≠ .error .endless := by
  have hforward : ∀ (s : UlState) sdu, s.forward sdu ≠ .error .endless := by
    intro s sdu
    unfold UlState.forward
    split <;> simp
  unfold UlState.handle
  cases ulCase h.lcid with
  | ccch =>
    simp only
    split
    · exact hforward _ _
    · simp
  | srb =>
    simp only
    split_ifs
    · exact hforward _ _
    · simp
    · simp
  | dtch =>
    simp only
    split_ifs
    · intro hbind
      rcases bind_eq_error.mp hbind with hfails | ⟨_, _, hfails⟩
      · exact hforward _ _ hfails
      · cases hfails
    · simp
  | ignored => simp
  | phr => simp
  | cRnti =>
    simp only
    split_ifs <;> simp
  | shortBsr =>
    obtain ⟨estimate, hok⟩ := estimateUlBufferShortBsr_ok (o h.subheader)
    simp [hok]
  | longBsr =>
    obtain ⟨estimate, hok⟩ := estimateLongBsrLoop_ok (fun i => o (h.subheader + i)) (List.range 8) 0 0
    simp [estimateUlBufferLongBsr, hok]
  | last => simp

theorem ulVisit_not_endless (pdu : List UInt8) : (ulVisit behind pdu s).2 ≠ .error .endless := by
  unfold ulVisit
  split_ifs
  · simp
  · exact handle_not_endless _ _ _
  · simp

theorem ulWalk_safe (hfuel : pdu.length < fuel)
    (h : ∀ p ∈ stations length nextUlSubPdu pdu, HasSubheader p ∧ HasLevels p) :
    Safe (ulWalk behind fuel pdu s).accesses (ulWalk behind fuel pdu s).result := by
  induction fuel generalizing pdu s with
  | zero => omega
  | succ fuel ih =>
    cases pdu with
    | nil => exact ⟨by simp [ulWalk], by simp [ulWalk]⟩
    | cons b l =>
      rw [stations_elim nextUlSubPdu_shrinks (by simp), forall_mem_cons, ← ulVisit_inside_iff (s := s)] at h
      rw [ulWalk_eq]
      cases hvisit : (ulVisit behind (b :: l) s).2 with
      | error f => exact ⟨fun he => ulVisit_not_endless _ (hvisit.trans he), h.1⟩
      | ok s' =>
        cases hnext : nextUlSubPdu (b :: l) with
        | none => exact ⟨by simp, h.1⟩
        | some l' =>
          have hless := nextUlSubPdu_shrinks _ _ hnext
          rw [hnext] at h
          exact safe_append.mpr ⟨h.1, ih (by omega) h.2⟩

theorem wellFormed_of_ulWalk (hfuel : pdu.length < fuel) {s' : UlState}
    (hok : (ulWalk behind fuel pdu s).result = .ok s')
    (hinside : ∀ a ∈ (ulWalk behind fuel pdu s).accesses, a.reads ≤ a.limit) :
    ∀ p ∈ stations length nextUlSubPdu pdu, HasSubheader p ∧ HasLevels p := by
  induction fuel generalizing pdu s with
  | zero => omega
  | succ fuel ih =>
    cases pdu with
    | nil => simp [stations_nil]
    | cons b l =>
      rw [stations_elim nextUlSubPdu_shrinks (by simp), forall_mem_cons, ← ulVisit_inside_iff (s := s)]
      rw [ulWalk_eq] at hok hinside
      cases hvisit : (ulVisit behind (b :: l) s).2 with
      | error f =>
        rw [hvisit] at hok
        cases hok
      | ok s₁ =>
        rw [hvisit] at hok hinside
        cases hnext : nextUlSubPdu (b :: l) with
        | none =>
          rw [hnext] at hinside
          exact ⟨hinside, forall_mem_nil _⟩
        | some l' =>
          have hless := nextUlSubPdu_shrinks _ _ hnext
          rw [hnext] at hok hinside
          obtain ⟨hfirst, hlater⟩ := forall_mem_append.mp hinside
          exact ⟨hfirst, ih (by omega) hok hlater⟩

def Same (u v : UlUe) : Prop := v = { u with estimatedUlBuffer := v.estimatedUlBuffer }

inductive Handles (s : UlState) (h : UlHeader) : Except Fault UlState → Prop where
  | ok {s' : UlState} (noAbort : s.ue.aborts h = false)
      (length : s'.dataInd.length = s.dataInd.length + if s.ue.collects h then 1 else 0)
      (room : s'.dataInd.length < maxNumUlDataInd) (same : Same (s.ue.after h) s'.ue) : Handles s h (.ok s')
  | abort {f : Fault} (aborts : s.ue.aborts h = true) : Handles s h (.error f)
  | full {f : Fault} (collects : s.ue.collects h = true) (full : maxNumUlDataInd ≤ s.dataInd.length + 1) :
      Handles s h (.error f)

theorem handles_forward {h : UlHeader} {s₁ : UlState} (hroom : s.dataInd.length < maxNumUlDataInd)
    (habort : s.ue.aborts h = false) (hcollects : s.ue.collects h = true) (hdata : s₁.dataInd = s.dataInd)
    (hsame : Same (s.ue.after h) s₁.ue) (sdu : Sdu) : Handles s h (s₁.forward sdu) := by
  unfold UlState.forward
  split
  · next hlast =>
    refine .ok habort ?_ ?_ hsame
    · simp [hcollects, hdata]
    · simpa using hlast
  · next hlast => exact .full hcollects (by rw [hdata] at hlast; omega)

theorem handles_quiet {h : UlHeader} {s₁ : UlState} (hroom : s.dataInd.length < maxNumUlDataInd)
    (habort : s.ue.aborts h = false) (hcollects : s.ue.collects h = false) (hdata : s₁.dataInd = s.dataInd)
    (hsame : Same (s.ue.after h) s₁.ue) : Handles s h (.ok s₁) :=
  .ok habort (by simp [hcollects, hdata]) (by rw [hdata]; exact hroom) hsame

theorem Handles.lower {h : UlHeader} {x : Except Fault UlState} (hx : Handles s h x) (f : UlUe → Int) : Handles s h (do
      let s ← x return { s with ue := { s.ue with estimatedUlBuffer := f s.ue } }) := by
  cases hx with
  | ok habort hlength hroom hsame =>
    refine .ok habort hlength hroom ?_
    unfold Same at *
    rw [hsame]
  | abort habort => exact .abort habort
  | full hcollects hfull => exact .full hcollects hfull

theorem handles (hroom : s.dataInd.length < maxNumUlDataInd) (o : Nat → UInt8) (pdu : List UInt8) (h : UlHeader) :
    Handles s h (s.handle o pdu h).2 := by
  unfold UlState.handle
  cases hcase : ulCase h.lcid with
  | ccch =>
    have habort : s.ue.aborts h = false := by simp [UlUe.aborts, hcase]
    have hafter : s.ue.after h = s.ue.prepareInitialUlRrcMessage.2 := by simp [UlUe.after, hcase]
    have hcollects : s.ue.collects h = s.ue.prepareInitialUlRrcMessage.1 := by
      simp only [UlUe.collects, hcase, UlUe.prepareInitialUlRrcMessage]
      split_ifs <;> simp_all
    have hsame : Same (s.ue.after h) s.ue.prepareInitialUlRrcMessage.2 := by rw [hafter, Same]
    simp only
    split
    · next hprepared =>
      apply handles_forward hroom habort (hcollects.trans hprepared)
      · rfl
      · exact hsame
    · next hprepared =>
      exact handles_quiet hroom habort (hcollects.trans (Bool.eq_false_iff.mpr hprepared)) rfl hsame
  | srb =>
    have hsame : Same (s.ue.after h) s.ue := by simp [UlUe.after, hcase, Same]
    have hcollects : s.ue.collects h = s.ue.isActive h.lcid := by simp [UlUe.collects, hcase]
    simp only
    split_ifs with hgroup hactive
    · exact handles_forward hroom (by simp [UlUe.aborts, hcase, hgroup]) (hcollects.trans hactive) rfl hsame _
    · exact handles_quiet hroom (by simp [UlUe.aborts, hcase, hgroup])
        (hcollects.trans (Bool.eq_false_iff.mpr hactive)) rfl hsame
    · exact .abort (by simpa [UlUe.aborts, hcase] using hgroup)
  | dtch =>
    have hsame : Same (s.ue.after h) s.ue := by simp [UlUe.after, hcase, Same]
    have habort : s.ue.aborts h = false := by simp [UlUe.aborts, hcase]
    have hcollects : s.ue.collects h = s.ue.isActive h.lcid := by simp [UlUe.collects, hcase]
    simp only
    split_ifs with hactive
    · exact (handles_forward hroom habort (hcollects.trans hactive) rfl hsame _).lower fun ue =>
        if (h.len : Int) ≤ ue.estimatedUlBuffer then ue.estimatedUlBuffer - h.len else 0
    · exact handles_quiet hroom habort (hcollects.trans (Bool.eq_false_iff.mpr hactive)) rfl hsame
  | ignored | phr | last =>
    exact handles_quiet hroom (by simp [UlUe.aborts, hcase]) (by simp [UlUe.collects, hcase]) rfl
      (by simp [UlUe.after, hcase, Same])
  | cRnti =>
    simp only
    split_ifs with hidle
    · exact .abort (by simpa [UlUe.aborts, hcase] using hidle)
    · exact handles_quiet hroom (by simpa [UlUe.aborts, hcase] using hidle) (by simp [UlUe.collects, hcase]) rfl
        (by simp [UlUe.after, hcase, Same])
  | shortBsr =>
    obtain ⟨estimate, hok⟩ := estimateUlBufferShortBsr_ok (o h.subheader)
    simp only [hok, ok_bind]
    exact handles_quiet hroom (by simp [UlUe.aborts, hcase]) (by simp [UlUe.collects, hcase]) rfl
      (by simp [UlUe.after, hcase, Same])
  | longBsr =>
    obtain ⟨estimate, hok⟩ := estimateLongBsrLoop_ok (fun i => o (h.subheader + i)) (List.range 8) 0 0
    simp only [estimateUlBufferLongBsr, hok, ok_bind]
    exact handles_quiet hroom (by simp [UlUe.aborts, hcase]) (by simp [UlUe.collects, hcase]) rfl
      (by simp [UlUe.after, hcase, Same])

section SameUe

variable {u v : UlUe} (hsame : Same u v) (h : UlHeader)

include hsame

theorem Same.aborts : v.aborts h = u.aborts h := by
  rw [hsame]
  rfl

theorem Same.collects : v.collects h = u.collects h := by
  rw [hsame]
  rfl

theorem Same.after : Same (u.after h) (v.after h) := by
  rw [hsame]
  unfold UlUe.after
  split
  · unfold UlUe.prepareInitialUlRrcMessage
    split_ifs <;> rfl
  · rfl

theorem Same.trans {w : UlUe} (hw : Same v w) : Same u w := by
  unfold Same at *
  rw [hw, hsame]

end SameUe

theorem ulWalk_ok_iff {ue : UlUe} (hfuel : pdu.length < fuel)
    (hroom : s.dataInd.length < maxNumUlDataInd) (hsame : Same ue s.ue) :
    (∃ s', (ulWalk behind fuel pdu s).result = .ok s') ↔
      (∀ v ∈ ulVisits ue (stations length nextUlSubPdu pdu), v.1.aborts v.2 = false) ∧
      s.dataInd.length + (ulVisits ue (stations length nextUlSubPdu pdu)).countP (fun v => v.1.collects v.2) <
        maxNumUlDataInd := by
  induction fuel generalizing pdu s ue with
  | zero => omega
  | succ fuel ih =>
    cases pdu with
    | nil => simpa [ulWalk, ulVisits, stations_nil] using hroom
    | cons b l =>
      rw [ulWalk_eq, stations_elim nextUlSubPdu_shrinks (by simp), ulVisits]
      by_cases hgoes : ulSubPduLen (b :: l) ≤ (b :: l).length ∧ !isEmptyCcch (ulHeader (b :: l)) (b :: l)
      · have hhandles := handles hroom (octetAt behind (b :: l)) (b :: l) (ulHeader (b :: l))
        rw [← ulVisit_snd hgoes] at hhandles
        generalize (ulVisit behind (b :: l) s).2 = result at hhandles
        rw [if_pos hgoes, forall_mem_cons, countP_cons]
        cases hhandles with
        | ok habort hlength hroom' hafter =>
          rw [hsame.aborts] at habort
          rw [hsame.collects] at hlength
          have hafter' := (hsame.after (ulHeader (b :: l))).trans hafter
          rw [and_iff_right habort]
          cases hnext : nextUlSubPdu (b :: l) with
          | none =>
            refine iff_of_true ⟨_, rfl⟩ ⟨forall_mem_nil _, ?_⟩
            simpa [ulVisits, ← hlength] using hroom'
          | some l' =>
            have hless := nextUlSubPdu_shrinks _ _ hnext
            simp only [Option.elim_some]
            rw [ih (by omega) hroom' hafter', hlength]
            refine and_congr_right fun _ => ?_
            omega
        | abort habort =>
          refine iff_of_false (by rintro ⟨_, ⟨⟩⟩) fun hbears => ?_
          rw [hsame.aborts] at habort
          simpa [habort] using hbears.1.1
        | full hcollects hfull =>
          refine iff_of_false (by rintro ⟨_, ⟨⟩⟩) fun hbears => ?_
          rw [hsame.collects] at hcollects
          have hfew := hbears.2
          rw [if_pos hcollects] at hfew
          omega
      · have hnext : nextUlSubPdu (b :: l) = none := if_neg hgoes
        obtain ⟨s', hvisit⟩ : ∃ s', (ulVisit behind (b :: l) s).2 = .ok s' := by
          unfold ulVisit
          split_ifs with hwhole hempty
          · exact ⟨_, rfl⟩
          · exact absurd ⟨hwhole, by simpa using hempty⟩ hgoes
          · exact ⟨_, rfl⟩
        rw [hvisit, hnext, if_neg hgoes]
        simpa [ulVisits] using hroom

def idleUe : UlUe := ⟨true, [], true, true, true, false, 0⟩

theorem mem_ulVisits_idleUe {ps : List (List UInt8)} {v : UlUe × UlHeader} (hv : v ∈ ulVisits idleUe ps) :
    v.1 = idleUe := by
  induction ps with
  | nil => simp [ulVisits] at hv
  | cons p ps ih =>
    have hafter : idleUe.after (ulHeader p) = idleUe := by
      unfold UlUe.after
      split <;> rfl
    rw [ulVisits, hafter] at hv
    split at hv
    · cases hv with
      | head => rfl
      | tail _ hv => exact ih hv
    · exact ih hv

theorem idleUe_aborts (h : UlHeader) : idleUe.aborts h = false := by
  unfold UlUe.aborts
  split <;> rfl

theorem idleUe_collects (h : UlHeader) : idleUe.collects h = false := by
  unfold UlUe.collects
  split <;> rfl

theorem ulWalk_idleUe (hfuel : pdu.length < fuel) :
    ∃ s', (ulWalk behind fuel pdu ⟨idleUe, [], []⟩).result = .ok s' := by
  refine (ulWalk_ok_iff hfuel (by simp [maxNumUlDataInd]) rfl).mpr ⟨?_, ?_⟩
  · intro v hv
    rw [mem_ulVisits_idleUe hv, idleUe_aborts]
  · have hnone : (ulVisits idleUe (stations length nextUlSubPdu pdu)).countP (fun v => v.1.collects v.2) = 0 := by
      refine countP_eq_zero.mpr fun v hv => ?_
      rw [mem_ulVisits_idleUe hv, idleUe_collects]
      exact Bool.false_ne_true
    simp [hnone, maxNumUlDataInd]

end Process

/-- Both functions end and stay inside of the PDU and of the control elements, whatever the UE and the memory
behind the PDU are, exactly when every subPDU that they come to has what is read of it. -/
theorem ul_parser_safe_iff (b : UInt8) (l : List UInt8) :
    ((∀ behind ue, Safe (nrProcessMacPdu behind ue (b :: l)).accesses (nrProcessMacPdu behind ue (b :: l)).result) ∧
      ∀ behind, Safe (lcidCrntiLookahead behind (b :: l)).accesses (lcidCrntiLookahead behind (b :: l)).crnti) ↔
      UlWellFormed (b :: l) := by
  constructor
  · rintro ⟨hprocess, hlookahead⟩
    refine ⟨?_, (crntiLoop_safe_iff (Nat.lt_succ_self _)).mp (hlookahead fun _ => 0)⟩
    -- for this UE the walk comes to the end, and so to every subPDU
    have hsafe := hprocess (fun _ => 0) idleUe
    rw [nrProcessMacPdu, safe_cons] at hsafe
    obtain ⟨s', hok⟩ := @ulWalk_idleUe _ (fun _ => 0) _ (Nat.lt_succ_self (b :: l).length)
    exact wellFormed_of_ulWalk (Nat.lt_succ_self _) hok hsafe.2.inside
  · intro h
    refine ⟨fun behind ue => ?_, fun behind => (crntiLoop_safe_iff (Nat.lt_succ_self _)).mpr h.lookahead⟩
    rw [nrProcessMacPdu, safe_cons]
    exact ⟨by simp, ulWalk_safe (Nat.lt_succ_self _) h.process⟩

/-- A PDU of one octet, with the LCID of a channel: the length behind it is read. Below, a long BSR whose bitmap
has all eight groups and whose length is one -/
theorem ul_parser_reads_behind : (nrProcessMacPdu (fun _ => 0) idleUe [4]).accesses = [⟨1, 1⟩, ⟨2, 1⟩] ∧
      (lcidCrntiLookahead (fun _ => 0) [4]).accesses = [⟨2, 1⟩] ∧
      (nrProcessMacPdu (fun _ => 0) idleUe [0x3E, 1, 0xFF]).accesses = [⟨1, 3⟩, ⟨2, 3⟩, ⟨11, 3⟩] := by
  decide +kernel

/-- For a UE that is connected, the function gets through the PDU exactly when no assertion is met and there are
fewer SDUs than entries. -/
theorem ul_parser_completes_iff (ue : ConnectedUe) (behind : Nat → UInt8) (b : UInt8) (l : List UInt8) :
    (∃ s', (nrProcessMacPdu behind ue.toUlUe (b :: l)).result = .ok s') ↔ ue.toUlUe.Bears (b :: l) := by
  rw [nrProcessMacPdu, ulWalk_ok_iff (Nat.lt_succ_self _) (by simp [maxNumUlDataInd]) rfl]
  exact ⟨fun h => ⟨h.1, by simpa using h.2⟩, fun h => ⟨h.noAbort, by simpa using h.few⟩⟩

section EmptySdus

def drbUe : UlUe := ⟨true, [(4, false)], true, true, true, false, 0⟩

variable {behind : Nat → UInt8} {l : List UInt8} {dataInd : List Sdu} {phr : List (UInt8 × UInt8)} {fuel : Nat}

theorem ulWalk_empty_sdu : (ulWalk behind (fuel + 1) (4 :: 0 :: l) ⟨drbUe, dataInd, phr⟩).result =
      if dataInd.length + 1 < maxNumUlDataInd then (ulWalk behind fuel l ⟨drbUe, dataInd ++ [(4, [])], phr⟩).result
      else .error .devAssert := by
  have hheader : ulHeader (4 :: 0 :: l) = ⟨4, 2, 0⟩ := by
    have hfirst : lcidOf 4 = 4 ∧ longOf 4 = false ∧ hasUlLength 4 = true := by decide
    simp [ulHeader, decodeUlMacSubPduHeader, hfirst]
  have hwhole : ulSubPduLen (4 :: 0 :: l) ≤ (4 :: 0 :: l).length := by simp [ulSubPduLen, hheader]
  have hempty : isEmptyCcch (ulHeader (4 :: 0 :: l)) (4 :: 0 :: l) = false := by simp [isEmptyCcch, hheader]
  have hnext : nextUlSubPdu (4 :: 0 :: l) = some l := by
    unfold nextUlSubPdu
    rw [if_pos ⟨hwhole, by simp [hempty]⟩, ulStep, if_neg (by simp [hheader, ulCase]), hheader]
    rfl
  have hhandle : (⟨drbUe, dataInd, phr⟩ : UlState).handle (octetAt behind (4 :: 0 :: l)) (4 :: 0 :: l) ⟨4, 2, 0⟩ =
      ([⟨2, 2⟩], if dataInd.length + 1 < maxNumUlDataInd then .ok ⟨drbUe, dataInd ++ [(4, [])], phr⟩
        else .error .devAssert) := by
    have hcase : ulCase 4 = .dtch := by decide
    have hactive : drbUe.isActive 4 = true := by decide
    simp only [UlState.handle, hcase, hactive, UlState.forward, if_true]
    by_cases hroom : dataInd.length + 1 < maxNumUlDataInd
    · simp only [if_pos hroom]
      rfl
    · simp only [if_neg hroom]
      rfl
  rw [ulWalk_eq, hnext, ulVisit_snd ⟨hwhole, by simp [hempty]⟩, hheader, hhandle]
  by_cases hroom : dataInd.length + 1 < maxNumUlDataInd
  · simp only [if_pos hroom]
  · simp only [if_neg hroom]

theorem ulWalk_empty_sdus (n : Nat) (hn : maxNumUlDataInd = dataInd.length + (n + 1)) (hfuel : n < fuel) :
    (ulWalk behind fuel (List.replicate (n + 1) [4, 0]).flatten ⟨drbUe, dataInd, phr⟩).result = .error .devAssert := by
  induction n generalizing fuel dataInd with
  | zero =>
    obtain _ | fuel := fuel
    · cases hfuel
    exact ulWalk_empty_sdu.trans (if_neg (by omega))
  | succ n ih =>
    obtain _ | fuel := fuel
    · cases hfuel
    have hroom : dataInd.length + 1 < maxNumUlDataInd := by omega
    have hrest := @ih (dataInd ++ [(4, [])]) fuel (by simp; omega) (by omega)
    rw [replicate_succ, flatten_cons]
    rw [← hrest]
    exact ulWalk_empty_sdu.trans (if_pos hroom)

end EmptySdus

theorem length_empty_sdus (n : Nat) : (List.replicate n ([4, 0] : List UInt8)).flatten.length = 2 * n := by
  simp [Nat.mul_comm]

/-- A transport block of 2048 octets holds 1024 empty SDUs of a data channel. -/
theorem empty_sdus_abort : ∃ ue : ConnectedUe, ∃ pdu : List UInt8, pdu.length = 2048 ∧ ∀ behind,
    (nrProcessMacPdu behind ue.toUlUe pdu).result = .error .devAssert := by
  obtain ⟨n, hn⟩ : ∃ n, maxNumUlDataInd = n + 1 := ⟨1023, rfl⟩
  refine ⟨⟨drbUe, rfl⟩, (List.replicate (n + 1) [4, 0]).flatten, ?_, fun behind => ?_⟩
  · rw [length_empty_sdus, ← hn, maxNumUlDataInd]
  · apply ulWalk_empty_sdus n
    · simpa using hn
    · rw [length_empty_sdus]
      omega

end OaiNr.Mac
