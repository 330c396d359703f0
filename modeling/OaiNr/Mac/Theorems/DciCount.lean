import OaiNr.Mac.Lemmas.FullSlot

/-!
# How many DCIs a slot has

The limit on the UEs that are scheduled holds for each call of a policy, and there is a call for each
beam, while all beams share the DCIs of a CORESET.
-/

namespace OaiNr.Mac

open List

variable {σ κ : Type}

section InBounds

def InBounds {α : Type} (x : Except Fault α) : Prop := x ≠ .error .outOfBounds

theorem InBounds.ok {α : Type} (a : α) : InBounds (.ok a : Except Fault α) := by
  intro h
  cases h

theorem InBounds.bind {α β : Type} {x : Except Fault α} {f : α → Except Fault β} (hx : InBounds x)
    (hf : ∀ a, x = .ok a → InBounds (f a)) : InBounds (x >>= f) := by
  cases x with
  | ok a => exact hf a rfl
  | error e => exact fun h => hx (by rw [Except.error.inj h])

theorem divideOut_inBounds (p fuel rb : Nat) : InBounds (divideOut p fuel rb) := by
  induction fuel generalizing rb with
  | zero => exact fun h => by cases h
  | succ fuel ih =>
    unfold divideOut
    split
    · exact ih _
    · exact .ok _

theorem multipleOf235_inBounds (rb : Nat) : InBounds (multipleOf235 rb) :=
  (divideOut_inBounds _ _ _).bind fun _ _ => (divideOut_inBounds _ _ _).bind fun _ _ =>
    (divideOut_inBounds _ _ _).bind fun _ _ => .ok _

theorem toAllowed_inBounds (next : Nat → Nat) (transformPrecoding : Bool) (fuel rb : Nat) :
    InBounds (toAllowed next transformPrecoding fuel rb) := by
  induction fuel generalizing rb with
  | zero => exact fun h => by cases h
  | succ fuel ih =>
    unfold toAllowed
    split
    · refine (multipleOf235_inBounds rb).bind fun b _ => ?_
      split
      · exact .ok _
      · exact ih _
    · exact .ok _

theorem searchNbRb_inBounds (tbs : Nat → Nat) (transformPrecoding : Bool) (bytes fuel lo hi : Nat) :
    InBounds (searchNbRb tbs transformPrecoding bytes fuel lo hi) := by
  induction fuel generalizing lo hi with
  | zero => exact fun h => by cases h
  | succ fuel ih =>
    unfold searchNbRb
    split
    · refine (toAllowed_inBounds _ _ _ _).bind fun p _ => ?_
      split
      · exact .ok _
      split
      · exact .ok _
      split
      · exact ih _ _
      · exact ih _ _
    · exact .ok _

theorem nrFindNbRb_inBounds (tbs : Nat → Nat) (transformPrecoding : Bool) (bytes nbRbMin nbRbMax : Nat) :
    InBounds (nrFindNbRb tbs transformPrecoding bytes nbRbMin nbRbMax) := by
  refine (toAllowed_inBounds _ _ _ _).bind fun p _ => ?_
  split
  · exact .ok _
  split
  · exact .ok _
  · exact searchNbRb_inBounds _ _ _ _ _ _

theorem pfPhase_inBounds {granted : κ → Grant → κ} {maxNumUe : Nat} {due : κ → Bool}
    {attempt : Attempt σ κ} (h : ∀ s c, InBounds (attempt s c)) (s : PfState σ) (cands : List κ) :
    InBounds (pfPhase granted maxNumUe due attempt s cands) := by
  induction cands generalizing s with
  | nil => exact .ok _
  | cons c cands ih =>
    unfold pfPhase
    split
    · exact (ih s).bind fun _ _ => .ok _
    · refine (h s.slot c).bind fun tried _ => ?_
      cases tried with
      | none => exact (ih s).bind fun _ _ => .ok _
      | some grant => exact (ih _).bind fun _ _ => .ok _

theorem proportionalFair_inBounds {granted : κ → Grant → κ} {skipped : κ → Bool}
    {pfOrder : List κ → List κ} {phases : PfPhases σ κ} {maxNumUe : Nat}
    (h₁ : ∀ s c, InBounds (phases.attempt₁ s c)) (h₂ : ∀ s c, InBounds (phases.attempt₂ s c))
    (h₃ : ∀ s c, InBounds (phases.attempt₃ s c)) (s : σ) (cands : List κ) :
    InBounds (proportionalFair granted skipped pfOrder phases maxNumUe s cands) :=
  (pfPhase_inBounds h₁ _ _).bind fun _ _ => (pfPhase_inBounds h₂ _ _).bind fun _ _ =>
    (pfPhase_inBounds h₃ _ _).bind fun _ _ => .ok _

theorem allocPerBeam_inBounds {beamOf : κ → Int} {rbAlloc : σ → List κ → Except Fault (List κ × σ)}
    (h : ∀ s cands, InBounds (rbAlloc s cands)) (fuel : Nat) (s : σ) (cands : List κ) :
    InBounds (allocPerBeam beamOf rbAlloc fuel s cands) := by
  induction fuel generalizing s cands with
  | zero => exact fun h => by cases h
  | succ fuel ih =>
    cases cands with
    | nil => exact .ok _
    | cons c cands => exact (h _ _).bind fun _ _ => (ih _ _).bind fun _ _ => .ok _

end InBounds

section Placing

theorem placeDcis_ok {coresets : List Nat} {n : Nat → Nat} (h : ∀ c, n c + coresets.count c ≤ maxDciCoreset) :
    ∃ n', placeDcis coresets n = .ok n' ∧ ∀ c, n' c = n c + coresets.count c := by
  induction coresets generalizing n with
  | nil => exact ⟨n, rfl, fun c => rfl⟩
  | cons d coresets ih =>
    have hadd : ∀ c, Function.update n d (n d + 1) c + coresets.count c = n c + (d :: coresets).count c := by
      intro c
      rw [count_cons]
      by_cases hc : c = d
      · subst c
        simp
        omega
      · simp [hc, Ne.symm hc]
    have hroom : n d < maxDciCoreset := by
      have hd := h d
      rw [count_cons_self] at hd
      omega
    obtain ⟨n', hn', hcount⟩ := ih fun c => by rw [hadd]; exact h c
    exact ⟨n', by simp only [placeDcis, hroom, ↓reduceIte, hn'], fun c => by rw [hcount, hadd]⟩

theorem placeDcis_overflow {k c : Nat} {n : Nat → Nat} (hk : 0 < k) (h : maxDciCoreset < n c + k) :
    placeDcis (List.replicate k c) n = .error .outOfBounds := by
  induction k generalizing n with
  | zero => omega
  | succ k ih =>
    rw [replicate_succ, placeDcis]
    split
    · refine ih (by omega) ?_
      rw [Function.update_self]
      omega
    · rfl

end Placing

section Downlink

variable {P : DlPolicies σ} {index numBeams limit : Nat} {b b₁ : BeamInfo} {s : σ}
  {cands sel : List DlCandidate} {r : DlScheduled σ}

theorem nrDlBeamSelectDefault_lt {bound : Nat} (hbound : b.numBeams ≤ bound)
    (hcands : ∀ c ∈ cands, c.allocBeamIdx < bound) :
    ∀ c ∈ (nrDlBeamSelectDefault index b cands).2, c.allocBeamIdx < bound := by
  induction cands generalizing b with
  | nil => simp [nrDlBeamSelectDefault]
  | cons c cands ih =>
    obtain ⟨hc, hcands⟩ := forall_mem_cons.mp hcands
    refine forall_mem_cons.mpr ⟨?_, ih ?_ hcands⟩
    · change (c.withBeam (b.beamAllocationProcedure index c.allocBeamDir).2).allocBeamIdx < bound
      generalize hfound : b.beamAllocationProcedure index c.allocBeamDir = found
      obtain ⟨b', found⟩ := found
      cases found with
      | none => exact hc
      | some found => exact Nat.lt_of_lt_of_le (BeamInfo.beamAllocationProcedure_lt hfound) hbound
    · rwa [BeamInfo.beamAllocationProcedure_numBeams rfl]

theorem dlBeamSelect_lt {c : DlCandidate}
    (hc : c ∈ (dlBeamSelect P b.numBeams index b (cands.map DlCandidate.collected)).2) :
    c.allocBeamIdx < max 1 b.numBeams := by
  have hcollected : ∀ c ∈ cands.map DlCandidate.collected, c.allocBeamIdx < max 1 b.numBeams := by
    intro c hc
    obtain ⟨a, _, rfl⟩ := mem_map.mp hc
    exact Nat.lt_of_lt_of_le Nat.zero_lt_one (Nat.le_max_left _ _)
  unfold dlBeamSelect at hc
  split at hc
  · exact nrDlBeamSelectDefault_lt (Nat.le_max_right _ _)
      (fun c hc => hcollected c ((P.pfOrder_perm _).mem_iff.mp hc)) c hc
  · exact hcollected c hc

theorem nrDlSchedule_alloc (hok : nrDlSchedule P numBeams index b s cands = .ok r)
    (hsel : dlBeamSelect P numBeams index b (cands.map DlCandidate.collected) = (b₁, sel)) :
    (∀ o ∈ r.cands, o.scheduled = false) ∨ ∃ s', sortAndAllocPerBeam (fun c => (c.allocBeamIdx : Int))
      P.rbAlloc s (P.tdaSelect sel).1 = .ok (r.cands, s') := by
  have hfresh : ∀ c ∈ sel, c.scheduled = false := fun c hc =>
    dlBeamSelect_scheduled (b := b) (P := P) (by rwa [hsel])
  simp only [nrDlSchedule, hsel] at hok
  split at hok
  · cases hok
    refine .inl fun o ho => ?_
    obtain ⟨a, _, rfl⟩ := mem_map.mp ho
    rfl
  split at hok
  · cases hok
    exact .inl hfresh
  split at hok
  · cases hok
    refine .inl fun o ho => ?_
    obtain ⟨c, hc, hT⟩ := forall₂_origin (P.tdaSelect_spec sel) o ho
    exact hT.scheduled.trans (hfresh c hc)
  · obtain ⟨⟨out, s'⟩, halloc, hok⟩ := bind_eq_ok.mp hok
    cases hok
    exact .inr ⟨s', halloc⟩

theorem nrDlSchedule_count (hcount : ∀ s cands r, P.rbAlloc s cands = .ok r → (∀ d ∈ cands, d.scheduled = false) →
      r.1.countP DlCandidate.scheduled ≤ limit) (hok : nrDlSchedule P b.numBeams index b s cands = .ok r) :
    r.cands.countP DlCandidate.scheduled ≤ max 1 b.numBeams * limit := by
  generalize hsel : dlBeamSelect P b.numBeams index b (cands.map DlCandidate.collected) = found
  obtain ⟨b₁, sel⟩ := found
  rcases nrDlSchedule_alloc hok hsel with hnone | ⟨s', halloc⟩
  · rw [countP_eq_zero.mpr fun c hc => by simp [hnone c hc]]
    exact Nat.zero_le _
  · have htda := forall₂_origin (P.tdaSelect_spec sel)
    refine sortAndAllocPerBeam_count (fun s c cands r hr hfresh => ?_) (fun o ho => ?_) (fun o ho => ?_) halloc
    · rw [if_neg (by omega)]
      exact hcount s _ r hr hfresh
    · obtain ⟨c, hc, hT⟩ := htda o ho
      exact hT.scheduled.trans (dlBeamSelect_scheduled (b := b) (P := P) (by rwa [hsel]))
    · obtain ⟨c, hc, hT⟩ := htda o ho
      have hlt := dlBeamSelect_lt (b := b) (P := P) (by rwa [hsel])
      rw [hT.idx]
      omega

theorem nrDlSchedule_inBounds (h : ∀ s cands, InBounds (P.rbAlloc s cands)) :
    InBounds (nrDlSchedule P numBeams index b s cands) := by
  unfold nrDlSchedule
  simp only
  split
  · exact .ok _
  split
  · exact .ok _
  split
  · exact .ok _
  · exact (allocPerBeam_inBounds h _ _ _).bind fun _ _ => .ok _

theorem nrDlschPreprocessor_inBounds {policies : Nat → DlPolicies σ} {bw : Nat} {numDlDci : Nat → Nat}
    (hrb : ∀ s cands, InBounds ((policies (maxSchedUes bw)).rbAlloc s cands))
    (hcount : ∀ s cands r, (policies (maxSchedUes bw)).rbAlloc s cands = .ok r →
      (∀ d ∈ cands, d.scheduled = false) → r.1.countP DlCandidate.scheduled ≤ max 1 (maxSchedUes bw))
    (hfit : ∀ c, numDlDci c + max 1 b.numBeams * max 1 (maxSchedUes bw) ≤ maxDciCoreset) :
    InBounds (nrDlschPreprocessor policies bw index b s numDlDci cands) := by
  refine (nrDlSchedule_inBounds hrb).bind fun r hr => ?_
  have hle := nrDlSchedule_count hcount hr
  obtain ⟨n', hn', _⟩ := placeDcis_ok fun c => by
    have hcoreset := count_le_length (a := c)
      (l := (r.cands.filter DlCandidate.scheduled).map fun c => c.pdcch.coresetId)
    rw [length_map, ← countP_eq_length_filter] at hcoreset
    exact (Nat.add_le_add_left (hcoreset.trans hle) _).trans (hfit c)
  rw [hn']
  exact .ok _

end Downlink

section Uplink

variable {P : UlPolicies σ} {dciIndex schedIndex limit : Nat} {b b₁ : BeamInfo} {s : σ}
  {cands sel : List UlCandidate} {r : UlScheduled σ}

theorem ulBeamSelect_spec (dciIndex schedIndex : Nat) (b : BeamInfo) (c : UlCandidate) :
    (ulBeamSelect dciIndex schedIndex b c).1.numBeams = b.numBeams ∧
      ((ulBeamSelect dciIndex schedIndex b c).2.allocBeamIdx = c.allocBeamIdx ∨
        0 ≤ (ulBeamSelect dciIndex schedIndex b c).2.allocBeamIdx ∧
          (ulBeamSelect dciIndex schedIndex b c).2.allocBeamIdx < b.numBeams) := by
  unfold ulBeamSelect
  split
  · next b₁ hdci => exact ⟨BeamInfo.beamAllocationProcedure_numBeams hdci, .inl rfl⟩
  · next b₁ dciIdx dciNew hdci =>
    have hnum₁ := BeamInfo.beamAllocationProcedure_numBeams hdci
    split
    · next b₂ hsched =>
      have hnum₂ := BeamInfo.beamAllocationProcedure_numBeams hsched
      exact ⟨(BeamInfo.resetBeamStatus_numBeams _).trans (hnum₂.trans hnum₁), .inl rfl⟩
    · next b₂ idx schedNew hsched =>
      have hnum₂ := BeamInfo.beamAllocationProcedure_numBeams hsched
      have hlt := BeamInfo.beamAllocationProcedure_lt hsched
      rw [hnum₁] at hlt
      exact ⟨hnum₂.trans hnum₁, .inr ⟨Int.natCast_nonneg _, Int.ofNat_lt.mpr hlt⟩⟩

theorem nrUlBeamSelectDefault_spec (hcands : ∀ c ∈ cands, c.allocBeamIdx = -1) :
    (nrUlBeamSelectDefault dciIndex schedIndex b cands).1.numBeams = b.numBeams ∧
      ∀ c ∈ (nrUlBeamSelectDefault dciIndex schedIndex b cands).2,
        -1 ≤ c.allocBeamIdx ∧ c.allocBeamIdx < b.numBeams := by
  induction cands generalizing b with
  | nil => exact ⟨rfl, by simp [nrUlBeamSelectDefault]⟩
  | cons c cands ih =>
    obtain ⟨hc, hcands⟩ := forall_mem_cons.mp hcands
    obtain ⟨hnum, hidx⟩ := ulBeamSelect_spec dciIndex schedIndex b c
    obtain ⟨hrestNum, hrest⟩ := ih (b := (ulBeamSelect dciIndex schedIndex b c).1) hcands
    rw [hnum] at hrestNum hrest
    refine ⟨hrestNum, forall_mem_cons.mpr ⟨?_, hrest⟩⟩
    change -1 ≤ (ulBeamSelect dciIndex schedIndex b c).2.allocBeamIdx ∧
      (ulBeamSelect dciIndex schedIndex b c).2.allocBeamIdx < b.numBeams
    omega

theorem foldl_releaseUl_numBeams (dciIndex schedIndex : Nat) (b : BeamInfo) (cands : List UlCandidate) :
    (cands.foldl (releaseUl dciIndex schedIndex) b).numBeams = b.numBeams := by
  induction cands generalizing b with
  | nil => rfl
  | cons c cands ih =>
    rw [foldl_cons, ih]
    unfold releaseUl
    split
    · rfl
    · rw [BeamInfo.resetBeamStatus_numBeams, BeamInfo.resetBeamStatus_numBeams]

theorem ulSelected_spec (P : UlPolicies σ) (dciIndex schedIndex : Nat) (b : BeamInfo) (cands : List UlCandidate) :
    (ulSelected P dciIndex schedIndex b cands).1.numBeams = b.numBeams ∧
      ∀ c ∈ (ulSelected P dciIndex schedIndex b cands).2, -1 ≤ c.allocBeamIdx ∧ c.allocBeamIdx < b.numBeams := by
  refine nrUlBeamSelectDefault_spec fun c hc => ?_
  obtain ⟨a, _, rfl⟩ := mem_map.mp ((P.pfOrder_perm _).mem_iff.mp hc)
  rfl

theorem nrUlSchedule_alloc (hok : nrUlSchedule P dciIndex schedIndex b s cands = .ok r)
    (hsel : ulSelected P dciIndex schedIndex b cands = (b₁, sel)) :
    r.beam.numBeams = b.numBeams ∧ ((∀ o ∈ r.cands, o.scheduled = false) ∨
      ∃ s', sortAndAllocPerBeam (fun c => c.allocBeamIdx) (ulRbAlloc P) s (P.tdaSelect sel).1 = .ok (r.cands, s')) := by
  have hfresh : ∀ c ∈ sel, c.scheduled = false := fun c hc =>
    ulSelected_scheduled (b := b) (P := P) (by rwa [hsel])
  have hnum : b₁.numBeams = b.numBeams := by
    have hspec := (ulSelected_spec P dciIndex schedIndex b cands).1
    rwa [hsel] at hspec
  unfold ulSelected at hsel
  simp only [nrUlSchedule, hsel] at hok
  split at hok
  · cases hok
    refine ⟨rfl, .inl fun o ho => ?_⟩
    obtain ⟨a, _, rfl⟩ := mem_map.mp ho
    rfl
  split at hok
  · cases hok
    exact ⟨hnum, .inl hfresh⟩
  split at hok
  · cases hok
    refine ⟨hnum, .inl fun o ho => ?_⟩
    obtain ⟨c, hc, hT⟩ := forall₂_origin (P.tdaSelect_spec sel) o ho
    exact hT.scheduled.trans (hfresh c hc)
  · obtain ⟨⟨out, s'⟩, halloc, hok⟩ := bind_eq_ok.mp hok
    cases hok
    exact ⟨(foldl_releaseUl_numBeams _ _ _ _).trans hnum, .inr ⟨s', halloc⟩⟩

theorem nrUlSchedule_count (hcount : ∀ s cands r, P.rbAlloc s cands = .ok r → (∀ d ∈ cands, d.scheduled = false) →
      r.1.countP UlCandidate.scheduled ≤ limit) (hok : nrUlSchedule P dciIndex schedIndex b s cands = .ok r) :
    r.beam.numBeams = b.numBeams ∧ r.cands.countP UlCandidate.scheduled ≤ b.numBeams * limit := by
  have hbounds := (ulSelected_spec P dciIndex schedIndex b cands).2
  generalize hsel : ulSelected P dciIndex schedIndex b cands = found at hbounds
  obtain ⟨b₁, sel⟩ := found
  obtain ⟨hnum, halloc⟩ := nrUlSchedule_alloc hok hsel
  refine ⟨hnum, ?_⟩
  rcases halloc with hnone | ⟨s', halloc⟩
  · rw [countP_eq_zero.mpr fun c hc => by simp [hnone c hc]]
    exact Nat.zero_le _
  · have htda := forall₂_origin (P.tdaSelect_spec sel)
    refine sortAndAllocPerBeam_count (fun s c cands r hr hfresh => ?_) (fun o ho => ?_) (fun o ho => ?_) halloc
    · simp only [ulRbAlloc, List.head?_cons, Option.any_some, decide_eq_true_eq] at hr
      split at hr
      · next hneg =>
        cases hr
        rw [if_pos hneg, countP_eq_zero.mpr fun c hc => by simp [hfresh c hc]]
      · next hbeam =>
        rw [if_neg hbeam]
        exact hcount s _ r hr hfresh
    · obtain ⟨c, hc, hT⟩ := htda o ho
      exact hT.scheduled.trans (ulSelected_scheduled (b := b) (P := P) (by rwa [hsel]))
    · obtain ⟨c, hc, hT⟩ := htda o ho
      rw [hT.idx]
      exact hbounds c hc

theorem nrUlSchedule_inBounds (h : ∀ s cands, InBounds (P.rbAlloc s cands)) :
    InBounds (nrUlSchedule P dciIndex schedIndex b s cands) := by
  unfold nrUlSchedule
  simp only
  split
  · exact .ok _
  split
  · exact .ok _
  split
  · exact .ok _
  · refine (allocPerBeam_inBounds (fun s group => ?_) _ _ _).bind fun _ _ => .ok _
    unfold ulRbAlloc
    split
    · exact .ok _
    · exact h s group

theorem remaining_le {numBeams maxDci n : Nat} (h : n ≤ numBeams * maxDci) :
    n + numBeams * (maxDci - n) ≤ numBeams * maxDci := by
  rcases Nat.lt_or_ge maxDci n with hlt | hle
  · rw [Nat.sub_eq_zero_of_le (Nat.le_of_lt hlt), Nat.mul_zero]
    exact h
  · rcases Nat.eq_zero_or_pos numBeams with rfl | hpos
    · simpa using h
    · calc n + numBeams * (maxDci - n) ≤ numBeams * n + numBeams * (maxDci - n) :=
          Nat.add_le_add_right (Nat.le_mul_of_pos_left n hpos) _
        _ = numBeams * maxDci := by rw [← Nat.mul_add, Nat.add_sub_cancel' hle]

theorem ulschRounds_inBounds {policies : Nat → UlPolicies σ}
    (hrb : ∀ limit s cands, InBounds ((policies limit).rbAlloc s cands))
    (hcount : ∀ limit s cands r, (policies limit).rbAlloc s cands = .ok r →
      (∀ d ∈ cands, d.scheduled = false) → r.1.countP UlCandidate.scheduled ≤ max 1 limit)
    {lastDl : Bool} {maxDci : Nat} {n : Nat → Nat} {rounds : List (UlRound σ)}
    (hfit : ∀ c, n c + b.numBeams * maxDci ≤ maxDciCoreset) :
    InBounds (ulschRounds policies dciIndex lastDl maxDci b s n rounds) := by
  induction rounds generalizing maxDci b s n with
  | nil => exact .ok _
  | cons round rounds ih =>
    unfold ulschRounds
    split
    · exact .ok _
    split
    · exact .ok _
    · next hmax _ =>
      refine (nrUlSchedule_inBounds (hrb maxDci)).bind fun r hr => ?_
      obtain ⟨hnum, hle⟩ := nrUlSchedule_count (hcount maxDci) hr
      rw [Nat.max_eq_right (Nat.one_le_iff_ne_zero.mpr hmax), countP_eq_length_filter] at hle
      have hcoreset : ∀ c, ((r.cands.filter UlCandidate.scheduled).map fun c => c.pdcch.coresetId).count c ≤
          (r.cands.filter UlCandidate.scheduled).length :=
        fun c => count_le_length.trans_eq (length_map _)
      obtain ⟨n', hn', hplaced⟩ := placeDcis_ok fun c =>
        (Nat.add_le_add_left ((hcoreset c).trans hle) _).trans (hfit c)
      simp only [hn', ok_bind]
      split
      · exact .ok _
      · refine ih fun c => ?_
        rw [hplaced, hnum]
        have hrest := remaining_le hle
        have hc := hcoreset c
        have hfitc := hfit c
        omega

end Uplink

section Default

theorem nrDlProportionalFair_inBounds {ρ : Type} (acknack : ρ → DlCandidate → Nat → Option ρ)
    (pfOrder : List DlCandidate → List DlCandidate) (maxNumUe : Nat) (s : DlSlot ρ)
    (cands : List DlCandidate) : InBounds (nrDlProportionalFair acknack pfOrder maxNumUe s cands) := by
  refine proportionalFair_inBounds (fun _ _ => .ok _) (fun _ _ => .ok _) (fun s c => ?_) s cands
  change InBounds (attemptNewData acknack s c)
  unfold attemptNewData
  simp only
  split
  · exact .ok _
  · exact (nrFindNbRb_inBounds _ _ _ _ _).bind fun _ _ => .ok _

theorem nrUlProportionalFair_inBounds (pfOrder : List UlCandidate → List UlCandidate)
    (minRb maxNumUe : Nat) (s : UlSlot) (cands : List UlCandidate) :
    InBounds (nrUlProportionalFair pfOrder minRb maxNumUe s cands) := by
  refine proportionalFair_inBounds (fun _ _ => .ok _) (fun _ _ => .ok _) (fun s c => ?_) s cands
  change InBounds (attemptUlNewData minRb s c)
  unfold attemptUlNewData
  split
  · exact .ok _
  · exact (nrFindNbRb_inBounds _ _ _ _ _).bind fun _ _ => .ok _

def FromUes (rntis : List Nat) : Prop := rntis.length ≤ maxMobilesPerGnb ∧ rntis.Nodup

/-- Whatever the table of beams, the maps, the PUCCHs and the candidates are, the downlink scheduler of a
cell with so many beams and this bandwidth writes its DCIs inside of `dci_pdu`, behind those that are there
already. -/
def DlDcisFit (numBeams bw : Nat) (numDlDci : Nat → Nat) : Prop :=
  ∀ (ρ : Type) (acknack : ρ → DlCandidate → Nat → Option ρ)
    (pfOrder : List DlCandidate → List DlCandidate) (pfOrder_perm : ∀ cands, (pfOrder cands).Perm cands)
    (tdaSelect : List DlCandidate → List DlCandidate × Nat)
    (tdaSelect_spec : ∀ cands, List.Forall₂ DlCandidate.TdaSelected cands (tdaSelect cands).1)
    (index : Nat) (b : BeamInfo) (s : DlSlot ρ) (cands : List DlCandidate), b.numBeams = numBeams →
    FromUes (cands.map DlCandidate.rnti) →
    InBounds (nrDlschPreprocessor
      (.default acknack pfOrder pfOrder_perm tdaSelect tdaSelect_spec) bw index b s numDlDci cands)

def UlDcisFit (numBeams bw : Nat) : Prop :=
  ∀ (pfOrder : List UlCandidate → List UlCandidate) (pfOrder_perm : ∀ cands, (pfOrder cands).Perm cands)
    (tdaSelect : List UlCandidate → List UlCandidate × Nat)
    (tdaSelect_spec : ∀ cands, List.Forall₂ UlCandidate.TdaSelected cands (tdaSelect cands).1)
    (minRb dciIndex : Nat) (lastDl : Bool) (b : BeamInfo) (s : UlSlot) (rounds : List (UlRound UlSlot)),
    b.numBeams = numBeams → (∀ round ∈ rounds, FromUes (round.cands.map UlCandidate.rnti)) →
    InBounds (nrUlschPreprocessor
      (.default pfOrder pfOrder_perm tdaSelect tdaSelect_spec minRb) bw dciIndex lastDl b s rounds)

theorem fromUes_perBeam {m limit : Nat} (hlimit : limit ≤ 8) (hm : m * limit ≤ maxMobilesPerGnb) :
    FromUes (perBeam (fun i j => 8 * i + j) m limit) := by
  refine ⟨by rwa [length_perBeam], nodup_flatMap.mpr ⟨fun i _ => ?_, ?_⟩⟩
  · refine nodup_range.map fun j j' h => ?_
    simp only at h
    omega
  · refine pairwise_lt_range.imp fun {i i'} hlt => ?_
    intro x hx hx'
    obtain ⟨j, hj, rfl⟩ := mem_map.mp hx
    obtain ⟨j', hj', heq⟩ := mem_map.mp hx'
    have := mem_range.mp hj
    have := mem_range.mp hj'
    simp only at heq
    omega

theorem exists_beams {n numBeams limit : Nat} (hlimit : limit ≤ 8) (hpos : 0 < numBeams * limit)
    (hmany : maxDciCoreset < n + numBeams * limit) :
    ∃ m ≤ numBeams, 0 < m ∧ m * limit ≤ maxMobilesPerGnb ∧ maxDciCoreset < n + m * limit := by
  have hlimitPos : 0 < limit := Nat.pos_of_mul_pos_left hpos
  have hnumPos : 0 < numBeams := Nat.pos_of_mul_pos_right hpos
  have hroom : (8 / limit + 1) * limit ≤ maxMobilesPerGnb := by
    rw [Nat.succ_mul]
    exact Nat.add_le_add (Nat.div_mul_le_self 8 limit) hlimit
  rcases Nat.le_total numBeams (8 / limit + 1) with hle | hle
  · exact ⟨numBeams, Nat.le_refl _, hnumPos, (Nat.mul_le_mul_right limit hle).trans hroom, hmany⟩
  · have hover : 8 < (8 / limit + 1) * limit := by
      rw [Nat.mul_comm]
      exact Nat.lt_mul_div_succ 8 hlimitPos
    exact ⟨8 / limit + 1, hle, Nat.succ_pos _, hroom, Nat.lt_of_lt_of_le hover (Nat.le_add_left _ _)⟩

theorem map_const_perBeam {κ : Type} {cand : Nat → Nat → κ} {f : κ → Nat} {v : Nat}
    (h : ∀ i j, f (cand i j) = v) (m limit : Nat) : (perBeam cand m limit).map f = List.replicate (m * limit) v := by
  rw [eq_replicate_iff, length_map, length_perBeam]
  refine ⟨rfl, forall_mem_map.mpr fun c hc => ?_⟩
  obtain ⟨i, _, j, _, rfl⟩ := mem_perBeam.mp hc
  exact h i j

theorem filter_perBeam {κ : Type} {cand : Nat → Nat → κ} {p : κ → Bool} (h : ∀ i j, p (cand i j) = true)
    (m limit : Nat) : (perBeam cand m limit).filter p = perBeam cand m limit := by
  refine filter_eq_self.mpr fun c hc => ?_
  obtain ⟨i, _, j, _, rfl⟩ := mem_perBeam.mp hc
  exact h i j

theorem maxSchedUes_le (bw : Nat) : maxSchedUes bw ≤ 8 := Nat.min_le_right _ _

theorem nrDlschPreprocessor_overflow {numBeams m bw : Nat} (coresetId : Nat) {numDlDci : Nat → Nat} (index : Nat)
    (hm : m ≤ max 1 numBeams) (hpos : 0 < m) (hmany : maxDciCoreset < numDlDci coresetId + m * max 1 (maxSchedUes bw)) :
    nrDlschPreprocessor dlPoliciesInOrder bw index (everyBeam numBeams) (dlFull (max 1 (maxSchedUes bw)) 0 0) numDlDci
        (perBeam (dlRetx coresetId) m (max 1 (maxSchedUes bw))) = .error .outOfBounds := by
  obtain ⟨r, hr, hcands⟩ := map_eq_ok.mp (nrDlSchedule_full coresetId index hm hpos (maxSchedUes_le bw))
  have hplaced : (r.cands.filter DlCandidate.scheduled).map (fun c => c.pdcch.coresetId) =
      List.replicate (m * max 1 (maxSchedUes bw)) coresetId := by
    rw [hcands, filter_perBeam fun _ _ => rfl]
    apply map_const_perBeam
    exact fun _ _ => rfl
  unfold nrDlschPreprocessor
  rw [show (everyBeam numBeams).numBeams = numBeams from rfl, hr]
  change placeDcis _ _ = _
  rw [hplaced]
  exact placeDcis_overflow (Nat.mul_pos hpos (by omega)) hmany

theorem nrUlschPreprocessor_overflow {numBeams m bw : Nat} (coresetId dciIndex schedIndex : Nat)
    (hm : m ≤ numBeams) (hpos : 0 < m) (hlimit : maxSchedUes bw ≠ 0)
    (hmany : maxDciCoreset < m * max 1 (maxSchedUes bw)) :
    nrUlschPreprocessor ulPoliciesInOrder bw dciIndex true (everyBeam numBeams) (ulFull (max 1 (maxSchedUes bw)) 0 0)
        [⟨schedIndex, perBeam (ulRetx coresetId) m (max 1 (maxSchedUes bw)), id⟩] = .error .outOfBounds := by
  obtain ⟨r, hr, hcands⟩ := map_eq_ok.mp (nrUlSchedule_full coresetId dciIndex schedIndex hm hpos (maxSchedUes_le bw))
  have hplaced : (r.cands.filter UlCandidate.scheduled).map (fun c => c.pdcch.coresetId) =
      List.replicate (m * max 1 (maxSchedUes bw)) coresetId := by
    rw [hcands, filter_perBeam fun _ _ => rfl]
    apply map_const_perBeam
    exact fun _ _ => rfl
  unfold nrUlschPreprocessor ulschRounds
  rw [if_neg hlimit, if_neg (by simp)]
  simp only [id_eq, hr, ok_bind]
  rw [hplaced, placeDcis_overflow (Nat.mul_pos hpos (by omega)) (by omega), error_bind]

/-- The DCIs fit if and only if the limits for all the beams together do. -/
theorem dcis_fit_iff (numBeams bw ulBw : Nat) (numDlDci : Nat → Nat) : (DlDcisFit numBeams bw numDlDci ↔
      ∀ c, numDlDci c + max 1 numBeams * max 1 (maxSchedUes bw) ≤ maxDciCoreset) ∧
    (UlDcisFit numBeams ulBw ↔ numBeams * maxSchedUes ulBw ≤ maxDciCoreset) := by
  refine ⟨⟨fun hfit c => ?_, fun hfit => ?_⟩, ⟨fun hfit => ?_, fun hfit => ?_⟩⟩
  · by_contra hmany
    have hlimit : max 1 (maxSchedUes bw) ≤ 8 := by
      have := maxSchedUes_le bw
      omega
    obtain ⟨m, hm, hpos, hues, hmany⟩ := exists_beams hlimit
      (Nat.mul_pos (Nat.lt_of_lt_of_le Nat.one_pos (Nat.le_max_left 1 numBeams)) (by omega)) (Nat.not_le.mp hmany)
    refine hfit Unit _ _ _ _ _ 0 (everyBeam numBeams) _ _ rfl ?_ (nrDlschPreprocessor_overflow c 0 hm hpos hmany)
    rw [map_perBeam]
    exact fromUes_perBeam hlimit hues
  · intro ρ acknack pfOrder pfOrder_perm tdaSelect tdaSelect_spec index b s cands hb _
    subst hb
    exact nrDlschPreprocessor_inBounds (fun s cands => nrDlProportionalFair_inBounds _ _ _ s cands)
      (fun s cands r hr hfresh => proportionalFair_count pfOrder_perm hfresh hr) hfit
  · by_contra hmany
    have hlimit := maxSchedUes_le ulBw
    have hne : maxSchedUes ulBw ≠ 0 := by
      intro h
      simp [h, maxDciCoreset] at hmany
    have hmax : max 1 (maxSchedUes ulBw) = maxSchedUes ulBw := by omega
    obtain ⟨m, hm, hpos, hues, hmany⟩ := exists_beams (n := 0) hlimit
      (Nat.zero_lt_of_lt (Nat.not_le.mp hmany)) (by rw [Nat.zero_add]; exact Nat.not_le.mp hmany)
    refine hfit _ _ _ _ 5 0 true (everyBeam numBeams) _ _ rfl ?_
      (nrUlschPreprocessor_overflow 0 0 0 hm hpos hne (by rw [hmax]; omega))
    refine forall_mem_singleton.mpr ?_
    rw [map_perBeam, hmax]
    exact fromUes_perBeam hlimit hues
  · intro pfOrder pfOrder_perm tdaSelect tdaSelect_spec minRb dciIndex lastDl b s rounds hb _
    subst hb
    exact ulschRounds_inBounds (fun limit s cands => nrUlProportionalFair_inBounds _ _ _ s cands)
      (fun limit s cands r hr hfresh => proportionalFair_count pfOrder_perm hfresh hr) fun c => by rwa [Nat.zero_add]

/-- Two beams and nine UEs in a carrier of 273 resource blocks: eight DCIs for the first beam, which is the
limit of each call, and a ninth for the second. -/
theorem ninth_dci_out_of_bounds : maxSchedUes 273 = 8 ∧ (everyBeam 2).numBeams = 2 ∧
    (nrDlschPreprocessor dlPoliciesInOrder 273 0 (everyBeam 2) ⟨fun _ _ => 0, ()⟩ (fun _ => 0)
      ((List.range 8).map (dlRetx 0 0) ++ [dlRetx 0 1 0])).map (fun _ => ()) = .error .outOfBounds ∧
    (nrUlschPreprocessor ulPoliciesInOrder 273 0 false (everyBeam 2) ⟨fun _ _ => 0, fun _ _ => 0⟩
      [⟨0, (List.range 8).map (ulRetx 0 0) ++ [ulRetx 0 1 0], id⟩]).map (fun _ => ()) = .error .outOfBounds := by
  decide +kernel

end Default

end OaiNr.Mac
