import OaiNr.Mac.Lemmas.Harq

/-!
# The HARQ processes are partitioned
-/

namespace OaiNr.Mac

def Harq.Partitioned (h : Harq) (roundMax : Nat) : Prop :=
  ∃ av fb rt, h.available.Repr av ∧ h.feedback.Repr fb ∧ h.retrans.Repr rt ∧
    (av ++ (fb ++ rt)).Perm (List.range h.available.len) ∧
    (∀ i, (h.processes i).isWaiting = true ↔ i ∈ fb) ∧
    (∀ i ∈ av, (h.processes i).round = 0) ∧
    ∀ i ∈ rt, 1 ≤ (h.processes i).round ∧ (h.processes i).round < roundMax

theorem Harq.Held.partitioned {h : Harq} {roundMax : Nat}
    (I : h.Held n roundMax [] av fb rt) : h.Partitioned roundMax :=
  ⟨av, fb, rt, I.available, I.feedback, I.retrans, by rw [I.availableLen]; exact I.perm,
    fun i => I.waiting i (by simp), I.free, I.again⟩

namespace Ue

structure Access (r : Ra) (fb rt : List Nat) : Prop where
  used : ∀ x ∈ fb ++ rt, (x : Int) = r.harqPid
  cfra : r.cfra = true → r.state = .waitMsg3 ∧ fb = [] ∧ rt = []

abbrev DlHeld (c : HarqConfig) (u : Ue) (hold fb rt : List Nat) : Prop :=
  ∃ n av, 0 < n ∧ u.dl.Held n c.dlRoundMax hold av fb rt

abbrev UlHeld (c : HarqConfig) (u : Ue) : Prop := ∃ n av fb rt, 0 < n ∧ u.ul.Held n c.ulRoundMax [] av fb rt

structure Inv (c : HarqConfig) (u : Ue) : Prop where
  dl : ∃ n av fb rt, 0 < n ∧ u.dl.Held n c.dlRoundMax [] av fb rt ∧
    ∀ r, u.ra = some r → Access r fb rt
  ul : UlHeld c u

variable {c : HarqConfig} {u u' : Ue} {r : Ra} {hold av fb rt : List Nat} {n : Nat}

theorem nrofHarqPdsch_le (s : ScInfo) (b : Bool) :
    0 < ScInfo.limit b s.nrofHarqPdsch ∧ ScInfo.limit b s.nrofHarqPdsch ≤ nrMaxHarqProcesses := by
  have h : 0 < s.nrofHarqPdsch ∧ s.nrofHarqPdsch ≤ 32 := by
    unfold ScInfo.nrofHarqPdsch
    split
    · decide
    · split
      · decide
      · have hget : ∀ i : Fin 6, 0 < [2, 4, 6, 10, 12, 16].get i ∧ [2, 4, 6, 10, 12, 16].get i ≤ 32 := by
          decide
        exact hget _
  unfold ScInfo.limit nrMaxHarqProcesses
  split <;> omega

theorem nrofHarqPusch_le (s : ScInfo) (b : Bool) :
    0 < ScInfo.limit b s.nrofHarqPusch ∧ ScInfo.limit b s.nrofHarqPusch ≤ nrMaxHarqProcesses := by
  unfold ScInfo.limit ScInfo.nrofHarqPusch nrMaxHarqProcesses
  split <;> split <;> omega

theorem Access.mono {fb' rt' : List Nat} (A : Access r fb rt)
    (hsub : ∀ y ∈ fb' ++ rt', y ∈ fb ++ rt) : Access r fb' rt' := by
  refine ⟨fun x hx => A.used x (hsub x hx), fun hc => ?_⟩
  obtain ⟨hs, rfl, rfl⟩ := A.cfra hc
  refine ⟨hs, ?_⟩
  exact List.append_eq_nil_iff.mp <| List.eq_nil_iff_forall_not_mem.mpr fun y hy => by
    simpa using hsub y hy

theorem configureBwp_cases (b : Bool) (hdl : DlHeld c u hold fb rt) (hul : UlHeld c u) :
    u.configureBwp b = .error .harqLowered ∨ ∃ u', u.configureBwp b = .ok u' ∧ u'.ra = u.ra ∧
      DlHeld c u' hold fb rt ∧ UlHeld c u' := by
  obtain ⟨n, av, hn, I⟩ := hdl
  obtain ⟨n', av', fb', rt', hn', I'⟩ := hul
  rw [configureBwp, I.createDlList_eq]
  rcases I.createList_cases hn (nrofHarqPdsch_le u.scInfo b).2 with he | ⟨h, m, a, hm, hc, J, -⟩
  · exact .inl (by rw [he]; rfl)
  rcases I'.createList_cases hn' (nrofHarqPusch_le u.scInfo b).2 with he | ⟨h', m', a', hm', hc', J', -⟩
  · exact .inl (by rw [hc, he]; rfl)
  · exact .inr ⟨{ u with dl := h, ul := h' }, by rw [hc, hc']; rfl, rfl, ⟨m, a, hm, J⟩, ⟨m', a', _, _, hm', J'⟩⟩

/-- The process of the action is in no list. -/
theorem ackReconfig_cases (action : Bool) (hdl : DlHeld c u hold fb rt) (hul : UlHeld c u) :
    u.ackReconfig action = .error .harqLowered ∨ ∃ u', u.ackReconfig action = .ok u' ∧ u'.ra = u.ra ∧
      DlHeld c u' hold fb rt ∧ UlHeld c u' := by
  unfold ackReconfig
  split
  · exact configureBwp_cases true hdl hul
  · exact .inr ⟨u, rfl, rfl, hdl, hul⟩

theorem create_cases (c : HarqConfig) (s : ScInfo) (kind : Option RaKind) (b : Bool) :
    ∃ u, create s kind b = .ok u ∧ Inv c u := by
  obtain ⟨dl, hdl, I⟩ := Harq.createList_zero c.dlRoundMax (nrofHarqPdsch_le s b).2
  obtain ⟨ul, hul, I'⟩ := Harq.createList_zero c.ulRoundMax (nrofHarqPusch_le s b).2
  have hd : Harq.zero.createDlList (ScInfo.limit b s.nrofHarqPdsch) = .ok dl := by
    rw [← hdl]
    rfl
  refine ⟨_, by simp only [create, configureBwp, hd, hul, ok_bind]; rfl, ?_, ?_⟩
  · refine ⟨_, _, _, _, (nrofHarqPdsch_le s b).1, I, fun r hr => ⟨by simp, fun _ => ⟨?_, rfl, rfl⟩⟩⟩
    obtain ⟨k, -, rfl⟩ := Option.map_eq_some_iff.mp hr
    rfl
  · exact ⟨_, _, _, _, (nrofHarqPusch_le s b).1, I'⟩

def Safe (c : HarqConfig) (r : Except Fault Ue) : Prop :=
  r = .error .harqLowered ∨ ∃ u', r = .ok u' ∧ Inv c u'

theorem Inv.safe (I : Inv c u) : Safe c (.ok u) := .inr ⟨u, rfl, I⟩

/-! ## Feedback during random access -/

section

variable {x : Nat} (success : Bool) (hra : u.ra = some r) (hpid : (x : Int) = r.harqPid) (hcfra : r.cfra = false)
  (hmax : x < nrMaxHarqProcesses) (hn : 0 < n) (hul : UlHeld c u)
include hra hpid hcfra hmax hn hul

theorem checkMsg4Ack_last (I : u.dl.Held n c.dlRoundMax [] av [] []) (hround : (u.dl.processes x).round = 0) :
    u.checkMsg4Ack success = .error .harqLowered ∨
      ∃ u', u.checkMsg4Ack success = .ok u' ∧ Inv c u' ∧ u'.dl.feedback.head < 0 := by
  have hproc : u.dl.process r.harqPid = .ok (u.dl.processes x) := by
    rw [← hpid]
    exact Harq.process_natCast hmax
  simp only [checkMsg4Ack, hra, hproc, ok_bind, hround, ↓reduceIte]
  cases success with
  | false =>
    have hhead : ¬0 ≤ u.dl.retrans.head := by
      have := I.retrans.head_neg_iff.mpr rfl
      omega
    refine .inr ⟨u, by simp [hhead, pure, Except.pure], ⟨⟨n, av, [], [], hn, I, ?_⟩, hul⟩,
      I.feedback.head_neg_iff.mpr rfl⟩
    intro r' hr'
    obtain rfl : r = r' := Option.some.inj (hra.symm.trans hr')
    exact ⟨by simp, by simp [hcfra]⟩
  | true =>
    rcases configureBwp_cases true ⟨n, av, hn, I⟩ hul with he | ⟨u₁, hc, -, ⟨n₁, av₁, hn₁, I₁⟩, hul₁⟩
    · exact .inl (by simp [he])
    · have hhead : ¬0 ≤ u₁.dl.retrans.head := by
        have := I₁.retrans.head_neg_iff.mpr rfl
        omega
      refine .inr ⟨{ u₁ with ra := none }, by simp [hc, hhead, pure, Except.pure],
        ⟨⟨n₁, av₁, [], [], hn₁, I₁, by simp⟩, hul₁⟩, I₁.feedback.head_neg_iff.mpr rfl⟩

theorem checkMsg4Ack_again (I : u.dl.Held n c.dlRoundMax [] av [] [x]) (hround : 1 ≤ (u.dl.processes x).round) :
    ∃ u', u.checkMsg4Ack success = .ok u' ∧ Inv c u' ∧ u'.dl.feedback.head < 0 := by
  have hproc : u.dl.process r.harqPid = .ok (u.dl.processes x) := by
    rw [← hpid]
    exact Harq.process_natCast hmax
  have hne : ¬(u.dl.processes x).round = 0 := by omega
  refine ⟨{ u with ra := some { r with state := .msg4 } }, ?_, ⟨⟨n, av, [], [x], hn, I, ?_⟩, hul⟩,
    I.feedback.head_neg_iff.mpr rfl⟩
  · simp [checkMsg4Ack, hra, hproc, hne]
  · rintro _ ⟨⟩
    exact ⟨by simp [hpid], by simp [hcfra]⟩

end

theorem Access.only {h : Harq} {roundMax x : Nat}
    (A : Access r (x :: fb) rt) (I : h.Held n roundMax [] av (x :: fb) rt) :
    (x : Int) = r.harqPid ∧ r.cfra = false ∧ fb = [] ∧ rt = [] := by
  have hx : (x : Int) = r.harqPid := A.used x (by simp)
  have hnodup : (x :: fb ++ rt).Nodup := (List.nodup_append.mp I.nodup).2.1 |> fun hnd =>
    (List.nodup_append.mp hnd).2.1
  have hnil : fb ++ rt = [] := by
    refine List.eq_nil_iff_forall_not_mem.mpr fun y hy => (List.nodup_cons.mp hnodup).1 ?_
    have hy' : (y : Int) = r.harqPid := A.used y (List.mem_cons_of_mem x hy)
    obtain rfl : x = y := by omega
    exact hy
  refine ⟨hx, ?_, List.append_eq_nil_iff.mp hnil⟩
  cases hcf : r.cfra with
  | false => rfl
  | true => exact absurd (A.cfra hcf).2.1 (by simp)

theorem handleBits_safe {isRa : Bool} (I : Inv c u) (frame slot : Nat) (bits : List Bool)
    (hra : u.ra = none → isRa = false ∨ u.dl.feedback.head < 0) (hno : isRa = false → u.ra = none) :
    Safe c (u.handleBits c.dlRoundMax frame slot isRa bits) := by
  induction bits generalizing u with
  | nil => exact I.safe
  | cons success bits ih =>
    obtain ⟨⟨n, av, fb, rt, hn, D, hA⟩, hul⟩ := I
    obtain ⟨dl₁, av₁, rt₁, hfind, D₁, hsub⟩ := D.findHarq c.dl_pos frame slot D.length_feedback_lt fun _ _ => rfl
    have hsuf : Harq.Held.due u.dl.processes frame slot fb <:+ fb := List.dropWhile_suffix _
    generalize Harq.Held.due u.dl.processes frame slot fb = fb₁ at hfind D₁ hsub hsuf
    generalize hfound : fb₁.head?.any _ = found at hfind
    have hA₁ : ∀ r, u.ra = some r → Access r fb₁ rt₁ := fun r hr => (hA r hr).mono hsub
    cases found with
    | false =>
      refine .inr ⟨{ u with dl := dl₁ }, ?_, ⟨n, av₁, fb₁, rt₁, hn, D₁, hA₁⟩, hul⟩
      simp [handleBits, hfind]
    | true =>
      obtain ⟨x, fb₂, rfl⟩ := List.exists_cons_of_ne_nil fun hnil : fb₁ = [] => by simp [hnil] at hfound
      have hhead : dl₁.feedback.head = x := D₁.feedback.head_eq
      have hmax : x < nrMaxHarqProcesses := D₁.lt_max (by simp)
      have hwait : (dl₁.processes x).isWaiting = true :=
        (D₁.waiting x (by simp)).mpr (by simp)
      obtain ⟨dl₂, hpop, D₂, -⟩ := D₁.popFeedback
      have hstep : u.handleBits c.dlRoundMax frame slot isRa (success :: bits) = (do
          let u ← ackReconfig { u with dl := dl₂ } (success && (dl₁.processes x).action)
          let dl ← u.dl.handleDl c.dlRoundMax x success
          let u ← if isRa then checkMsg4Ack { u with dl := dl } success else pure { u with dl := dl }
          u.handleBits c.dlRoundMax frame slot isRa bits) := by
        simp [handleBits, hfind, hhead, Harq.process_natCast hmax, hwait, hpop]
      rw [hstep]
      rcases ackReconfig_cases (u := { u with dl := dl₂ }) (success && (dl₁.processes x).action) ⟨n, av₁, hn, D₂⟩ hul with
        herr | ⟨u₂, hact, hra₂, ⟨n₂, av₂, hn₂, E₂⟩, hul₂⟩
      · exact .inl (by rw [herr]; rfl)
      obtain ⟨dl₃, hhandle, H⟩ := E₂.handleDl c.dl_pos success
      simp only [hact, ok_bind, hhandle]
      cases isRa with
      | false =>
        obtain ⟨av₃, rt₃, D₃, -⟩ := H.held
        refine ih (u := { u₂ with dl := dl₃ }) ⟨⟨n₂, av₃, fb₂, rt₃, hn₂, D₃, ?_⟩, hul₂⟩ (fun _ => .inl rfl)
          fun _ => hra₂.trans (hno rfl)
        intro r hr
        simp [hra₂, hno rfl] at hr
      | true =>
        have hnone : u.ra ≠ none := by
          intro hnone
          rcases hra hnone with hf | hneg
          · cases hf
          · have hnil := D.feedback.head_neg_iff.mp hneg
            rw [hnil] at hsuf
            exact absurd hsuf (by simp)
        obtain ⟨r, hr⟩ := Option.ne_none_iff_exists'.mp hnone
        obtain ⟨hpid, hcf, rfl, rfl⟩ := (hA₁ r hr).only D₁
        simp only [↓reduceIte]
        rcases H with ⟨D₃, hround⟩ | ⟨D₃, hround⟩
        · rcases checkMsg4Ack_last (u := { u₂ with dl := dl₃ }) success (hra₂.trans hr) hpid hcf hmax hn₂ hul₂ D₃
            hround with he | ⟨u₁, hc, I₁, hneg⟩
          · exact .inl (by rw [he]; rfl)
          · rw [hc]
            exact ih I₁ (fun _ => .inr hneg) (by simp)
        · obtain ⟨u₁, hc, I₁, hneg⟩ := checkMsg4Ack_again (u := { u₂ with dl := dl₃ }) success (hra₂.trans hr)
            hpid hcf hmax hn₂ hul₂ D₃ hround
          rw [hc]
          exact ih I₁ (fun _ => .inr hneg) (by simp)

/-! ## The steps of a UE -/

theorem resetHarq_eq (I : Inv c u) : ∃ u', u.resetHarq = .ok u' ∧ u'.ra = u.ra ∧
      DlHeld c u' [] [] [] ∧ UlHeld c u' := by
  obtain ⟨⟨n, av, fb, rt, hn, D, -⟩, ⟨n', av', fb', rt', hn', U⟩⟩ := I
  obtain ⟨dl, a, hdl, D'⟩ := D.reset
  obtain ⟨ul, a', hul, U'⟩ := U.reset
  exact ⟨{ u with dl := dl, ul := ul }, by rw [resetHarq, hdl, hul]; rfl, rfl, ⟨n, a, hn, D'⟩,
    ⟨n', a', [], [], hn', U'⟩⟩

theorem rxRaSdu_safe (I : Inv c u) (hr : u.ra = some r) : Safe c (u.rxRaSdu r) := by
  unfold rxRaSdu
  split
  · exact I.safe
  split
  case isTrue =>
    obtain ⟨u₁, hreset, -, hdl, hul⟩ := resetHarq_eq I
    rcases configureBwp_cases false hdl hul with he | ⟨u₂, hc, -, ⟨n, av, hn, D⟩, hul₂⟩
    · exact .inl (by rw [hreset]; simp [he])
    · exact .inr ⟨{ u₂ with ra := none }, by rw [hreset]; simp [hc], ⟨n, av, [], [], hn, D, by simp⟩, hul₂⟩
  case isFalse hcf =>
    obtain ⟨⟨n, av, fb, rt, hn, D, hA⟩, hul⟩ := I
    refine .inr ⟨_, rfl, ⟨n, av, fb, rt, hn, D, ?_⟩, hul⟩
    rintro _ ⟨⟩
    exact ⟨(hA r hr).used, fun hc => absurd hc hcf⟩

theorem generateMsg4_safe (I : Inv c u) (hr : u.ra = some r) (hs : r.state = .msg4)
    (hrt : u.dl.retrans.head < 0) (hfb : u.dl.feedback.head < 0) (pucch : Nat × Nat) :
    Safe c (u.generateMsg4 r pucch) := by
  obtain ⟨⟨n, av, fb, rt, hn, D, hA⟩, hul⟩ := I
  obtain rfl := D.feedback.head_neg_iff.mp hfb
  obtain rfl := D.retrans.head_neg_iff.mp hrt
  have hcf : r.cfra = false := by
    cases hc : r.cfra with
    | false => rfl
    | true => exact absurd ((hA r hr).cfra hc).1 (by simp [hs])
  have hav : av ≠ [] := by
    rintro rfl
    have := D.perm.length_eq
    simp at this
    omega
  obtain ⟨x, av, rfl⟩ := List.exists_cons_of_ne_nil hav
  have hhead : u.dl.available.head = x := D.available.head_eq
  have hnonneg : ¬(x : Int) < 0 := by omega
  have hw : (u.dl.processes x).isWaiting = false := D.isWaiting_eq_false (.inl (by simp))
  obtain ⟨l, hl, D₁⟩ := D.popAvailable c.dl_pos
  obtain ⟨dl₂, hq, D₂, -⟩ := D₁.await
    (f := fun q => { q with feedbackFrame := pucch.1, feedbackSlot := pucch.2, isWaiting := true }) fun _ => ⟨rfl, rfl⟩
  obtain ⟨dl₃, hadd, hmod⟩ := bind_eq_ok.mp hq
  refine .inr ⟨{ u with dl := dl₂, ra := some { r with state := .waitAck, harqPid := x } }, ?_,
    ⟨n, av, [x], [], hn, D₂, ?_⟩, hul⟩
  · simp [generateMsg4, hcf, hrt, hhead, hnonneg, hl, D₁.assertNotWaiting hw, hadd, hmod]
  · rintro _ ⟨⟩
    exact ⟨by simp, by simp [hcf]⟩

def NewMsg4 (u : Ue) : HarqEvent → Prop
  | .msg4Grant _ =>
    (∃ r, u.ra = some r ∧ r.state = .msg4) →
      u.dl.retrans.head < 0 ∧ u.dl.feedback.head < 0
  | _ => True

theorem exec_safe (I : Inv c u) (e : HarqEvent) (he : NewMsg4 u e) : Safe c (u.exec c e) := by
  obtain ⟨⟨n, av, fb, rt, hn, D, hA⟩, ⟨n', av', fb', rt', hn', U⟩⟩ := id I
  cases e with
  | dlGrant pucch srb1 =>
    simp only [exec]
    split
    case h_1 pid hra hc =>
      obtain ⟨dl, a, f, r, hs, D'⟩ := D.setupDl c.dl_pos (D.dlCandidate hc) pucch (u.reconfigCellGroup.isSome && srb1)
      exact .inr ⟨{ u with dl := dl }, by rw [hs]; rfl, ⟨n, a, f, r, hn, D', by simp [hra]⟩, I.ul⟩
    case h_2 => exact I.safe
  | dlGrantPhyTest pucch =>
    simp only [exec]
    split
    case h_1 pid hra hc =>
      obtain ⟨dl, a, f, r, hs, D'⟩ := D.setupDl c.dl_pos (D.freeCandidate hc) pucch false
      exact .inr ⟨{ u with dl := dl }, by rw [hs]; rfl, ⟨n, a, f, r, hn, D', by simp [hra]⟩, I.ul⟩
    case h_2 => exact I.safe
  | ulGrant slot =>
    simp only [exec]
    split
    case h_1 pid hra hc =>
      obtain ⟨ul, a, f, r, hs, U'⟩ := U.setupUl c.ul_pos (U.freeCandidate hc) c.disableHarq slot
      exact .inr ⟨{ u with ul := ul }, by rw [hs]; rfl, I.dl, ⟨n', a, f, r, hn', U'⟩⟩
    case h_2 => exact I.safe
  | uci frame slot bits =>
    exact handleBits_safe I frame slot bits (fun hnone => .inl (by simp [hnone])) (fun hsome => by simpa using hsome)
  | ulCrc pid failed =>
    simp only [exec]
    split
    case isTrue => exact I.safe
    case isFalse =>
      obtain ⟨ul, a, f, r, hs, U'⟩ := U.handleUl c.ul_pos pid failed U.length_feedback_lt
      exact .inr ⟨{ u with ul := ul }, by rw [hs]; rfl, I.dl, ⟨n', a, f, r, hn', U'⟩⟩
  | reset =>
    simp only [exec]
    split
    case isTrue => exact I.safe
    case isFalse hra =>
      obtain ⟨u₁, hreset, hra₁, ⟨m, a, hm, D₁⟩, hul₁⟩ := resetHarq_eq I
      refine .inr ⟨u₁, hreset, ⟨m, a, [], [], hm, D₁, fun r hr => ?_⟩, hul₁⟩
      simp [← hra₁, hr] at hra
  | cellGroup s => exact .inr ⟨{ u with scInfo := s }, rfl, I.dl, I.ul⟩
  | reconfigCellGroup s => exact .inr ⟨{ u with reconfigCellGroup := some s }, rfl, I.dl, I.ul⟩
  | configureBwp b =>
    rcases configureBwp_cases b ⟨n, av, hn, D⟩ I.ul with herr | ⟨u₁, hc, hra, ⟨m, a, hm, D₁⟩, hul₁⟩
    · exact .inl herr
    · exact .inr ⟨u₁, hc, ⟨m, a, fb, rt, hm, D₁, fun r hr => hA r (hra ▸ hr)⟩, hul₁⟩
  | rxRaSdu =>
    simp only [exec]
    split
    case h_1 => exact I.safe
    case h_2 r hr => exact rxRaSdu_safe I hr
  | msg4Grant pucch =>
    simp only [exec]
    split
    case h_1 r hr =>
      split
      case isTrue hs =>
        obtain ⟨hrt, hfb⟩ := he ⟨r, hr, hs⟩
        exact generateMsg4_safe I hr hs hrt hfb pucch
      case isFalse => exact I.safe
    case h_2 => exact I.safe

inductive Reaches (c : HarqConfig) : Ue → Prop
  | create {s : ScInfo} {kind : Option RaKind} {b : Bool} {u : Ue} :
      create s kind b = .ok u → Reaches c u
  | step {u u' : Ue} {e : HarqEvent} :
      Reaches c u → NewMsg4 u e → u.exec c e = .ok u' → Reaches c u'

theorem Reaches.inv (h : Reaches c u) : Inv c u := by
  induction h with
  | create hc =>
    obtain ⟨u, hu, I⟩ := create_cases c _ _ _
    cases hc.symm.trans hu
    exact I
  | step _ he hx ih =>
    rcases exec_safe ih _ he with herr | ⟨u', hu', I⟩
    · cases hx.symm.trans herr
    · cases hx.symm.trans hu'
      exact I

/-- In every state the lists are partitions, and no event meets an assertion, other than the one
that the number of processes is not lowered. -/
theorem harq_partition (h : Reaches c u) : u.dl.Partitioned c.dlRoundMax ∧ u.ul.Partitioned c.ulRoundMax ∧
      ∀ e, NewMsg4 u e → u.exec c e = .error .harqLowered ∨ ∃ u', u.exec c e = .ok u' := by
  obtain ⟨⟨_, _, _, _, _, D, _⟩, ⟨_, _, _, _, _, U⟩⟩ := h.inv
  refine ⟨D.partitioned, U.partitioned, fun e he => ?_⟩
  rcases exec_safe h.inv e he with herr | ⟨u', hu', -⟩
  · exact .inl herr
  · exact .inr ⟨u', hu'⟩

/-- One downlink grant, which waits for its feedback. -/
theorem harq_partition_after_grant : ∃ u u', create ⟨false, none, false⟩ none false = .ok u ∧
      u.exec .default (.dlGrant (some (0, 8)) true) = .ok u' ∧ u'.dl.feedback.head = 0 ∧
      u'.dl.Partitioned 4 ∧ u'.ul.Partitioned 4 ∧ ∀ e, NewMsg4 u' e →
        u'.exec .default e = .error .harqLowered ∨ ∃ u'', u'.exec .default e = .ok u'' := by
  have hrun : ((create ⟨false, none, false⟩ none false) >>= fun u =>
      u.exec .default (.dlGrant (some (0, 8)) true)).map (fun u => u.dl.feedback.head) = .ok 0 := by
    decide
  obtain ⟨u', hrun, hhead⟩ := map_eq_ok.mp hrun
  obtain ⟨u, hc, hg⟩ := bind_eq_ok.mp hrun
  exact ⟨u, u', hc, hg, hhead, harq_partition (.step (e := .dlGrant (some (0, 8)) true) (.create hc) trivial hg)⟩

/-- After negative feedback Msg4 is granted again. Its process is then in two lists. -/
theorem msg4_retransmission_in_two_lists : ∃ u, (create ⟨false, none, false⟩ (some ⟨false, false⟩) true >>= fun u =>
        u.exec .default .rxRaSdu >>= fun u => u.exec .default (.msg4Grant (0, 8)) >>= fun u =>
        u.exec .default (.uci 0 8 [false]) >>= fun u => u.exec .default (.msg4Grant (1, 8))) = .ok u ∧
      u.dl.feedback.head = 0 ∧ u.dl.retrans.head = 0 ∧ ¬u.dl.Partitioned 4 := by
  have hrun : (create ⟨false, none, false⟩ (some ⟨false, false⟩) true >>= fun u =>
        u.exec .default .rxRaSdu >>= fun u =>
        u.exec .default (.msg4Grant (0, 8)) >>= fun u =>
        u.exec .default (.uci 0 8 [false]) >>= fun u =>
        u.exec .default (.msg4Grant (1, 8))).map
        (fun u => (u.dl.feedback.head, u.dl.retrans.head)) = .ok (0, 0) := by
    decide
  obtain ⟨u, hrun, hheads⟩ := map_eq_ok.mp hrun
  obtain ⟨hf, hr⟩ := Prod.mk.inj hheads
  refine ⟨u, hrun, hf, hr, ?_⟩
  rintro ⟨av, fb, rt, -, hfb, hrt, hperm, -⟩
  -- process 0 is the first in both lists
  have hnodup : (fb ++ rt).Nodup :=
    (List.nodup_append.mp (hperm.nodup_iff.mpr List.nodup_range)).2.1
  have h0 : 0 ∈ fb := by
    cases fb with
    | nil => exact absurd (hfb.head_neg_iff.mpr rfl) (by omega)
    | cons x fb => simp [show x = 0 by have := hfb.head_eq; omega]
  have h0' : 0 ∈ rt := by
    cases rt with
    | nil => exact absurd (hrt.head_neg_iff.mpr rfl) (by omega)
    | cons x rt => simp [show x = 0 by have := hrt.head_eq; omega]
  exact (List.nodup_append.mp hnodup).2.2 0 h0 0 h0' rfl

end Ue

end OaiNr.Mac
