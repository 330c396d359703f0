import Mathlib.Tactic.SplitIfs
import OaiNr.Sdap.Lemmas.Config
import OaiNr.Sdap.Session

/-!
# Transmission and reception agree
-/

namespace OaiNr.Sdap

open Entity

/-! ## The two ends -/

structure Twin (r r' : Qfi2drb) : Prop where
  drb : r.drbId = r'.drbId
  ul : r.entityRole.ulRx = r'.entityRole.ulTx
  dl : r.entityRole.dlTx = r'.entityRole.dlRx

structure Mirrored (g u : Entity) : Prop where
  enable : g.enableSdap = u.enableSdap
  defaultDrb : g.defaultDrb = u.defaultDrb
  rule : ∀ qfi, Twin (g.qfi2drbTable qfi) (u.qfi2drbTable qfi)

structure SameConfig (c c' : SdapConfig) : Prop where
  drb : c.drbId = c'.drbId
  defaultDrb : c.defaultDrb = c'.defaultDrb
  role : Twin ⟨c.drbId, c.role⟩ ⟨c'.drbId, c'.role⟩
  enable : c.role ≠ noSdapHeader ↔ c'.role ≠ noSdapHeader
  add : c.mappedQfis2Add = c'.mappedQfis2Add
  release : c.mappedQfis2Release = c'.mappedQfis2Release

variable {g u g' u' : Entity} {s s' : Session} {cg cu : SdapConfig} {c : NrSdapConfig} {drbId : Nat}

theorem sameConfig_of_getConfig (hg : nrSdapGetConfig true c drbId = .ok cg)
    (hu : nrSdapGetConfig false c drbId = .ok cu) : SameConfig cg cu := by
  rw [nrSdapGetConfig] at hg hu
  split at hg
  · rw [if_pos ‹_›] at hu
    cases hg
    cases hu
    refine ⟨rfl, rfl, ⟨rfl, rfl, rfl⟩, ?_, rfl, rfl⟩
    simp [getSdapRole, noSdapHeader]
  · cases hg

section Mirrored

variable (h : Mirrored g u)
include h

theorem Mirrored.update (qfi : Fin sdapMaxQfi) {r r' : Qfi2drb} (hr : Twin r r') :
    Mirrored { g with qfi2drbTable := Function.update g.qfi2drbTable qfi r }
      { u with qfi2drbTable := Function.update u.qfi2drbTable qfi r' } := by
  refine ⟨h.enable, h.defaultDrb, fun q => ?_⟩
  by_cases hq : q = qfi
  · subst hq
    simpa using hr
  · simpa [hq] using h.rule q

theorem Mirrored.addQosFlow (hc : SameConfig cg cu) (qfi : Nat) :
    Mirrored (Entity.addQosFlow cg g qfi) (Entity.addQosFlow cu u qfi) := by
  rw [Entity.addQosFlow, Entity.addQosFlow, hc.drb]
  split_ifs
  · exact h.update _ ⟨rfl, hc.role.ul, hc.role.dl⟩
  · exact h
  · exact h

theorem Mirrored.addQosFlowsToDrb (hc : SameConfig cg cu) :
    Mirrored (g.addQosFlowsToDrb cg) (u.addQosFlowsToDrb cu) := by
  rw [Entity.addQosFlowsToDrb, Entity.addQosFlowsToDrb, hc.add]
  induction cu.mappedQfis2Add generalizing g u with
  | nil => exact h
  | cons qfi l ih => exact ih (h.addQosFlow hc qfi)

theorem Mirrored.rmQosFlows {l : List Nat} (hg : g.rmQosFlows l = .ok g')
    (hu : u.rmQosFlows l = .ok u') : Mirrored g' u' := by
  induction l generalizing g u with
  | nil =>
    cases hg
    cases hu
    exact h
  | cons qfi l ih =>
    rw [Entity.rmQosFlows] at hg hu
    split at hg
    · rename_i hlt
      rw [dif_pos hlt] at hu
      exact ih (h.update ⟨qfi, hlt⟩ ⟨rfl, rfl, rfl⟩) hg hu
    · cases hg

theorem Mirrored.releaseDrb (drbId : Nat) : Mirrored (g.releaseDrb drbId) (u.releaseDrb drbId) := by
  refine ⟨h.enable, h.defaultDrb, fun q => ?_⟩
  obtain ⟨hd, h1, h2⟩ := h.rule q
  simp only [Entity.releaseDrb, hd]
  split
  · exact ⟨rfl, h1, h2⟩
  · exact ⟨hd, h1, h2⟩

end Mirrored

theorem Session.Reaches.mirrored (h : s.Reaches) : Mirrored s.gnb s.ue := by
  induction h with
  | new hg hga hu hua =>
    have hc := sameConfig_of_getConfig hg hu
    rw [addEntity_cases hga, addEntity_cases hua]
    refine Mirrored.addQosFlowsToDrb ⟨?_, ?_, fun _ => ⟨rfl, rfl, rfl⟩⟩ hc
    · simp only [hc.enable]
    · simp only [hc.defaultDrb, hc.drb]
  | step _ hs ih =>
    cases hs with
    | configure hg hgu hu huu =>
      have hc := sameConfig_of_getConfig hg hu
      have hrg := qfi2drbMapUpdate_cases hgu
      rw [hc.release] at hrg
      exact (ih.addQosFlowsToDrb hc).rmQosFlows hrg (qfi2drbMapUpdate_cases huu)
    | release drbId => exact ih.releaseDrb drbId

/-! ## The roles of each end -/

/-- `P` is true of the roles of all QoS flows. -/
def RolesIn (P : Role → Prop) (e : Entity) : Prop := ∀ qfi, P (e.qfi2drbTable qfi).entityRole

namespace RolesIn

variable {P : Role → Prop} {e e' : Entity} (h : RolesIn P e)
include h

theorem update (qfi : Fin sdapMaxQfi) {r : Qfi2drb} (hr : P r.entityRole) :
    RolesIn P { e with qfi2drbTable := Function.update e.qfi2drbTable qfi r } := by
  intro q
  by_cases hq : q = qfi
  · subst hq
    simpa using hr
  · simpa [hq] using h q

theorem addQosFlowsToDrb (hc : P cg.role) : RolesIn P (e.addQosFlowsToDrb cg) := by
  rw [Entity.addQosFlowsToDrb]
  induction cg.mappedQfis2Add generalizing e with
  | nil => exact h
  | cons qfi l ih =>
    refine ih ?_
    rw [Entity.addQosFlow]
    split_ifs
    · exact h.update _ hc
    · exact h
    · exact h

theorem rmQosFlows (hnone : P noSdapHeader) {l : List Nat} (hrm : e.rmQosFlows l = .ok e') : RolesIn P e' := by
  induction l generalizing e with
  | nil =>
    cases hrm
    exact h
  | cons qfi l ih =>
    rw [Entity.rmQosFlows] at hrm
    split at hrm
    · exact ih (h.update _ hnone) hrm
    · cases hrm

theorem qfi2drbMapUpdate (hnone : P noSdapHeader) (hc : P cg.role) {r : Entity × List Submission}
    (hr : e.qfi2drbMapUpdate cg = .ok r) : RolesIn P r.1 :=
  (h.addQosFlowsToDrb hc).rmQosFlows hnone (qfi2drbMapUpdate_cases hr)

theorem releaseDrb (drbId : Nat) : RolesIn P (e.releaseDrb drbId) := by
  intro q
  simp only [Entity.releaseDrb]
  split
  · exact h q
  · exact h q

theorem rxEntity {pdcpEntity : Nat} {buf : List UInt8} {r : Received}
    (hr : e.rxEntity pdcpEntity false buf = .ok r) : RolesIn P r.entity := by
  have hdl : ∀ hdr payload, RolesIn P (e.receivedDl pdcpEntity hdr payload).entity := fun hdr payload => by
    rw [receivedDl]
    split_ifs
    · exact h.update _ (h _)
    · exact h
  cases hen : e.enableSdap
  · simp only [Entity.rxEntity, hen, Bool.false_eq_true, if_false] at hr
    cases hr
    exact h
  · cases buf with
    | nil => simp [Entity.rxEntity, hen] at hr
    | cons hdr payload =>
      simp only [Entity.rxEntity, hen, if_true, Bool.false_eq_true, if_false] at hr
      split_ifs at hr <;> cases hr
      exacts [h, hdl _ _, h]

end RolesIn

theorem getConfig_role {isGnb : Bool} (h : nrSdapGetConfig isGnb c drbId = .ok cg) : cg.role = getSdapRole isGnb c := by
  rw [nrSdapGetConfig] at h
  split at h
  · cases h
    rfl
  · cases h

namespace Session

/-- Each end sends headers of its own direction only. -/
structure Sided (s : Session) : Prop where
  isGnb : s.gnb.isGnb = true
  gnb : RolesIn (·.ulTx = false) s.gnb
  ue : RolesIn (·.dlTx = false) s.ue

theorem Sided.step (h : Sided s) (hs : Step s s') : Sided s' := by
  cases hs with
  | configure hg hgu hu huu =>
    refine ⟨(qfi2drbMapUpdate_sameIds hgu).isGnb.trans h.isGnb, h.gnb.qfi2drbMapUpdate rfl ?_ hgu,
      h.ue.qfi2drbMapUpdate rfl ?_ huu⟩
    · rw [getConfig_role hg]
      rfl
    · rw [getConfig_role hu]
      rfl
  | release drbId => exact ⟨h.isGnb, h.gnb.releaseDrb drbId, h.ue.releaseDrb drbId⟩

theorem Reaches.sided (h : s.Reaches) : Sided s := by
  induction h with
  | new hg hga hu hua =>
    rw [addEntity_cases hga, addEntity_cases hua]
    refine ⟨(addQosFlowsToDrb_sameIds _ _).isGnb, .addQosFlowsToDrb (fun _ => rfl) ?_,
      .addQosFlowsToDrb (fun _ => rfl) ?_⟩
    · rw [getConfig_role hg]
      rfl
    · rw [getConfig_role hu]
      rfl
  | step _ hs ih => exact ih.step hs

theorem Runs.sided (h : s.Runs) : Sided s := by
  induction h with
  | reaches h => exact h.sided
  | step _ hs ih => exact ih.step hs
  | updateQosFlows _ _ hg ih =>
    refine ⟨(qfi2drbMapUpdate_sameIds hg).isGnb.trans ih.isGnb, ih.gnb.qfi2drbMapUpdate rfl ?_ hg, ih.ue⟩
    simp [qosFlowsConfig, ih.isGnb]
  | receive _ hr ih => exact ⟨ih.isGnb, ih.gnb, ih.ue.rxEntity hr⟩

end Session

/-! ## Headers -/

theorem hdrQfi_ofNat (qfi : Fin sdapMaxQfi) (a b : Bool) :
    hdrQfi (UInt8.ofNat (qfi + 64 * a.toNat + 128 * b.toNat)) = qfi := by
  have hq : qfi.val < 64 := qfi.isLt
  apply Fin.ext
  show (qfi.val + 64 * a.toNat + 128 * b.toNat) % 256 % 64 = qfi.val
  omega

@[simp] theorem hdrQfi_ulHdr (qfi : Fin sdapMaxQfi) (r dc : Bool) : hdrQfi (ulHdr qfi r dc) = qfi :=
  hdrQfi_ofNat qfi r dc

@[simp] theorem hdrQfi_dlHdr (qfi : Fin sdapMaxQfi) (rqi rdi : Bool) : hdrQfi (dlHdr qfi rqi rdi) = qfi :=
  hdrQfi_ofNat qfi rqi rdi

variable {qfi : Fin sdapMaxQfi} {flag : Bool} {packet : List UInt8}

theorem txEntity_ue (h : (u.qfi2drbTable qfi).entityRole.dlTx = false) (hp : packet ≠ []) :
    u.txEntity packet qfi flag = if u.qfi2drb qfi = 0 then none
      else if (u.qfi2drbTable qfi).entityRole.ulTx then
        if packet.length ≤ maxSduSize then some ⟨u.qfi2drb qfi, ulHdr qfi false flag :: packet⟩ else none
      else some ⟨u.qfi2drb qfi, packet⟩ := by
  simp only [txEntity, h]
  cases (u.qfi2drbTable qfi).entityRole.ulTx
  · rfl
  · by_cases hmax : packet.length ≤ maxSduSize
    · simp [hp, Nat.not_lt.mpr hmax, hmax]
    · simp [hmax, Nat.lt_of_not_le hmax]

theorem txEntity_gnb (h : (g.qfi2drbTable qfi).entityRole.ulTx = false) (hp : packet ≠ []) :
    g.txEntity packet qfi flag = if g.qfi2drb qfi = 0 then none
      else if (g.qfi2drbTable qfi).entityRole.dlTx then
        if packet.length ≤ maxSduSize then some ⟨g.qfi2drb qfi, dlHdr qfi flag false :: packet⟩ else none
      else some ⟨g.qfi2drb qfi, packet⟩ := by
  simp only [txEntity, h]
  cases (g.qfi2drbTable qfi).entityRole.dlTx
  · rfl
  · by_cases hmax : packet.length ≤ maxSduSize
    · simp [hp, Nat.not_lt.mpr hmax, hmax]
    · simp [hmax, Nat.lt_of_not_le hmax]

/-! ## Agreement -/

namespace Session

/-- The UE has a DRB for the QoS flow. If it puts a header in front, the gNB expects one for this flow; if it does not,
the gNB expects none of any flow, and the DRB is configured without. -/
def UlAgrees (s : Session) (qfi : Fin sdapMaxQfi) (packet : List UInt8) : Prop :=
  s.ue.qfi2drb qfi ≠ 0 ∧
    if (s.ue.qfi2drbTable qfi).entityRole.ulTx then
      packet.length ≤ maxSduSize ∧ s.gnb.enableSdap = true ∧ (s.gnb.qfi2drbTable qfi).drbId ≠ 0 ∧
        (s.gnb.qfi2drbTable qfi).entityRole.ulRx = true
    else s.gnb.enableSdap = false ∧ s.headerUl (s.ue.qfi2drb qfi) = false

/-- The first octet, read as a header, has a QFI for which the UE expects none. -/
def TakenForPlain (s : Session) (packet : List UInt8) : Prop :=
  ∃ b ∈ packet.head?, (s.ue.qfi2drbTable (hdrQfi b)).drbId ≠ 0 ∧
    (s.ue.qfi2drbTable (hdrQfi b)).entityRole.dlRx = false

def DlAgrees (s : Session) (qfi : Fin sdapMaxQfi) (packet : List UInt8) : Prop :=
  s.gnb.qfi2drb qfi ≠ 0 ∧
    if (s.gnb.qfi2drbTable qfi).entityRole.dlTx then
      packet.length ≤ maxSduSize ∧ s.ue.enableSdap = true ∧ (s.ue.qfi2drbTable qfi).drbId ≠ 0 ∧
        (s.ue.qfi2drbTable qfi).entityRole.dlRx = true
    else s.headerDl (s.gnb.qfi2drb qfi) = false ∧ (s.ue.enableSdap = false ∨ s.TakenForPlain packet)

theorem ulExact_iff (h : (s.ue.qfi2drbTable qfi).entityRole.dlTx = false) (hp : packet ≠ []) :
    s.UlExact qfi flag packet ↔ s.UlAgrees qfi packet := by
  rw [UlExact, UlAgrees, txEntity_ue h hp]
  by_cases hq : s.ue.qfi2drb qfi = 0
  · simp [hq]
  rw [if_neg hq]
  cases (s.ue.qfi2drbTable qfi).entityRole.ulTx
  · -- no header: the packet itself is what the gNB gets
    simp only [Bool.false_eq_true, if_false, Option.some.injEq, exists_eq_left', rxEntity, hq, not_false_eq_true,
      ne_eq, true_and]
    cases s.gnb.enableSdap
    · simp [receivedPlain]
    · obtain ⟨b, rest, rfl⟩ := List.exists_cons_of_ne_nil hp
      have hne : rest ≠ b :: rest := fun heq => absurd (congrArg List.length heq) (by simp)
      simp only [if_true, Bool.true_eq_false, false_and, iff_false]
      rintro ⟨r, d, hr, hd, hpay, -⟩
      split_ifs at hr <;> cases hr <;> cases hd
      exact hne hpay
  · by_cases hmax : packet.length ≤ maxSduSize
    · simp only [if_true, hmax, Option.some.injEq, exists_eq_left', rxEntity, hdrQfi_ulHdr]
      cases s.gnb.enableSdap
      · simp [receivedPlain]
      · by_cases hz : (s.gnb.qfi2drbTable qfi).drbId = 0
        · simp [hz]
        · cases hrx : (s.gnb.qfi2drbTable qfi).entityRole.ulRx
          · simp [hz]
          · simp [hz, hq]
    · simp [hmax]

theorem dlExact_iff (h : (s.gnb.qfi2drbTable qfi).entityRole.ulTx = false) (hp : packet ≠ []) :
    s.DlExact qfi flag packet ↔ s.DlAgrees qfi packet := by
  rw [DlExact, DlAgrees, txEntity_gnb h hp]
  by_cases hq : s.gnb.qfi2drb qfi = 0
  · simp [hq]
  rw [if_neg hq]
  cases (s.gnb.qfi2drbTable qfi).entityRole.dlTx
  · simp only [Bool.false_eq_true, if_false, Option.some.injEq, exists_eq_left', rxEntity, hq, not_false_eq_true,
      ne_eq, true_and]
    cases s.ue.enableSdap
    · simp [receivedPlain]
    · obtain ⟨b, rest, rfl⟩ := List.exists_cons_of_ne_nil hp
      simp only [if_true, Bool.true_eq_false, false_or, TakenForPlain, List.head?_cons, Option.mem_def,
        Option.some.injEq, exists_eq_left']
      by_cases hz : (s.ue.qfi2drbTable (hdrQfi b)).drbId = 0
      · simp [hz]
      · cases hrx : (s.ue.qfi2drbTable (hdrQfi b)).entityRole.dlRx
        · simp [hz, receivedPlain]
        · simp [hz, receivedDl]
  · by_cases hmax : packet.length ≤ maxSduSize
    · simp only [if_true, hmax, Option.some.injEq, exists_eq_left', rxEntity, hdrQfi_dlHdr]
      cases s.ue.enableSdap
      · simp [receivedPlain]
      · by_cases hz : (s.ue.qfi2drbTable qfi).drbId = 0
        · simp [hz]
        · cases hrx : (s.ue.qfi2drbTable qfi).entityRole.dlRx
          · simp [hz, receivedPlain]
          · simp [hz, hq, receivedDl]
    · simp [hmax]

/-- After any run of the session, a packet is delivered as it was given, with its QFI where the DRB has a header, if and
only if the two ends agree on the header of its QoS flow. -/
theorem exact_iff_agrees (h : s.Runs) (hp : packet ≠ []) :
    (s.UlExact qfi flag packet ↔ s.UlAgrees qfi packet) ∧ (s.DlExact qfi flag packet ↔ s.DlAgrees qfi packet) :=
  ⟨ulExact_iff (h.sided.ue qfi) hp, dlExact_iff (h.sided.gnb qfi) hp⟩

def oneFlow (headerUl headerDl : Bool) : NrSdapConfig :=
  { pduSession := 1, sdapHeaderUl := headerUl, sdapHeaderDl := headerDl, defaultDrb := true
    mappedQosFlowsToAdd := [1], mappedQosFlowsToRelease := [] }

theorem reaches_oneFlow (headerUl headerDl : Bool) : ∃ s, Reaches s ∧ s.ue.qfi2drb 1 = 1 ∧
    s.ue.qfi2drbTable 1 = ⟨1, { ulTx := headerUl, dlRx := headerDl }⟩ ∧
    s.gnb.qfi2drbTable 1 = ⟨1, { ulRx := headerUl, dlTx := headerDl }⟩ ∧
    s.ue.enableSdap = (headerUl || headerDl) ∧ s.gnb.enableSdap = (headerUl || headerDl) := by
  obtain ⟨cg, hcg⟩ : ∃ cg, nrSdapGetConfig true (oneFlow headerUl headerDl) 1 = .ok cg := ⟨_, rfl⟩
  obtain ⟨cu, hcu⟩ : ∃ cu, nrSdapGetConfig false (oneFlow headerUl headerDl) 1 = .ok cu := ⟨_, rfl⟩
  obtain ⟨g, hg, hgt, hge⟩ : ∃ g, addEntity true 0 cg = .ok g ∧
      g.qfi2drbTable 1 = ⟨1, { ulRx := headerUl, dlTx := headerDl }⟩ ∧ g.enableSdap = (headerUl || headerDl) := by
    cases hcg
    cases headerUl <;> cases headerDl <;> exact ⟨_, rfl, rfl, rfl⟩
  obtain ⟨u, hu, hut, hue⟩ : ∃ u, addEntity false 0 cu = .ok u ∧
      u.qfi2drbTable 1 = ⟨1, { ulTx := headerUl, dlRx := headerDl }⟩ ∧ u.enableSdap = (headerUl || headerDl) := by
    cases hcu
    cases headerUl <;> cases headerDl <;> exact ⟨_, rfl, rfl, rfl⟩
  refine ⟨_, .new hcg hg hcu hu, ?_, hut, hgt, hue, hge⟩
  show u.qfi2drb 1 = 1
  rw [qfi2drb, hut]
  rfl

/-- With a header in both directions, the packets of the QoS flow arrive. -/
theorem exact_iff_agrees_both : ∃ s, Reaches s ∧ s.UlExact 1 true [0x45] ∧ s.DlExact 1 true [0x45] := by
  obtain ⟨s, hs, hq, hu, hg, heu, heg⟩ := reaches_oneFlow true true
  have h : (s.UlExact 1 true [0x45] ↔ _) ∧ (s.DlExact 1 true [0x45] ↔ _) :=
    exact_iff_agrees (.reaches hs) (List.cons_ne_nil _ _)
  have hq' : s.gnb.qfi2drb 1 ≠ 0 := by
    rw [qfi2drb, hg]
    exact Nat.one_ne_zero
  refine ⟨s, hs, h.1.mpr ?_, h.2.mpr ?_⟩
  · rw [UlAgrees, hu, hg, heg, hq]
    exact ⟨by decide, by decide, rfl, by decide, rfl⟩
  · rw [DlAgrees, hg, hu, heu]
    exact ⟨hq', by decide, rfl, by decide, rfl⟩

/-- With a header for DL only, a packet of the UE that starts with its own QFI makes the gNB fail an
assertion. -/
theorem ul_assertion_fails : ∃ s, Reaches s ∧ s.ue.txEntity [0x01, 0xaa] 1 true = some ⟨1, [0x01, 0xaa]⟩ ∧
    s.gnb.rxEntity 1 true [0x01, 0xaa] = .error .assertion ∧ ¬s.UlExact 1 true [0x01, 0xaa] := by
  obtain ⟨s, hs, hq, hu, hg, heu, heg⟩ := reaches_oneFlow false true
  have htx : s.ue.txEntity [0x01, 0xaa] 1 true = some ⟨1, [0x01, 0xaa]⟩ := by
    rw [txEntity, hq, hu]
    rfl
  have hrx : s.gnb.rxEntity 1 true [0x01, 0xaa] = .error .assertion := by
    have hfirst : hdrQfi 0x01 = 1 := by decide
    simp [rxEntity, heg, hfirst, hg]
  refine ⟨s, hs, htx, hrx, ?_⟩
  rintro ⟨sub, hsub, r, d, hr, -⟩
  rw [htx] at hsub
  cases hsub
  rw [hrx] at hr
  cases hr

/-- After every sequence of configurations and releases, the two ends have a QoS flow on the same DRB, and each expects
a header where the other one sends it. -/
theorem ends_agree (h : s.Reaches) (qfi : Fin sdapMaxQfi) : s.gnb.qfi2drb qfi = s.ue.qfi2drb qfi ∧
    (s.gnb.qfi2drbTable qfi).entityRole.ulRx = (s.ue.qfi2drbTable qfi).entityRole.ulTx ∧
    (s.gnb.qfi2drbTable qfi).entityRole.dlTx = (s.ue.qfi2drbTable qfi).entityRole.dlRx := by
  have hm := h.mirrored
  have hrule := hm.rule qfi
  refine ⟨?_, hrule.ul, hrule.dl⟩
  rw [qfi2drb, qfi2drb, hrule.drb, hm.defaultDrb]

/-- One flow with a rule, configured at both ends. -/
theorem ends_agree_oneFlow : ∃ s, Reaches s ∧ s.ue.qfi2drb 1 = 1 ∧ s.gnb.qfi2drb 1 = 1 := by
  obtain ⟨s, hs, hq, -⟩ := reaches_oneFlow true true
  exact ⟨s, hs, hq, (ends_agree hs 1).1.trans hq⟩

end Session

end OaiNr.Sdap
