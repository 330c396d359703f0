import Mathlib.Data.List.Nodup
import Mathlib.Data.List.Perm.Subperm
import OaiNr.Rrc.Bearers

/-!
# Requests that a session can take

What a request to change the QoS flows of a session asks of the session, such that no assertion fails, and what it does
then: flows are mapped to DRBs of the session, which are only added.
-/

namespace OaiNr.Rrc

open List

section Ids

variable {id session : Nat} {ids : List Nat} {drbs : List Drb}

structure ValidIds (ids : List Nat) : Prop where
  nodup : ids.Nodup
  range : ∀ id ∈ ids, 0 < id ∧ id ≤ maxDrbsPerUe

theorem ValidIds.length_le (h : ValidIds ids) : ids.length ≤ maxDrbsPerUe := by
  have hsub : ids ⊆ range' 1 maxDrbsPerUe := by
    intro id hid
    have := h.range id hid
    exact mem_range'_1.mpr (by omega)
  simpa using (subperm_of_subset h.nodup hsub).length_le

theorem ValidIds.concat (h : ValidIds ids) (hid : 0 < id ∧ id ≤ maxDrbsPerUe) (hnew : id ∉ ids) :
    ValidIds (ids ++ [id]) where
  nodup := nodup_append.mpr ⟨h.nodup, by simp, by grind⟩
  range := by
    intro id' hid'
    rcases mem_append.mp hid' with hid' | hid'
    · exact h.range id' hid'
    · rwa [mem_singleton.mp hid']

theorem nrRrcAddDrb_ok (hsession : 0 < session ∧ session ≤ nrMaxNbPduSessions) (hroom : drbs.length < maxDrbsPerUe) :
    ∃ id, nrRrcAddDrb drbs session = some (drbs ++ [⟨id, session⟩], id) ∧ (0 < id ∧ id ≤ maxDrbsPerUe) ∧
      id ∉ drbs.map (·.id) := by
  rw [nrRrcAddDrb, if_neg (by omega)]
  cases hfind : (range' 1 maxDrbsPerUe).find? fun id => !drbs.any (·.id == id) with
  | none =>
    -- all ids are in use
    rw [find?_eq_none] at hfind
    have hsub : range' 1 maxDrbsPerUe ⊆ drbs.map (·.id) := fun id hid => by simpa using hfind id hid
    have := (subperm_of_subset nodup_range' hsub).length_le
    simp at this
    omega
  | some id =>
    have hrange := mem_range'_1.mp (mem_of_find?_eq_some hfind)
    have hnew := List.find?_some hfind
    exact ⟨id, rfl, ⟨hrange.1, by omega⟩, by simpa using hnew⟩

end Ids

section Request

variable {session id : Nat} {release : List Nat} {items : List QosParams} {q : QosParams} {drbs : List Drb}
  {qos : List QosFlow} {e1 : List E1Drb} {f g : QosFlow} {b : Bearers}

/-- The flows of a session and the DRBs they are mapped to. With fewer than 32 flows the array of them does not shrink,
which `seq_arr.c` does not allocate enough memory for. -/
structure SessionContext (session : Nat) (drbs : List Drb) (qos : List QosFlow) : Prop where
  range : 0 < session ∧ session ≤ nrMaxNbPduSessions
  ids : ValidIds (drbs.map (·.id))
  qfis : (qos.map (·.params.qfi)).Nodup
  params : ∀ f ∈ qos, f.params.qfi ≤ 63 ∧ f.params.fiveQiInRange
  mapped : ∀ f ∈ qos, ∃ d ∈ drbs, d.id = f.drbId ∧ d.pdusessionId = session
  few : qos.length < 32
  delayCritical : ∀ f ∈ qos, ∀ g ∈ qos, f.drbId = g.drbId → f.params.resourceType = .dcGbr →
    g.params.resourceType = .dcGbr → f.params.qfi = g.params.qfi

/-- A flow that is counted as delay critical, or becomes one -/
def QosFlow.DelayCritical (items : List QosParams) (f : QosFlow) : Prop :=
  f.params.resourceType = .dcGbr ∨ ∃ q ∈ items, q.qfi = f.params.qfi ∧ q.resourceType = .dcGbr

/-- The flows to add or to modify are distinct, with 5QIs in range, keep the type of their 5QI, are not released at once,
and at most one of the flows of a DRB is or becomes delay critical. -/
structure Fits (qos : List QosFlow) (items : List QosParams) (release : List Nat) : Prop where
  qfis : (items.map (·.qfi)).Nodup
  fiveQi : ∀ q ∈ items, ∀ fiveQi, q.fiveQi = some fiveQi → fiveQi ≤ 255
  types : ∀ q ∈ items, ∀ f ∈ qos, f.params.qfi = q.qfi → f.params.isDynamic = q.isDynamic
  delayCritical : ∀ f ∈ qos, ∀ g ∈ qos, f.drbId = g.drbId → f.DelayCritical items → g.DelayCritical items →
    f.params.qfi = g.params.qfi
  few : qos.length + items.length < 32
  apart : ∀ q ∈ items, q.qfi ∉ release

/-- Every DRB of the session has a flow that is not released. -/
def KeepsDrbs (session : Nat) (drbs : List Drb) (qos : List QosFlow) (release : List Nat) : Prop :=
  ∀ d ∈ drbs, d.pdusessionId = session → ∃ f ∈ qos, f.drbId = d.id ∧ f.params.qfi ∉ release

/-- The state before the flows `items` are added or modified -/
structure Ready (session : Nat) (release : List Nat) (items : List QosParams) (b : Bearers) : Prop where
  context : SessionContext session b.drbs b.qos
  fits : Fits b.qos items release
  keeps : KeepsDrbs session b.drbs b.qos release
  room : b.drbs.length + items.length ≤ maxDrbsPerUe
  modify : ValidIds (b.e1.drbsToModify.map Prod.fst)
  setup : b.e1.drbsToSetup.length + items.length ≤ maxDrbsPerUe
  e1 : b.e1.sessionId = session ∧ b.e1.drbsToRemove = []

/-- Up to `n` DRBs of the session have been added. -/
def Extends (session n : Nat) (drbs drbs' : List Drb) : Prop :=
  ∃ added, drbs' = drbs ++ added ∧ added.length ≤ n ∧ ∀ d ∈ added, d.pdusessionId = session

theorem Extends.refl (session n : Nat) (drbs : List Drb) : Extends session n drbs drbs := ⟨[], by simp⟩

theorem Extends.trans {m n : Nat} {drbs₁ drbs₂ drbs₃ : List Drb} (h : Extends session m drbs₁ drbs₂)
    (h' : Extends session n drbs₂ drbs₃) : Extends session (n + m) drbs₁ drbs₃ := by
  obtain ⟨added, rfl, hm, hadded⟩ := h
  obtain ⟨added', rfl, hn, hadded'⟩ := h'
  refine ⟨added ++ added', by simp, by simp; omega, fun d hd => ?_⟩
  exact (mem_append.mp hd).elim (hadded d) (hadded' d)

theorem SessionContext.drbId_range (h : SessionContext session drbs qos) (hf : f ∈ qos) :
    0 < f.drbId ∧ f.drbId ≤ maxDrbsPerUe := by
  obtain ⟨d, hd, heq, -⟩ := h.mapped f hf
  exact heq ▸ h.ids.range d.id (mem_map_of_mem hd)

theorem Fits.nil (h : SessionContext session drbs qos) : Fits qos [] release where
  qfis := nodup_nil
  fiveQi := by simp
  types := by simp
  delayCritical := by
    intro f hf g hg heq hf' hg'
    exact h.delayCritical f hf g hg heq (by simpa [QosFlow.DelayCritical] using hf')
      (by simpa [QosFlow.DelayCritical] using hg')
  few := h.few
  apart := by simp

theorem Fits.tail (h : Fits qos (q :: items) release) : Fits qos items release where
  qfis := (nodup_cons.mp h.qfis).2
  fiveQi q' hq' := h.fiveQi q' (by simp [hq'])
  types q' hq' := h.types q' (by simp [hq'])
  delayCritical f hf g hg heq hf' hg' := by
    have hmore : ∀ f : QosFlow, f.DelayCritical items → f.DelayCritical (q :: items) := by
      rintro f (hf | ⟨q', hq', hf⟩)
      · exact .inl hf
      · exact .inr ⟨q', by simp [hq'], hf⟩
    exact h.delayCritical f hf g hg heq (hmore f hf') (hmore g hg')
  few := by
    have := h.few
    simp only [length_cons] at this
    omega
  apart q' hq' := h.apart q' (by simp [hq'])

theorem Ready.tail (h : Ready session release (q :: items) b) : Ready session release items b :=
  ⟨h.context, h.fits.tail, h.keeps, by have := h.room; simp only [length_cons] at this; omega, h.modify,
    by have := h.setup; simp only [length_cons] at this; omega, h.e1⟩

theorem fillE1Drb_ok (hfew : qos.length < 32) : ∃ flows, fillE1Drb id qos = .ok (id, flows) := by
  refine ⟨_, if_neg (Nat.not_lt.mpr ?_)⟩
  have := length_filter_le (·.drbId == id) qos
  rw [length_map]
  exact Nat.le_trans this (Nat.le_of_lt (Nat.lt_trans hfew (by decide)))

theorem findOrAddE1DrbMod_ok (h : ValidIds (e1.map Prod.fst)) (hid : 0 < id ∧ id ≤ maxDrbsPerUe)
    (hfew : qos.length < 32) : ∃ e1', findOrAddE1DrbMod e1 id qos = .ok e1' ∧ ValidIds (e1'.map Prod.fst) := by
  rw [findOrAddE1DrbMod]
  split
  · exact ⟨e1, rfl, h⟩
  · next hnew =>
    have hmore := h.concat hid (by simpa using hnew)
    have hlength := hmore.length_le
    obtain ⟨flows, hflows⟩ := @fillE1Drb_ok id qos hfew
    simp only [length_append, length_map, length_singleton] at hlength
    rw [if_neg (by omega), hflows]
    exact ⟨_, rfl, by simpa using hmore⟩

theorem refreshE1Drb_ok (h : ValidIds (e1.map Prod.fst)) (hid : 0 < id ∧ id ≤ maxDrbsPerUe)
    (hfew : qos.length < 32) : ∃ e1', refreshE1Drb e1 id qos = .ok e1' ∧ ValidIds (e1'.map Prod.fst) := by
  rw [refreshE1Drb]
  split
  · next hmem =>
    obtain ⟨flows, hflows⟩ := @fillE1Drb_ok id qos hfew
    refine ⟨_, by rw [hflows]; rfl, ?_⟩
    have hlt : e1.findIdx (·.1 == id) < e1.length := findIdx_lt_length_of_exists (by simpa using hmem)
    have hget : (e1[e1.findIdx (·.1 == id)]).1 = id := by simpa using @findIdx_getElem _ (·.1 == id) e1 hlt
    generalize e1.findIdx (·.1 == id) = i at hlt hget ⊢
    have hsame : (e1.set i (id, flows)).map Prod.fst = e1.map Prod.fst := ext_getElem (by simp) (by grind)
    exact hsame ▸ h
  · exact findOrAddE1DrbMod_ok h hid hfew

theorem countP_le_one {p : QosParams → Bool} (hqfis : (qos.map (·.params.qfi)).Nodup)
    (hsame : ∀ f ∈ qos, ∀ g ∈ qos, p f.params = true → p g.params = true → f.params.qfi = g.params.qfi) :
    (qos.map (·.params)).countP p ≤ 1 := by
  induction qos with
  | nil => simp
  | cons f qos ih =>
    rw [map_cons, nodup_cons] at hqfis
    rw [map_cons, countP_cons]
    split
    · next hf =>
      have hnone : (qos.map (·.params)).countP p = 0 := by
        refine countP_eq_zero.mpr fun q hq hp => ?_
        obtain ⟨g, hg, rfl⟩ := mem_map.mp hq
        exact hqfis.1 (mem_map.mpr ⟨g, hg, (hsame f (by simp) g (by simp [hg]) hf hp).symm⟩)
      omega
    · exact ih hqfis.2 fun f hf g hg => hsame f (by simp [hf]) g (by simp [hg])

theorem sharedDrb_ok {type : QosResourceType} (hqfis : (qos.map (·.params.qfi)).Nodup)
    (hrange : ∀ f ∈ qos, f.params.fiveQiInRange = true)
    (hdc : ∀ d ∈ drbs, ∀ f ∈ qos, ∀ g ∈ qos, f.drbId = d.id → g.drbId = d.id → f.params.resourceType = .dcGbr →
      g.params.resourceType = .dcGbr → f.params.qfi = g.params.qfi) :
    ∃ r, sharedDrb session type qos drbs = .ok r ∧ ∀ id, r = some id →
      ∃ d ∈ drbs, d.id = id ∧ d.pdusessionId = session := by
  induction drbs with
  | nil => exact ⟨none, rfl, by simp⟩
  | cons d drbs ih =>
    obtain ⟨r, hr, hmem⟩ := ih fun d hd => hdc d (by simp [hd])
    have hnext : ∃ r', sharedDrb session type qos drbs = .ok r' ∧
        ∀ id, r' = some id → ∃ d' ∈ d :: drbs, d'.id = id ∧ d'.pdusessionId = session :=
      ⟨r, hr, fun id hid => (hmem id hid).imp fun d' h => ⟨by simp [h.1], h.2⟩⟩
    have hone : ((qos.filter (·.drbId == d.id)).map (·.params)).countP (·.resourceType == .dcGbr) ≤ 1 := by
      refine countP_le_one ((filter_sublist.map _).nodup hqfis) fun f hf g hg hf' hg' => ?_
      simp only [mem_filter, beq_iff_eq] at hf hg hf' hg'
      exact hdc d (by simp) f hf.1 g hg.1 hf.2 hg.2 hf' hg'
    have hall : ((qos.filter (·.drbId == d.id)).map (·.params)).any (!·.fiveQiInRange) = false := by
      simp only [any_eq_false, mem_map, mem_filter]
      rintro q ⟨f, ⟨hf, -⟩, rfl⟩
      simp [hrange f hf]
    rw [sharedDrb]
    split
    · exact hnext
    · next hsession =>
      simp only [hall, Nat.not_lt.mpr hone, Bool.false_eq_true, or_self, if_false]
      split
      · exact hnext
      · split
        · exact ⟨some d.id, rfl, fun id hid => ⟨d, by simp, Option.some.inj hid, Classical.not_not.mp hsession⟩⟩
        · exact hnext

theorem QosParams.fiveQiInRange_of (hfiveQi : ∀ fiveQi, q.fiveQi = some fiveQi → fiveQi ≤ 255) (h : q.skipped = false) :
    q.fiveQiInRange = true := by
  obtain ⟨qfi, characteristics⟩ := q
  cases characteristics with
  | nonDynamic fiveQi _ =>
    have hstandard : isFiveQiStandardized fiveQi = true := by
      simpa [skipped, isDynamic, QosParams.fiveQi] using (Bool.or_eq_false_iff.mp h).2
    simp only [isFiveQiStandardized, Bool.or_eq_true, Bool.and_eq_true, decide_eq_true_eq] at hstandard
    simp only [fiveQiInRange, decide_eq_true_eq]
    omega
  | dynamic fiveQi =>
    cases fiveQi with
    | none => rfl
    | some fiveQi => simpa [fiveQiInRange] using hfiveQi fiveQi rfl

/-- A DRB that is found is one of the session, and the flow is not delay critical. -/
theorem findSuitableDrb_ok (h : SessionContext session drbs qos) (hq : q.fiveQiInRange = true) (hskip : q.skipped = false)
    (hnew : ∀ f ∈ qos, f.params.qfi ≠ q.qfi) :
    ∃ r, nrRrcFindSuitableDrbForQos drbs session q (qos ++ [⟨q, 0, false⟩]) = .ok r ∧ ∀ id, r = some id →
      (∃ d ∈ drbs, d.id = id ∧ d.pdusessionId = session) ∧ q.resourceType ≠ .dcGbr := by
  rw [nrRrcFindSuitableDrbForQos, if_neg (by simp [hq])]
  split
  · exact ⟨none, rfl, by simp⟩
  · next fiveQi hfiveQi =>
    split
    · next hstandard =>
      rw [if_pos (by simp_all [QosParams.skipped])]
      exact ⟨none, rfl, by simp⟩
    · next hstandard =>
      split
      · exact ⟨none, rfl, by simp⟩
      · next hshared =>
        obtain ⟨r, hr, hmem⟩ := @sharedDrb_ok session drbs (qos ++ [⟨q, 0, false⟩]) (fiveQiResourceType fiveQi)
          (by simpa [nodup_append, h.qfis] using hnew) (by
            intro f hf
            rcases mem_append.mp hf with hf | hf
            · exact (h.params f hf).2
            · simpa [mem_singleton.mp hf] using hq) (by
            intro d hd f hf g hg hfd hgd
            have hpos := (h.ids.range d.id (mem_map_of_mem hd)).1
            have hold : ∀ f ∈ qos ++ [⟨q, 0, false⟩], f.drbId = d.id → f ∈ qos := by
              intro f hf heq
              refine (mem_append.mp hf).resolve_right fun hf => ?_
              simp only [mem_singleton.mp hf] at heq
              omega
            exact h.delayCritical f (hold f hf hfd) g (hold g hg hgd) (hfd.trans hgd.symm))
        refine ⟨r, hr, fun id hid => ⟨hmem id hid, ?_⟩⟩
        have : q.dedicatedDrb = (!isFiveQiStandardized fiveQi || fiveQiResourceType fiveQi == .dcGbr ||
            [4, 6, 7, 8, 9, 10, 70, 80, 71, 72, 73].contains fiveQi) := by
          obtain ⟨qfi, characteristics⟩ := q
          cases characteristics <;> simp_all [QosParams.fiveQi, QosParams.dedicatedDrb]
        simp_all [QosParams.resourceType]

/-- The DRB that a flow is mapped to: one of the session, or a new one -/
inductive Assigned (session : Nat) (q : QosParams) (drbs : List Drb) : List Drb → Nat → Bool → Prop
  | shared {d : Drb} (hd : d ∈ drbs) (hsession : d.pdusessionId = session) (hq : q.resourceType ≠ .dcGbr) :
    Assigned session q drbs drbs d.id false
  | new {id : Nat} (hid : 0 < id ∧ id ≤ maxDrbsPerUe) (hnew : id ∉ drbs.map (·.id)) :
    Assigned session q drbs (drbs ++ [⟨id, session⟩]) id true

namespace Assigned

variable {drbs' : List Drb} {isNew : Bool} (ha : Assigned session q drbs drbs' id isNew)
include ha

theorem grows : Extends session 1 drbs drbs' := by
  cases ha with
  | shared => exact .refl ..
  | new => exact ⟨[⟨id, session⟩], rfl, by simp⟩

theorem range (h : ValidIds (drbs.map (·.id))) : 0 < id ∧ id ≤ maxDrbsPerUe := by
  cases ha with
  | shared hd => exact h.range _ (mem_map_of_mem hd)
  | new hid => exact hid

theorem ids (h : ValidIds (drbs.map (·.id))) : ValidIds (drbs'.map (·.id)) := by
  cases ha with
  | shared => exact h
  | new hid hfresh => simpa using h.concat hid hfresh

theorem mapped : ∃ d ∈ drbs', d.id = id ∧ d.pdusessionId = session := by
  cases ha with
  | shared hd hsession => exact ⟨_, hd, rfl, hsession⟩
  | new => exact ⟨⟨id, session⟩, by simp, rfl, rfl⟩

theorem mem_or_id {d : Drb} (hd : d ∈ drbs') : d ∈ drbs ∨ d.id = id := by
  cases ha with
  | shared => exact .inl hd
  | new => exact (mem_append.mp hd).imp_right fun hd => by rw [mem_singleton.mp hd]

/-- A delay critical flow does not share its DRB. -/
theorem not_dcGbr (h : SessionContext session drbs qos) (hf : f ∈ qos) (hid : f.drbId = id) : q.resourceType ≠ .dcGbr := by
  cases ha with
  | shared _ _ hnot => exact hnot
  | new _ hfresh =>
    obtain ⟨d, hd, hd', -⟩ := h.mapped f hf
    exact absurd (mem_map.mpr ⟨d, hd, hd'.trans hid⟩) hfresh

end Assigned

theorem assignDrb_ok (h : SessionContext session drbs qos) (hq : q.fiveQiInRange = true) (hskip : q.skipped = false)
    (hnew : ∀ f ∈ qos, f.params.qfi ≠ q.qfi) (hroom : drbs.length < maxDrbsPerUe) : ∃ drbs' id isNew,
      nrRrcAssignDrbToQosFlow drbs session q (qos ++ [⟨q, 0, false⟩]) = .ok (drbs', id, isNew) ∧
      Assigned session q drbs drbs' id isNew := by
  obtain ⟨r, hr, hmem⟩ := findSuitableDrb_ok h hq hskip hnew
  simp only [nrRrcAssignDrbToQosFlow, hr, ok_bind]
  cases r with
  | some id =>
    obtain ⟨⟨d, hd, rfl, hsession⟩, hdc⟩ := hmem id rfl
    exact ⟨drbs, d.id, false, if_pos (h.ids.range d.id (mem_map_of_mem hd)), .shared hd hsession hdc⟩
  | none =>
    obtain ⟨id, hadd, hid, hfresh⟩ := nrRrcAddDrb_ok h.range hroom
    exact ⟨_, id, true, by simp only [hadd], .new hid hfresh⟩

theorem Ready.modifyDrb (h : Ready session release items b) (hid : 0 < id ∧ id ≤ maxDrbsPerUe) :
    ∃ b', b.modifyDrb id = .ok b' ∧ Ready session release items b' ∧ b'.drbs = b.drbs := by
  obtain ⟨e1, he1, hvalid⟩ := findOrAddE1DrbMod_ok h.modify hid h.context.few
  rw [Bearers.modifyDrb, he1, ok_bind, if_neg (Nat.not_lt.mpr hid.2)]
  exact ⟨_, rfl, ⟨h.context, h.fits, h.keeps, h.room, hvalid, h.setup, h.e1⟩, rfl⟩

theorem QosFlow.modify_params (f : QosFlow) (q : QosParams) :
    (f.modify q).params = q ∧ f.params.qfi = q.qfi ∨ f.modify q = f ∧ f.params.qfi ≠ q.qfi := by
  by_cases hf : f.params.qfi = q.qfi <;> simp [QosFlow.modify, hf]

theorem QosFlow.modify_qfi (f : QosFlow) (q : QosParams) : (f.modify q).params.qfi = f.params.qfi := by
  rcases f.modify_params q with ⟨hparams, hqfi⟩ | ⟨hsame, -⟩
  · rw [hparams, hqfi]
  · rw [hsame]

theorem QosFlow.modify_drbId (f : QosFlow) (q : QosParams) : (f.modify q).drbId = f.drbId := by
  rw [QosFlow.modify]
  split <;> rfl

theorem QosFlow.DelayCritical.of_modify (h : (f.modify q).DelayCritical items) : f.DelayCritical (q :: items) := by
  rcases h with hf | ⟨q', hq', hf⟩
  · rcases f.modify_params q with ⟨heq, hf'⟩ | ⟨heq, -⟩
    · exact .inr ⟨q, by simp, hf'.symm, heq ▸ hf⟩
    · exact .inl (heq ▸ hf)
  · exact .inr ⟨q', by simp [hq'], f.modify_qfi q ▸ hf⟩

/-- A flow of the session is modified. -/
theorem Ready.update (h : Ready session release (q :: items) b) (hskip : q.skipped = false) :
    Ready session release items { b with qos := b.qos.map (·.modify q) } := by
  have hcritical : ∀ f ∈ b.qos.map (·.modify q), ∀ g ∈ b.qos.map (·.modify q), f.drbId = g.drbId → f.DelayCritical items →
      g.DelayCritical items → f.params.qfi = g.params.qfi := by
    simp only [mem_map]
    rintro _ ⟨f, hf, rfl⟩ _ ⟨g, hg, rfl⟩ heq hf' hg'
    rw [f.modify_qfi, g.modify_qfi]
    exact h.fits.delayCritical f hf g hg (by rwa [f.modify_drbId, g.modify_drbId] at heq) hf'.of_modify hg'.of_modify
  obtain ⟨hq, hqfis⟩ := nodup_cons.mp h.fits.qfis
  refine ⟨⟨h.context.range, h.context.ids, ?_, ?_, ?_, ?_, ?_⟩,
    ⟨hqfis, h.fits.tail.fiveQi, ?_, hcritical, ?_, h.fits.tail.apart⟩,
    ?_, h.tail.room, h.modify, h.tail.setup, h.e1⟩
  · simpa [QosFlow.modify_qfi, Function.comp_def] using h.context.qfis
  · simp only [mem_map]
    rintro _ ⟨f, hf, rfl⟩
    rcases f.modify_params q with ⟨heq, hf'⟩ | ⟨heq, -⟩
    · rw [heq]
      exact ⟨hf' ▸ (h.context.params f hf).1, q.fiveQiInRange_of (h.fits.fiveQi q (by simp)) hskip⟩
    · rw [heq]
      exact h.context.params f hf
  · simp only [mem_map]
    rintro _ ⟨f, hf, rfl⟩
    exact f.modify_drbId q ▸ h.context.mapped f hf
  · simpa using h.context.few
  · exact fun f hf g hg heq hf' hg' => hcritical f hf g hg heq (.inl hf') (.inl hg')
  · simp only [mem_map]
    rintro q' hq' _ ⟨f, hf, rfl⟩ heq
    rcases f.modify_params q with ⟨hf', hf''⟩ | ⟨hf', -⟩
    · exact absurd (mem_map.mpr ⟨q', hq', by rw [← heq, hf']⟩) hq
    · rw [hf'] at heq ⊢
      exact h.fits.tail.types q' hq' f hf heq
  · simpa using h.fits.tail.few
  · intro d hd hsession
    obtain ⟨f, hf, hid, hkept⟩ := h.keeps d hd hsession
    exact ⟨f.modify q, mem_map_of_mem hf, (f.modify_drbId q).trans hid, (f.modify_qfi q).symm ▸ hkept⟩

/-- A flow is added to the session. -/
theorem Ready.add {drbs' : List Drb} {isNew : Bool} (h : Ready session release (q :: items) b) (hskip : q.skipped = false)
    (hnew : ∀ f ∈ b.qos, f.params.qfi ≠ q.qfi) (ha : Assigned session q b.drbs drbs' id isNew) :
    Ready session release items { b with drbs := drbs', qos := b.qos ++ [⟨q, id, true⟩] } ∧
      Extends session 1 b.drbs drbs' ∧ 0 < id ∧ id ≤ maxDrbsPerUe := by
  have hroom := h.room
  have hfew := h.fits.few
  simp only [length_cons] at hroom hfew
  obtain ⟨hq, hqfis⟩ := nodup_cons.mp h.fits.qfis
  have ⟨added, hadded, hlength, _⟩ := ha.grows
  -- another flow is not delay critical on the DRB of one that is
  have hcritical : ∀ f ∈ b.qos ++ [⟨q, id, true⟩], ∀ g ∈ b.qos ++ [⟨q, id, true⟩], f.drbId = g.drbId →
      f.DelayCritical items → g.DelayCritical items → f.params.qfi = g.params.qfi := by
    have hone : ∀ f ∈ b.qos, f.drbId = id → ¬ QosFlow.DelayCritical items ⟨q, id, true⟩ := by
      rintro f hf heq (hdc | ⟨q', hq', hqfi, -⟩)
      · exact ha.not_dcGbr h.context hf heq hdc
      · exact hq (mem_map.mpr ⟨q', hq', hqfi⟩)
    simp only [mem_append, mem_singleton]
    rintro f (hf | rfl) g (hg | rfl) heq hf' hg'
    · exact h.fits.tail.delayCritical f hf g hg heq hf' hg'
    · exact absurd hg' (hone f hf heq)
    · exact absurd hf' (hone g hg heq.symm)
    · rfl
  refine ⟨⟨⟨h.context.range, ha.ids h.context.ids, ?_, ?_, ?_, ?_, ?_⟩, ⟨hqfis, h.fits.tail.fiveQi, ?_, hcritical, ?_,
    h.fits.tail.apart⟩, ?_, ?_, h.modify, h.tail.setup, h.e1⟩, ha.grows, ha.range h.context.ids⟩
  · simpa [nodup_append, h.context.qfis] using hnew
  · simp only [mem_append, mem_singleton]
    rintro f (hf | rfl)
    · exact h.context.params f hf
    · have hqfi : q.qfi ≤ 63 := by simpa using (Bool.or_eq_false_iff.mp hskip).1
      exact ⟨hqfi, q.fiveQiInRange_of (h.fits.fiveQi q (by simp)) hskip⟩
  · simp only [mem_append, mem_singleton]
    rintro f (hf | rfl)
    · obtain ⟨d, hd, hd'⟩ := h.context.mapped f hf
      exact ⟨d, by simp [hadded, hd], hd'⟩
    · exact ha.mapped
  · simp
    omega
  · exact fun f hf g hg heq hf' hg' => hcritical f hf g hg heq (.inl hf') (.inl hg')
  · simp only [mem_append, mem_singleton]
    rintro q' hq' f (hf | rfl) heq
    · exact h.fits.tail.types q' hq' f hf heq
    · exact absurd (mem_map.mpr ⟨q', hq', heq.symm⟩) hq
  · simp
    omega
  · intro d hd hd'
    rcases ha.mem_or_id hd with hold | rfl
    · obtain ⟨f, hf, hf'⟩ := h.keeps d hold hd'
      exact ⟨f, by simp [hf], hf'⟩
    · exact ⟨⟨q, d.id, true⟩, by simp, rfl, h.fits.apart q (by simp)⟩
  · simp only [hadded, length_append]
    omega

theorem Ready.setupDrb (id : Nat) (h : Ready session release items b)
    (hroom : b.e1.drbsToSetup.length + items.length < maxDrbsPerUe) :
    ∃ b', b.setupDrb id = .ok b' ∧ Ready session release items b' ∧ b'.drbs = b.drbs := by
  obtain ⟨flows, hflows⟩ := @fillE1Drb_ok id b.qos h.context.few
  rw [Bearers.setupDrb, if_neg (by omega), hflows]
  exact ⟨_, rfl, ⟨h.context, h.fits, h.keeps, h.room, h.modify, by simp; omega, h.e1⟩, rfl⟩

theorem Ready.apply (h : Ready session release (q :: items) b) :
    ∃ b', nrRrcApplyQos session b q = .ok b' ∧ Ready session release items b' ∧ Extends session 1 b.drbs b'.drbs := by
  rw [nrRrcApplyQos, if_neg (by
    rintro ⟨-, -, hbig⟩
    obtain ⟨fiveQi, hfiveQi, hbig⟩ := (Option.any_eq_true ..).mp hbig
    have := h.fits.fiveQi q (by simp) fiveQi hfiveQi
    simp only [decide_eq_true_eq] at hbig
    omega)]
  split
  · exact ⟨b, rfl, h.tail, .refl ..⟩
  · next hskip =>
    rw [Bool.not_eq_true] at hskip
    split
    · next flow hflow =>
      have hmem := mem_of_find?_eq_some hflow
      have hqfi : flow.params.qfi = q.qfi := by simpa using List.find?_some hflow
      rw [if_neg (Classical.not_not.mpr (h.fits.types q (by simp) flow hmem hqfi))]
      obtain ⟨b', hok, hb', hdrbs⟩ := (h.update hskip).modifyDrb (h.context.drbId_range hmem)
      exact ⟨b', hok, hb', hdrbs ▸ .refl ..⟩
    · next hnone =>
      have hnew : ∀ f ∈ b.qos, f.params.qfi ≠ q.qfi := by simpa using hnone
      have hroom := h.room
      have hsetup := h.setup
      simp only [length_cons] at hroom hsetup
      rw [if_neg (Nat.not_le.mpr (Nat.lt_trans h.context.few (by decide)))]
      obtain ⟨drbs, id, isNew, hassign, ha⟩ := assignDrb_ok h.context (q.fiveQiInRange_of (h.fits.fiveQi q (by simp)) hskip)
        hskip hnew (by omega)
      obtain ⟨hb, hextends, hid⟩ := h.add hskip hnew ha
      simp only [hassign, ok_bind]
      split
      · obtain ⟨b', hok, hb', hdrbs⟩ := hb.setupDrb id (by simp; omega)
        exact ⟨b', hok, hb', hdrbs ▸ hextends⟩
      · obtain ⟨b', hok, hb', hdrbs⟩ := hb.modifyDrb hid
        exact ⟨b', hok, hb', hdrbs ▸ hextends⟩

/-- All flows of the request are added or modified. -/
theorem Ready.applyAll (h : Ready session release items b) : ∃ b', items.foldlM (nrRrcApplyQos session) b = .ok b' ∧
    Ready session release [] b' ∧ Extends session items.length b.drbs b'.drbs := by
  induction items generalizing b with
  | nil => exact ⟨b, rfl, h, .refl ..⟩
  | cons q items ih =>
    obtain ⟨b₁, hok, h₁, hextends⟩ := h.apply
    obtain ⟨b', hok', h', hextends'⟩ := ih h₁
    exact ⟨b', by rw [foldlM_cons, hok, ok_bind, hok'], h', hextends.trans hextends'⟩

/-- What is left of the flows when some are released -/
def unreleased (release : List Nat) (qos : List QosFlow) : List QosFlow := qos.filter fun f => f.params.qfi ∉ release

theorem unreleased_cons (qfi : Nat) : unreleased release (unreleased [qfi] qos) = unreleased (qfi :: release) qos := by
  simp [unreleased, filter_filter, Bool.and_comm]

theorem eraseP_qfi (qfi : Nat) (h : (qos.map (·.params.qfi)).Nodup) :
    qos.eraseP (·.params.qfi == qfi) = unreleased [qfi] qos := by
  induction qos with
  | nil => rfl
  | cons f qos ih =>
    rw [map_cons, nodup_cons] at h
    by_cases hf : f.params.qfi = qfi
    · have hrest : ∀ g ∈ qos, g.params.qfi ≠ qfi := fun g hg heq => h.1 (mem_map.mpr ⟨g, hg, heq.trans hf.symm⟩)
      simpa [unreleased, hf] using (filter_eq_self.mpr (by simpa using hrest)).symm
    · simpa [unreleased, hf] using ih h.2

theorem SessionContext.sublist {qos' : List QosFlow} (h : SessionContext session drbs qos) (hsub : qos' <+ qos) :
    SessionContext session drbs qos' :=
  ⟨h.range, h.ids, (hsub.map _).nodup h.qfis, fun f hf => h.params f (hsub.subset hf),
    fun f hf => h.mapped f (hsub.subset hf), Nat.lt_of_le_of_lt hsub.length_le h.few,
    fun f hf g hg => h.delayCritical f (hsub.subset hf) g (hsub.subset hg)⟩

theorem releaseAll_ok (h : SessionContext session drbs b.qos) : ∃ refresh,
    release.foldlM nrRrcReleaseQos b = .ok { b with qos := unreleased release b.qos, refresh := refresh } := by
  induction release generalizing b with
  | nil => exact ⟨b.refresh, by simp [unreleased]⟩
  | cons qfi release ih =>
    have hstep : ∃ refresh, nrRrcReleaseQos b qfi = .ok { b with qos := unreleased [qfi] b.qos, refresh := refresh } := by
      rw [nrRrcReleaseQos]
      split
      · next hnone =>
        refine ⟨b.refresh, ?_⟩
        rw [unreleased, filter_eq_self.mpr (by simpa using hnone)]
      · next flow hflow =>
        have hmem := mem_of_find?_eq_some hflow
        have hqfi : flow.params.qfi = qfi := by simpa using List.find?_some hflow
        rw [if_neg (Nat.not_lt.mpr (hqfi ▸ (h.params flow hmem).1)), if_neg (Nat.not_lt.mpr (h.drbId_range hmem).2),
          eraseP_qfi qfi h.qfis]
        exact ⟨_, rfl⟩
    obtain ⟨refresh, hok⟩ := hstep
    obtain ⟨refresh', hok'⟩ := @ih { b with qos := unreleased [qfi] b.qos, refresh := refresh } (h.sublist filter_sublist)
    exact ⟨refresh', by rw [foldlM_cons, hok, ok_bind, hok', unreleased_cons]⟩

theorem firstNonGbrDrb_ok (h : ∀ f ∈ qos, f.params.fiveQiInRange = true) : ∃ r, firstNonGbrDrb qos = .ok r := by
  induction qos with
  | nil => exact ⟨none, rfl⟩
  | cons f qos ih =>
    have hrest := ih fun g hg => h g (by simp [hg])
    have hf := h f (by simp)
    rw [firstNonGbrDrb]
    split
    · exact hrest
    · next fiveQi _ hfiveQi =>
      simp only [QosParams.fiveQiInRange, hfiveQi, decide_eq_true_eq] at hf
      rw [if_neg (by omega)]
      split
      · exact ⟨_, rfl⟩
      · exact hrest

theorem updateDefaultDrb_ok {defaultDrb : Nat} (h : ∀ f ∈ qos, f.params.fiveQiInRange = true) :
    ∃ r, updateDefaultDrb defaultDrb qos = .ok r := by
  obtain ⟨r, hr⟩ := firstNonGbrDrb_ok h
  rw [updateDefaultDrb, hr]
  split <;> exact ⟨_, rfl⟩

/-- No DRB has to be removed: the DRBs are left as they are. -/
theorem updateDrbs_ok {e1 : PduSessionToMod} (refresh : List Nat) (h : SessionContext session drbs qos)
    (hused : ∀ d ∈ drbs, d.pdusessionId = session → used qos d = true) (he1 : ValidIds (e1.drbsToModify.map Prod.fst)) :
    ∃ e1', forEachSeqArr (updateDrb session qos refresh) (drbs.length + 1) 0 drbs e1 = .ok (drbs, e1') ∧
      ValidIds (e1'.drbsToModify.map Prod.fst) ∧ e1'.sessionId = e1.sessionId ∧ e1'.drbsToRemove = e1.drbsToRemove := by
  refine forEachSeqArr_keeps (fun e1' : PduSessionToMod => ValidIds (e1'.drbsToModify.map Prod.fst) ∧
    e1'.sessionId = e1.sessionId ∧ e1'.drbsToRemove = e1.drbsToRemove) ?_ (by simp) (Nat.zero_le _) ⟨he1, rfl, rfl⟩
  rintro i d e1₁ hd ⟨hvalid, hid, hremove⟩
  have hmem := mem_of_getElem? hd
  have hrange := h.ids.range d.id (mem_map_of_mem hmem)
  rw [updateDrb]
  split
  · exact ⟨e1₁, rfl, hvalid, hid, hremove⟩
  · next hsession =>
    rw [if_pos (hused d hmem (Classical.not_not.mp hsession)), if_neg (Nat.not_lt.mpr hrange.2)]
    split
    · obtain ⟨modify, hmodify, hvalid'⟩ := refreshE1Drb_ok hvalid hrange h.few
      rw [hmodify]
      exact ⟨_, rfl, hvalid', hid, hremove⟩
    · exact ⟨e1₁, rfl, hvalid, hid, hremove⟩

variable {e1Req : List PduSessionToMod}

theorem sendE1_eq {e1 : PduSessionToMod} (hreq : ∀ e ∈ e1Req, e.sessionId ≠ session) (he1 : e1.sessionId = session) :
    nrRrcSendE1AfterQosUpdate session b (e1Req ++ [e1]) =
      (forEachSeqArr (updateDrb session b.qos b.refresh) (b.drbs.length + 1) 0 b.drbs e1).map
        fun r => (r.1, e1Req ++ [r.2]) := by
  have hnone : e1Req.find? (·.sessionId == session) = none := find?_eq_none.mpr (by simpa using hreq)
  have hfind : (e1Req ++ [e1]).find? (·.sessionId == session) = some e1 := by
    simp [find?_append, hnone, he1]
  have hidx : (e1Req ++ [e1]).findIdx (·.sessionId == session) = e1Req.length := by
    rw [findIdx_append, findIdx_eq_length.mpr (by simpa using hreq)]
    simp [he1]
  simp only [nrRrcSendE1AfterQosUpdate, findOrAddPduSessionMod, hfind, ok_bind, hidx]
  cases forEachSeqArr (updateDrb session b.qos b.refresh) (b.drbs.length + 1) 0 b.drbs e1 <;> simp [Except.map]

/-- A request that fits, and leaves every DRB of the session a flow, is carried out, and removes nothing. -/
theorem updatePdusession_ok (defaultDrb : Nat) (h : SessionContext session drbs qos) (hfits : Fits qos items release)
    (hkeeps : KeepsDrbs session drbs qos release) (hroom : drbs.length + items.length ≤ maxDrbsPerUe)
    (hlength : e1Req.length < nrMaxNbPduSessions) (hreq : ∀ e ∈ e1Req, e.sessionId ≠ session) :
    ∃ drbs' qos' default e1, nrRrcUpdatePdusession ⟨session, items, release⟩ drbs ⟨some qos, defaultDrb⟩ e1Req =
        .ok (drbs', ⟨some qos', default⟩, e1Req ++ [e1]) ∧ SessionContext session drbs' qos' ∧
      (∀ d ∈ drbs', d.pdusessionId = session → used qos' d = true) ∧
      Extends session items.length drbs drbs' ∧
      e1.sessionId = session ∧ e1.drbsToRemove = [] := by
  have hfew := hfits.few
  have hready : Ready session release items ⟨drbs, qos, ⟨session, [], [], []⟩, []⟩ :=
    ⟨h, hfits, hkeeps, hroom, ⟨nodup_nil, by simp⟩, by simpa using Nat.le_trans (Nat.le_add_left ..) hroom, rfl, rfl⟩
  obtain ⟨b, happly, hb, hextends⟩ := hready.applyAll
  obtain ⟨refresh, hrelease⟩ := @releaseAll_ok session release b.drbs b hb.context
  have hcontext : SessionContext session b.drbs (unreleased release b.qos) := hb.context.sublist filter_sublist
  have hused : ∀ d ∈ b.drbs, d.pdusessionId = session → used (unreleased release b.qos) d = true := by
    intro d hd hsession
    obtain ⟨f, hf, hid, hkept⟩ := hb.keeps d hd hsession
    exact any_eq_true.mpr ⟨f, mem_filter.mpr ⟨hf, by simpa using hkept⟩, by simpa using hid⟩
  obtain ⟨default, hdefault⟩ := @updateDefaultDrb_ok _ defaultDrb fun f hf => (hcontext.params f hf).2
  obtain ⟨e1, hsend, -, hid, hremove⟩ := updateDrbs_ok refresh hcontext hused hb.modify
  refine ⟨b.drbs, unreleased release b.qos, default, e1, ?_, hcontext, hused, hextends, hid.trans hb.e1.1,
    hremove.trans hb.e1.2⟩
  simp only [nrRrcUpdatePdusession]
  rw [if_neg (by have : maxQosFlows = 64 := rfl; omega)]
  simp only [happly, ok_bind, hrelease, hdefault, sendE1_eq hreq hb.e1.1, hsend, Except.map, pure_eq_ok]

end Request

end OaiNr.Rrc
