import Mathlib.Algebra.Ring.Nat
import OaiNr.Rrc.Lemmas.Bearers
import OaiNr.Rrc.Modify

/-!
# The response to a request to modify PDU sessions
-/

namespace OaiNr.Rrc

open List

variable {xid id fuel : Nat} {ids : List Nat} {req : List ModItem} {ue ue' : Ue} {e1Req e1Req' : List PduSessionToMod}
  {drbs drbs' : List Drb} {sessions sessions' : List PduSession} {s : PduSession} {resp resp' : ModifyResp}

section Request

theorem updateSession_eq {f : PduSession → PduSession} (h : (sessions.map (·.id)).Nodup) :
    updateSession id f sessions = sessions.map fun s => if s.id = id then f s else s := by
  induction sessions with
  | nil => rfl
  | cons s sessions ih =>
    rw [map_cons, nodup_cons] at h
    rw [updateSession, map_cons]
    split
    · next hs =>
      have hrest : ∀ s' ∈ sessions, s'.id ≠ id := fun s' hs' heq => h.1 (hs ▸ heq ▸ mem_map_of_mem hs')
      rw [map_congr_left fun s' hs' => if_neg (hrest s' hs'), map_id']
    · rw [ih h.2]

/-- The request can be carried out: the UE has the sessions, and each part of it fits its session. -/
structure Modifiable (req : List ModItem) (ue : Ue) (e1Req : List PduSessionToMod) : Prop where
  ids : (ue.sessions.map (·.id)).Nodup
  nodup : (req.map (·.pdusessionId)).Nodup
  room : ue.drbs.length + (req.map (·.qosToAddModify.length)).sum ≤ maxDrbsPerUe
  fits : ∀ m ∈ req, ∃ s ∈ ue.sessions, s.id = m.pdusessionId ∧ ∃ qos, s.flows.qos = some qos ∧
    SessionContext s.id ue.drbs qos ∧ Fits qos m.qosToAddModify m.qosToRelease ∧
    KeepsDrbs s.id ue.drbs qos m.qosToRelease
  length : e1Req.length + req.length ≤ nrMaxNbPduSessions
  fresh : ∀ m ∈ req, ∀ e ∈ e1Req, e.sessionId ≠ m.pdusessionId

/-- What becomes of a session: one that is requested is marked, with its flows changed. -/
def Modified (xid : Nat) (ids : List Nat) (s s' : PduSession) : Prop :=
  s.id ∉ ids ∧ s' = s ∨ s.id ∈ ids ∧ ∃ qos default, qos.length < 32 ∧ s' = s.mark xid ⟨some qos, default⟩

theorem Modified.id_eq {s' : PduSession} (h : Modified xid ids s s') : s'.id = s.id := by
  rcases h with ⟨-, rfl⟩ | ⟨-, qos, default, -, rfl⟩ <;> rfl

theorem SessionContext.extends {session session' n : Nat} {qos : List QosFlow} (h : SessionContext session drbs qos)
    (hextends : Extends session' n drbs drbs') (hids : ValidIds (drbs'.map (·.id))) : SessionContext session drbs' qos := by
  obtain ⟨added, rfl, -⟩ := hextends
  refine ⟨h.range, hids, h.qfis, h.params, fun f hf => ?_, h.few, h.delayCritical⟩
  exact (h.mapped f hf).imp fun d hd => ⟨by simp [hd.1], hd.2⟩

theorem KeepsDrbs.extends {session session' n : Nat} {qos : List QosFlow} {release : List Nat}
    (h : KeepsDrbs session drbs qos release) (hextends : Extends session' n drbs drbs') (hne : session' ≠ session) :
    KeepsDrbs session drbs' qos release := by
  obtain ⟨added, rfl, -, hadded⟩ := hextends
  intro d hd hsession
  refine h d ((mem_append.mp hd).resolve_right fun hd => ?_) hsession
  exact hne ((hadded d hd).symm.trans hsession)

theorem Modifiable.run (h : Modifiable req ue e1Req) : ∃ ue' e1Req' modify,
    modifyEach xid req ue e1Req = .ok (ue', e1Req') ∧
    ue'.sessions = ue.sessions.map modify ∧
    ∀ s ∈ ue.sessions, Modified xid (req.map (·.pdusessionId)) s (modify s) := by
  induction req generalizing ue e1Req with
  | nil => exact ⟨ue, e1Req, fun s => s, rfl, by simp, fun s _ => .inl ⟨by simp, rfl⟩⟩
  | cons m req ih =>
    obtain ⟨hm, hnodup⟩ := nodup_cons.mp h.nodup
    have hroom := h.room
    have hlength := h.length
    simp only [map_cons, sum_cons, length_cons] at hroom hlength
    obtain ⟨s, hs, hid, qos, hqos, hcontext, hfits, hkeeps⟩ := h.fits m (by simp)
    have hfind : ue.sessions.find? (·.id == m.pdusessionId) = some s := by
      cases hfind : ue.sessions.find? (·.id == m.pdusessionId) with
      | none => exact absurd (find?_eq_none.mp hfind s hs) (by simp [hid])
      | some s' =>
        have hid' : s'.id = m.pdusessionId := by simpa using List.find?_some hfind
        rw [inj_on_of_nodup_map h.ids (mem_of_find?_eq_some hfind) hs (hid'.trans hid.symm)]
    obtain ⟨drbs, qos', default, e1, hok, hcontext', -, hextends, he1, -⟩ := updatePdusession_ok s.flows.defaultDrb hcontext
      hfits hkeeps (by omega) (by omega : e1Req.length < nrMaxNbPduSessions) (hid ▸ h.fresh m (by simp))
    let flows : SessionQos := ⟨some qos', default⟩
    let sessions := ue.sessions.map fun s' => if s'.id = s.id then s'.mark xid flows else s'
    have hids : sessions.map (·.id) = ue.sessions.map (·.id) := by
      simp only [sessions, map_map]
      refine map_congr_left fun s' _ => ?_
      by_cases heq : s'.id = s.id <;> simp [heq, PduSession.mark]
    have hrest : Modifiable req ⟨drbs, sessions⟩ (e1Req ++ [e1]) := by
      refine ⟨hids ▸ h.ids, hnodup, ?_, fun m' hm' => ?_, by simp; omega, fun m' hm' e he => ?_⟩
      · obtain ⟨added, rfl, hadded, -⟩ := hextends
        simp
        omega
      · have hne : s.id ≠ m'.pdusessionId := fun heq => hm (mem_map.mpr ⟨m', hm', heq.symm.trans hid⟩)
        obtain ⟨s', hs', hid', qos, hqos, hcontext, hfits, hkeeps⟩ := h.fits m' (by simp [hm'])
        refine ⟨s', mem_map.mpr ⟨s', hs', if_neg fun heq => hne (heq.symm.trans hid')⟩, hid', qos, hqos,
          hcontext.extends hextends hcontext'.ids, hfits, hkeeps.extends hextends (hid' ▸ hne)⟩
      · rcases mem_append.mp he with he | he
        · exact h.fresh m' (by simp [hm']) e he
        · rw [mem_singleton.mp he, he1, hid]
          exact fun heq => hm (mem_map.mpr ⟨m', hm', heq.symm⟩)
    obtain ⟨ue', e1Req', modify, hok', hsessions, hmodified⟩ := ih hrest
    refine ⟨ue', e1Req', fun s' => modify (if s'.id = s.id then s'.mark xid flows else s'), ?_,
      by rw [hsessions, map_map]; rfl, fun s' hs' => ?_⟩
    · have hok : nrRrcUpdatePdusession m ue.drbs s.flows e1Req = .ok (drbs, flows, e1Req ++ [e1]) := by
        rw [← hok, ← hqos, hid]
      rw [modifyEach, hfind]
      simp only [hok, ok_bind, updateSession_eq h.ids]
      exact hok'
    · have hs'' := hmodified _ (mem_map_of_mem hs')
      by_cases heq : s'.id = s.id
      · simp only [if_pos heq] at hs'' ⊢
        have hnot : (s'.mark xid flows).id ∉ req.map (·.pdusessionId) := by
          simpa [PduSession.mark, heq, hid] using hm
        exact .inr ⟨by simp [heq, hid], qos', default, hcontext'.few, (hs''.resolve_right fun hs'' => hnot hs''.1).2⟩
      · simp only [if_neg heq] at hs'' ⊢
        rw [hid] at heq
        exact hs''.imp (And.imp_left fun hnot => by simpa [heq] using hnot) (And.imp_left fun hmem => by simp [hmem])

end Request

section Response

/-- The sessions that a response is built from have their flows, and none has failed. -/
structure Answerable (xid : Nat) (sessions : List PduSession) : Prop where
  clean : ∀ s ∈ sessions, ¬ (s.xid = xid ∧ s.status = .failed)
  flows : ∀ s ∈ sessions, ∃ qos, s.flows.qos = some qos ∧ qos.length < 32

theorem Answerable.run {pre rest : List PduSession} (h : Answerable xid rest) (hfuel : rest.length < fuel)
    (hroom : resp.pdusessions.length + rest.length ≤ nrMaxNbPduSessions) :
    ∃ after resp',
      forEachSeqArr (modifyRespBody xid) fuel pre.length (pre ++ rest) (drbs, resp) = .ok (after, drbs, resp') ∧
      after.map (·.id) = (pre ++ rest).map (·.id) ∧ resp'.failed = resp.failed ∧ resp'.pdusessions.map Prod.fst =
        resp.pdusessions.map Prod.fst ++ (rest.filter fun s => s.xid = xid ∧ s.status = .toModify).map (·.id) := by
  induction rest generalizing pre fuel resp with
  | nil =>
    obtain _ | fuel := fuel
    · cases hfuel
    exact ⟨pre ++ [], resp, by simp [forEachSeqArr], rfl, rfl, by simp⟩
  | cons s rest ih =>
    obtain _ | fuel := fuel
    · cases hfuel
    rw [length_cons] at hfuel hroom
    have hrest : Answerable xid rest := ⟨fun s hs => h.clean s (by simp [hs]), fun s hs => h.flows s (by simp [hs])⟩
    have hnot := h.clean s (by simp)
    obtain ⟨qos, hqos, hfew⟩ := h.flows s (by simp)
    have hend : pre.length ≠ (pre ++ s :: rest).length := by simp
    have hget : (pre ++ s :: rest)[pre.length]? = some s := by simp
    by_cases hlist : s.xid = xid ∧ s.status = .toModify
    · obtain ⟨rfl, hstatus⟩ := hlist
      let pending := (qos.filter (·.ngapPending)).map (·.params.qfi)
      let resp₁ : ModifyResp := { resp with pdusessions := resp.pdusessions ++ [(s.id, pending)] }
      have hpending : pending.length ≤ maxQosFlows := by
        have := length_filter_le (·.ngapPending) qos
        simp only [pending, length_map, maxQosFlows]
        omega
      have hbody : modifyRespBody s.xid pre.length s (pre ++ s :: rest) (drbs, resp) =
          .ok (pre ++ s.confirm qos :: rest, drbs, resp₁) := by
        rw [modifyRespBody, if_neg (by simp), hstatus]
        simp only [hqos]
        rw [if_neg (by simp only [pending] at hpending; omega)]
        simp [resp₁, pending]
      obtain ⟨after, resp', hok, hids, hfailed, hlisted⟩ := @ih fuel resp₁ (pre ++ [s.confirm qos]) hrest (by omega)
        (by simp [resp₁]; omega)
      refine ⟨after, resp', ?_, by simpa [PduSession.confirm] using hids, hfailed, ?_⟩
      · rw [forEachSeqArr, if_neg hend, hget]
        simp only [hbody, ok_bind]
        simpa using hok
      · rw [hlisted]
        simp [resp₁, hstatus]
    · have hbody : modifyRespBody xid pre.length s (pre ++ s :: rest) (drbs, resp) =
          .ok (pre ++ s :: rest, drbs, resp) := by
        rw [modifyRespBody]
        split
        · rfl
        · split <;> simp_all
      obtain ⟨after, resp', hok, hids, hfailed, hlisted⟩ := @ih fuel resp (pre ++ [s]) hrest (by omega) (by omega)
      refine ⟨after, resp', ?_, by simpa using hids, hfailed, by simpa [hlist] using hlisted⟩
      rw [forEachSeqArr, if_neg hend, hget]
      simp only [hbody, ok_bind]
      simpa using hok

end Response

/-- The context of a UE: its sessions have distinct ids, and each that has flows has them on its DRBs. -/
structure ValidUe (ue : Ue) : Prop where
  ids : (ue.sessions.map (·.id)).Nodup
  length : ue.sessions.length ≤ nrMaxNbPduSessions
  drbs : ValidIds (ue.drbs.map (·.id))
  flows : ∀ s ∈ ue.sessions, ∀ qos, s.flows.qos = some qos → SessionContext s.id ue.drbs qos ∧ KeepsDrbs s.id ue.drbs qos []

/-- The changes of the flows fit the sessions, with a free DRB for each flow, and leave each DRB a flow. -/
structure RequestFits (ue : Ue) (req : List ModItem) : Prop where
  room : ue.drbs.length + (req.map (·.qosToAddModify.length)).sum ≤ maxDrbsPerUe
  fits : ∀ m ∈ req, ∀ s ∈ ue.sessions, s.id = m.pdusessionId → ∀ qos, s.flows.qos = some qos →
    Fits qos m.qosToAddModify m.qosToRelease ∧ KeepsDrbs s.id ue.drbs qos m.qosToRelease

theorem SessionContext.clear {session : Nat} {qos : List QosFlow} (h : SessionContext session drbs qos) :
    SessionContext session drbs (clearPending qos) :=
  ⟨h.range, h.ids, by simpa [clearPending, Function.comp_def] using h.qfis, by simpa [clearPending] using h.params,
    by simpa [clearPending] using h.mapped, by simpa [clearPending] using h.few,
    by simpa [clearPending] using h.delayCritical⟩

theorem Fits.clear {items : List QosParams} {release : List Nat} {qos : List QosFlow} (h : Fits qos items release) :
    Fits (clearPending qos) items release :=
  ⟨h.qfis, h.fiveQi, by simpa [clearPending] using h.types,
    by simpa [clearPending, QosFlow.DelayCritical] using h.delayCritical, by simpa [clearPending] using h.few, h.apart⟩

theorem KeepsDrbs.clear {session : Nat} {release : List Nat} {qos : List QosFlow} (h : KeepsDrbs session drbs qos release) :
    KeepsDrbs session drbs (clearPending qos) release := by
  intro d hd hsession
  obtain ⟨f, hf, hf'⟩ := h d hd hsession
  exact ⟨{ f with ngapPending := false }, mem_map.mpr ⟨f, hf, rfl⟩, hf'⟩

/-- A request for sessions that the UE has, all with their flows, is carried out. -/
theorem ValidUe.process (h : ValidUe ue) (hfits : RequestFits ue req) (hnodup : (req.map (·.pdusessionId)).Nodup)
    (hknown : ∀ id ∈ req.map (·.pdusessionId), id ∈ ue.sessions.map (·.id))
    (hflows : ∀ s ∈ ue.sessions, s.flows.qos.isSome) :
    ∃ ue' e1Req modify, rrcGnbProcessNgapPdusessionModifyReq xid req ue = .ok (ue', e1Req) ∧
      ue'.sessions = ue.sessions.map modify ∧
      ∀ s ∈ ue.sessions, Modified xid (req.map (·.pdusessionId)) s.clear (modify s) := by
  have hclear : clearUeNgapModifyQosPending ue.sessions = .ok (ue.sessions.map (·.clear)) :=
    if_neg (by simpa [Option.isNone_iff_eq_none, Option.isSome_iff_ne_none] using hflows)
  have hlength : req.length ≤ nrMaxNbPduSessions := by
    have := (subperm_of_subset hnodup hknown).length_le
    simp only [length_map] at this
    exact Nat.le_trans this h.length
  have hmodifiable : Modifiable req ⟨ue.drbs, ue.sessions.map (·.clear)⟩ [] := by
    refine ⟨by simpa [Function.comp_def, PduSession.clear] using h.ids, hnodup, hfits.room, fun m hm => ?_,
      by simpa using hlength,
      by simp⟩
    obtain ⟨s, hs, hid⟩ := mem_map.mp (hknown m.pdusessionId (mem_map_of_mem hm))
    obtain ⟨qos, hqos⟩ := Option.isSome_iff_exists.mp (hflows s hs)
    obtain ⟨hfits, hkeeps⟩ := hfits.fits m hm s hs hid qos hqos
    exact ⟨s.clear, mem_map_of_mem hs, hid, clearPending qos, by simp [PduSession.clear, hqos],
      (h.flows s hs qos hqos).1.clear,
      hfits.clear, hkeeps.clear⟩
  obtain ⟨ue', e1Req, modify, hok, hsessions, hmodified⟩ := @Modifiable.run xid req _ _ hmodifiable
  refine ⟨ue', e1Req, modify ∘ (·.clear), ?_, by rw [hsessions, map_map], fun s hs => hmodified s.clear (mem_map_of_mem hs)⟩
  rw [rrcGnbProcessNgapPdusessionModifyReq, hclear, ok_bind, if_neg (Nat.not_lt.mpr hlength)]
  exact hok

end OaiNr.Rrc
