import OaiNr.Rrc.Bearers

/-!
# The modification of PDU sessions

What `rrc_gNB_NGAP.c` does with a request of the AMF to modify PDU sessions, and with the list of sessions of the UE.
-/

namespace OaiNr.Rrc

inductive SessionStatus where
  | new
  | established
  | toModify
  | failed
  | toRelease
  deriving DecidableEq, Repr

inductive Cause where
  | nothing
  | unknownPduSession
  | other (value : Nat)
  deriving DecidableEq, Repr

/-- `rrc_pdu_session_param_t` -/
structure PduSession where
  id : Nat
  status : SessionStatus
  xid : Nat
  cause : Cause
  flows : SessionQos
  deriving DecidableEq, Repr

/-- The sessions and DRBs of a UE -/
structure Ue where
  drbs : List Drb
  sessions : List PduSession
  deriving DecidableEq, Repr

/-- The sessions that have been modified, with the flows of each, and those that have failed -/
structure ModifyResp where
  pdusessions : List (Nat × List Nat)
  failed : List (Nat × Cause)
  deriving DecidableEq, Repr

def known (sessions : List PduSession) (id : Nat) : Bool := sessions.any (·.id == id)

/-- `add_pduSession`. The transaction is -1, in a `uint8_t`, and there is no array of QoS flows. -/
def addPduSession (sessions : List PduSession) (id : Nat) : Option (List PduSession) :=
  if sessions.length = nrMaxNbPduSessions then none
  else if known sessions id then none
  else some (sessions ++ [⟨id, .new, 255, .nothing, none, 0⟩])

def updateSession (id : Nat) (f : PduSession → PduSession) : List PduSession → List PduSession
  | [] => []
  | s :: sessions => if s.id = id then f s :: sessions else s :: updateSession id f sessions

def PduSession.mark (xid : Nat) (flows : SessionQos) (s : PduSession) : PduSession :=
  { s with status := .toModify, xid := xid, cause := .nothing, flows := flows }

def PduSession.refuse (s : PduSession) : PduSession := { s with status := .failed, cause := .unknownPduSession }

def clearPending (qos : List QosFlow) : List QosFlow := qos.map ({ · with ngapPending := false })

def PduSession.confirm (qos : List QosFlow) (s : PduSession) : PduSession :=
  { s with status := .established, cause := .nothing, flows := { s.flows with qos := some (clearPending qos) } }

def PduSession.clear (s : PduSession) : PduSession :=
  { s with flows := { s.flows with qos := s.flows.qos.map clearPending } }

/-- `clear_ue_ngap_modify_qos_pending`. The end of an array that has not been allocated is not defined. -/
def clearUeNgapModifyQosPending (sessions : List PduSession) : Except Fault (List PduSession) :=
  if sessions.any (·.flows.qos.isNone) then .error .devAssert
  else .ok (sessions.map (·.clear))

/-- The loop of `rrc_gNB_process_NGAP_PDUSESSION_MODIFY_REQ`. What it does to a session without `add_pduSession` having
succeeded ends the program. -/
def modifyEach (xid : Nat) : List ModItem → Ue → List PduSessionToMod → Except Fault (Ue × List PduSessionToMod)
  | [], ue, e1Req => .ok (ue, e1Req)
  | m :: req, ue, e1Req =>
    match ue.sessions.find? (·.id == m.pdusessionId) with
    | some s => do
      let (drbs, flows, e1Req) ← nrRrcUpdatePdusession m ue.drbs s.flows e1Req
      modifyEach xid req ⟨drbs, updateSession s.id (.mark xid flows) ue.sessions⟩ e1Req
    | none => match addPduSession ue.sessions m.pdusessionId with
      | none => .error .nullDeref
      | some added => modifyEach xid req { ue with sessions := updateSession m.pdusessionId .refuse added } e1Req

def rrcGnbProcessNgapPdusessionModifyReq (xid : Nat) (req : List ModItem) (ue : Ue) :
    Except Fault (Ue × List PduSessionToMod) := do
  let sessions ← clearUeNgapModifyQosPending ue.sessions
  if nrMaxNbPduSessions < req.length then .error .devAssert
  else modifyEach xid req { ue with sessions := sessions } []

/-- `rm_pduSession`, with the DRBs of the session. The flows of a session whose array has not been allocated cannot be
freed. -/
def rmPduSession (s : PduSession) (sessions : List PduSession) (drbs : List Drb) :
    Except Fault (List PduSession × List Drb) :=
  if s.id = 0 ∨ nrMaxNbPduSessions < s.id ∨ s.flows.qos.isNone then .error .devAssert
  else .ok (sessions.eraseP (·.id == s.id), drbs.filter (·.pdusessionId ≠ s.id))

/-- The body of the loop of `rrc_gNB_send_NGAP_PDUSESSION_MODIFY_RESP` -/
def modifyRespBody (xid i : Nat) (s : PduSession) (sessions : List PduSession) (acc : List Drb × ModifyResp) :
    Except Fault (List PduSession × List Drb × ModifyResp) :=
  let (drbs, resp) := acc
  if xid ≠ s.xid then .ok (sessions, drbs, resp)
  else match s.status with
    | .toModify => match s.flows.qos with
      | none => .error .devAssert
      | some qos =>
        let pending := (qos.filter (·.ngapPending)).map (·.params.qfi)
        if nrMaxNbPduSessions < resp.pdusessions.length ∨ maxQosFlows < pending.length then .error .devAssert
        else .ok (sessions.set i (s.confirm qos), drbs,
          { resp with pdusessions := resp.pdusessions ++ [(s.id, pending)] })
    | .failed =>
      if nrMaxNbPduSessions < resp.failed.length then .error .devAssert
      else do
        let (sessions, drbs) ← rmPduSession s sessions drbs
        return (sessions, drbs, { resp with failed := resp.failed ++ [(s.id, s.cause)] })
    | _ => .ok (sessions, drbs, resp)

end OaiNr.Rrc
