import OaiNr.Rrc.SeqLoop

/-!
# The DRBs of a PDU session

How `nr_rrc_update_pdusession` changes the QoS flows of a session, maps them to DRBs, and removes the DRBs that no flow
uses any more.
-/

namespace OaiNr.Rrc

structure Drb where
  id : Nat
  pdusessionId : Nat
  deriving DecidableEq, Repr

inductive QosCharacteristics where
  | nonDynamic (fiveQi : Nat) (qosPriority : Option Nat)
  | dynamic (fiveQi : Option Nat) (qosPriority packetDelayBudget perScalar perExponent : Nat)
  deriving DecidableEq, Repr

/-- `pdusession_level_qos_parameter_t` -/
structure QosParams where
  qfi : Nat
  characteristics : QosCharacteristics
  deriving DecidableEq, Repr

/-- `nr_rrc_qos_t` -/
structure QosFlow where
  params : QosParams
  drbId : Nat
  ngapPending : Bool
  deriving DecidableEq, Repr

inductive QosResourceType where
  | nonGbr
  | gbr
  | dcGbr
  deriving DecidableEq, Repr

def maxDrbsPerUe : Nat := 32

def maxQosFlows : Nat := 64

def nrMaxNbPduSessions : Nat := 256

def isFiveQiStandardized (fiveQi : Nat) : Bool :=
  (1 ≤ fiveQi && fiveQi ≤ 10) || (65 ≤ fiveQi && fiveQi ≤ 67) || (69 ≤ fiveQi && fiveQi ≤ 76) ||
    (79 ≤ fiveQi && fiveQi ≤ 80) || (82 ≤ fiveQi && fiveQi ≤ 90)

def fiveQiResourceType (fiveQi : Nat) : QosResourceType :=
  if (1 ≤ fiveQi ∧ fiveQi ≤ 4) ∨ (65 ≤ fiveQi ∧ fiveQi ≤ 67) ∨ (71 ≤ fiveQi ∧ fiveQi ≤ 76) then .gbr
  else if 82 ≤ fiveQi ∧ fiveQi ≤ 90 then .dcGbr
  else .nonGbr

namespace QosParams

def isDynamic (q : QosParams) : Bool :=
  match q.characteristics with
  | .nonDynamic .. => false
  | .dynamic .. => true

/-- `get_qos_fiveqi` -/
def fiveQi (q : QosParams) : Option Nat :=
  match q.characteristics with
  | .nonDynamic fiveQi _ => some fiveQi
  | .dynamic fiveQi .. => fiveQi

/-- What `get_qos_fiveqi` asserts -/
def fiveQiInRange (q : QosParams) : Bool :=
  match q.characteristics with
  | .nonDynamic fiveQi _ => fiveQi ≤ 90
  | .dynamic fiveQi .. => fiveQi.all (· ≤ 255)

/-- The type that a flow is counted for in `nr_rrc_count_qos_flows_by_type` -/
def resourceType (q : QosParams) : QosResourceType :=
  match q.fiveQi with
  | none => .dcGbr
  | some fiveQi => if isFiveQiStandardized fiveQi then fiveQiResourceType fiveQi else .dcGbr

/-- `nr_rrc_qos_dedicated_drb` -/
def dedicatedDrb (q : QosParams) : Bool :=
  match q.characteristics with
  | .dynamic none qosPriority packetDelayBudget perScalar perExponent =>
    packetDelayBudget ≤ 50 || (perScalar ≤ 1 && 6 ≤ perExponent) || qosPriority ≤ 10
  | .dynamic (some fiveQi) .. | .nonDynamic fiveQi _ =>
    !isFiveQiStandardized fiveQi || fiveQiResourceType fiveQi == .dcGbr ||
      [4, 6, 7, 8, 9, 10, 70, 80, 71, 72, 73].contains fiveQi

end QosParams

/-- The DRBs of the session in `nr_rrc_find_suitable_drb_for_qos`, for a flow that may share one -/
def sharedDrb (session : Nat) (type : QosResourceType) (flows : List QosFlow) : List Drb → Except Fault (Option Nat)
  | [] => .ok none
  | d :: drbs =>
    if d.pdusessionId ≠ session then sharedDrb session type flows drbs
    else
      let mapped := (flows.filter (·.drbId == d.id)).map (·.params)
      let count := fun type => mapped.countP (·.resourceType == type)
      if mapped.any (!·.fiveQiInRange) ∨ 1 < count .dcGbr then .error .devAssert
      else if count .dcGbr = 1 ∨ mapped.any (·.dedicatedDrb) then sharedDrb session type flows drbs
      else if ((type = .gbr ∧ count .gbr < 2) ∨ (type = .nonGbr ∧ count .nonGbr < 5)) ∧ count .gbr + count .nonGbr < 5 then
        .ok (some d.id)
      else sharedDrb session type flows drbs

def nrRrcFindSuitableDrbForQos (drbs : List Drb) (session : Nat) (q : QosParams) (flows : List QosFlow) :
    Except Fault (Option Nat) :=
  if !q.fiveQiInRange then .error .devAssert
  else match q.fiveQi with
    | none => .ok none
    | some fiveQi =>
      if !isFiveQiStandardized fiveQi then if q.isDynamic then .ok none else .error .devAssert
      else if q.dedicatedDrb then .ok none
      else sharedDrb session (fiveQiResourceType fiveQi) flows drbs

/-- `nr_rrc_add_drb`, with the lowest id that is not in use -/
def nrRrcAddDrb (drbs : List Drb) (session : Nat) : Option (List Drb × Nat) :=
  if session = 0 ∨ nrMaxNbPduSessions < session then none
  else ((List.range' 1 maxDrbsPerUe).find? fun id => !drbs.any (·.id == id)).map fun id => (drbs ++ [⟨id, session⟩], id)

/-- `nr_rrc_assign_drb_to_qos_flow`: the DRBs, that of the flow, and whether it is new -/
def nrRrcAssignDrbToQosFlow (drbs : List Drb) (session : Nat) (q : QosParams) (flows : List QosFlow) :
    Except Fault (List Drb × Nat × Bool) := do
  match ← nrRrcFindSuitableDrbForQos drbs session q flows with
  | some id => if 0 < id ∧ id ≤ maxDrbsPerUe then .ok (drbs, id, false) else .error .devAssert
  | none => match nrRrcAddDrb drbs session with
    | some (drbs, id) => .ok (drbs, id, true)
    | none => .error .devAssert

/-- A DRB in the E1 request, with its flows -/
abbrev E1Drb := Nat × List QosParams

/-- `pdu_session_to_mod_t` -/
structure PduSessionToMod where
  sessionId : Nat
  drbsToSetup : List E1Drb
  drbsToModify : List E1Drb
  drbsToRemove : List Nat
  deriving DecidableEq, Repr

/-- What `nr_rrc_update_pdusession` changes. `refresh` has the DRBs that are marked in `drb_needs_e1_refresh`. -/
structure Bearers where
  drbs : List Drb
  qos : List QosFlow
  e1 : PduSessionToMod
  refresh : List Nat
  deriving DecidableEq, Repr

/-- The flow mapping information of a DRB -/
def fillE1Drb (id : Nat) (qos : List QosFlow) : Except Fault E1Drb :=
  let flows := (qos.filter (·.drbId == id)).map (·.params)
  if maxQosFlows < flows.length then .error .devAssert else .ok (id, flows)

def findOrAddE1DrbMod (drbs : List E1Drb) (id : Nat) (qos : List QosFlow) : Except Fault (List E1Drb) :=
  if drbs.any (·.1 == id) then .ok drbs
  else if maxDrbsPerUe ≤ drbs.length then .error .devAssert
  else do
    let drb ← fillE1Drb id qos
    return drbs ++ [drb]

/-- A DRB that exists is listed for modification, and marked. -/
def Bearers.modifyDrb (b : Bearers) (id : Nat) : Except Fault Bearers := do
  let drbs ← findOrAddE1DrbMod b.e1.drbsToModify id b.qos
  if maxDrbsPerUe < id then .error .outOfBounds
  else .ok { b with e1 := { b.e1 with drbsToModify := drbs }, refresh := id :: b.refresh }

def Bearers.setupDrb (b : Bearers) (id : Nat) : Except Fault Bearers := do
  if maxDrbsPerUe ≤ b.e1.drbsToSetup.length then .error .devAssert
  else
    let drb ← fillE1Drb id b.qos
    return { b with e1 := { b.e1 with drbsToSetup := b.e1.drbsToSetup ++ [drb] } }

/-- Whether a flow is left out: its QFI, or a 5QI that is not standardized. -/
def QosParams.skipped (q : QosParams) : Bool :=
  63 < q.qfi || (!q.isDynamic && !q.fiveQi.all isFiveQiStandardized)

/-- The modification of the flow with the QFI; a session has one. -/
def QosFlow.modify (q : QosParams) (f : QosFlow) : QosFlow :=
  if f.params.qfi = q.qfi then { f with params := q, ngapPending := true } else f

/-- The body of the loop of `nr_rrc_apply_qos_add_modify` -/
def nrRrcApplyQos (session : Nat) (b : Bearers) (q : QosParams) : Except Fault Bearers :=
  if q.qfi ≤ 63 ∧ q.isDynamic = false ∧ q.fiveQi.any (255 < ·) then .error .devAssert
  else if q.skipped then .ok b
  else match b.qos.find? (·.params.qfi == q.qfi) with
    | some flow =>
      if flow.params.isDynamic ≠ q.isDynamic then .error .devAssert
      else Bearers.modifyDrb { b with qos := b.qos.map (·.modify q) } flow.drbId
    | none =>
      if maxQosFlows ≤ b.qos.length then .ok b
      else do
        let (drbs, id, isNew) ← nrRrcAssignDrbToQosFlow b.drbs session q (b.qos ++ [⟨q, 0, false⟩])
        let b : Bearers := { b with drbs := drbs, qos := b.qos ++ [⟨q, id, true⟩] }
        if isNew then b.setupDrb id else b.modifyDrb id

/-- The body of the loop of `nr_rrc_apply_qos_release` -/
def nrRrcReleaseQos (b : Bearers) (qfi : Nat) : Except Fault Bearers :=
  match b.qos.find? (·.params.qfi == qfi) with
  | none => .ok b
  | some flow =>
    if 63 < qfi then .ok b
    else if maxDrbsPerUe < flow.drbId then .error .outOfBounds
    else .ok { b with qos := b.qos.eraseP (·.params.qfi == qfi), refresh := flow.drbId :: b.refresh }

/-- The DRB of the first flow with a standardized 5QI that is not GBR -/
def firstNonGbrDrb : List QosFlow → Except Fault (Option Nat)
  | [] => .ok none
  | flow :: qos =>
    match flow.params.characteristics with
    | .dynamic .. => firstNonGbrDrb qos
    | .nonDynamic fiveQi _ =>
      if 255 < fiveQi then .error .devAssert
      else if isFiveQiStandardized fiveQi && fiveQiResourceType fiveQi == .nonGbr then .ok (some flow.drbId)
      else firstNonGbrDrb qos

def updateDefaultDrb (defaultDrb : Nat) (qos : List QosFlow) : Except Fault Nat :=
  if defaultDrb = 0 then (firstNonGbrDrb qos).map (·.getD 0) else .ok defaultDrb

def used (qos : List QosFlow) (d : Drb) : Bool := qos.any (·.drbId == d.id)

/-- The refresh of a DRB that is still used -/
def refreshE1Drb (drbs : List E1Drb) (id : Nat) (qos : List QosFlow) : Except Fault (List E1Drb) :=
  if drbs.any (·.1 == id) then do
    let drb ← fillE1Drb id qos
    return drbs.set (drbs.findIdx (·.1 == id)) drb
  else findOrAddE1DrbMod drbs id qos

/-- The body of the loop of `nr_rrc_send_e1_after_qos_update`. The id is read where the iterator points to after the DRB
has been erased: the next DRB has moved there, or the memory behind the last one has been set to 0. -/
def updateDrb (session : Nat) (qos : List QosFlow) (refresh : List Nat) (i : Nat) (d : Drb) (drbs : List Drb)
    (e1 : PduSessionToMod) : Except Fault (List Drb × PduSessionToMod) :=
  if d.pdusessionId ≠ session then .ok (drbs, e1)
  else if used qos d then
    if maxDrbsPerUe < d.id then .error .outOfBounds
    else if d.id ∈ refresh then do
      let modify ← refreshE1Drb e1.drbsToModify d.id qos
      return (drbs, { e1 with drbsToModify := modify })
    else .ok (drbs, e1)
  else if d.id = 0 ∨ maxDrbsPerUe < d.id ∨ maxDrbsPerUe ≤ e1.drbsToRemove.length then .error .devAssert
  else
    let drbs := drbs.eraseP (·.id == d.id)
    .ok (drbs, { e1 with drbsToRemove := e1.drbsToRemove ++ [(drbs[i]?.map (·.id)).getD 0] })

/-- `find_or_add_pdu_session_mod`: the entry of the session is the first one with its id. -/
def findOrAddPduSessionMod (e1Req : List PduSessionToMod) (session : Nat) :
    Except Fault (List PduSessionToMod × PduSessionToMod) :=
  match e1Req.find? (·.sessionId == session) with
  | some e1 => .ok (e1Req, e1)
  | none =>
    if nrMaxNbPduSessions ≤ e1Req.length then .error .devAssert
    else .ok (e1Req ++ [⟨session, [], [], []⟩], ⟨session, [], [], []⟩)

def nrRrcSendE1AfterQosUpdate (session : Nat) (b : Bearers) (e1Req : List PduSessionToMod) :
    Except Fault (List Drb × List PduSessionToMod) := do
  let (e1Req, e1) ← findOrAddPduSessionMod e1Req session
  let (drbs, e1) ← forEachSeqArr (updateDrb session b.qos b.refresh) (b.drbs.length + 1) 0 b.drbs e1
  return (drbs, e1Req.set (e1Req.findIdx (·.sessionId == session)) e1)

/-- `pdusession_resource_mod_item_t` -/
structure ModItem where
  pdusessionId : Nat
  qosToAddModify : List QosParams
  qosToRelease : List Nat
  deriving DecidableEq, Repr

/-- The QoS flows of a session, where its array has been allocated, and the default DRB in its SDAP configuration -/
structure SessionQos where
  qos : Option (List QosFlow)
  defaultDrb : Nat
  deriving DecidableEq, Repr

def nrRrcUpdatePdusession (m : ModItem) (drbs : List Drb) (s : SessionQos) (e1Req : List PduSessionToMod) :
    Except Fault (List Drb × SessionQos × List PduSessionToMod) :=
  match s.qos with
  | none => .error .devAssert
  | some qos =>
    if maxQosFlows ≤ m.qosToAddModify.length ∨ nrMaxNbPduSessions ≤ e1Req.length then .error .devAssert
    else do
      let b ← m.qosToAddModify.foldlM (nrRrcApplyQos m.pdusessionId) ⟨drbs, qos, ⟨m.pdusessionId, [], [], []⟩, []⟩
      let e1Req := e1Req ++ [b.e1]
      let b ← m.qosToRelease.foldlM nrRrcReleaseQos b
      let defaultDrb ← updateDefaultDrb s.defaultDrb b.qos
      let (drbs, e1Req) ← nrRrcSendE1AfterQosUpdate m.pdusessionId b e1Req
      return (drbs, ⟨some b.qos, defaultDrb⟩, e1Req)

end OaiNr.Rrc
