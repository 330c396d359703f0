import OaiNr.Sdap.Entity

/-!
# The list of the SDAP entities

All entities of all UEs are nodes of one list, `sdap_info.sdap_entity_llist`. They are found by the
UE and the PDU session.
-/

namespace OaiNr.Sdap

def nrMaxNbPduSessions : Int := 256

/-- `MAX_MOBILES_PER_ENB`, without `UE_EXPANSION` and `LARGE_SCALE`. -/
def maxMobilesPerEnb : Nat := 40

def sdapMaxNumOfEntities : Nat := maxDrbsPerUe * maxMobilesPerEnb

abbrev Key := Nat × Int

/-- The session has the key `(ue_id, pdusession_id)`. -/
def Entity.key (e : Entity) : Key := (e.ueId, e.pdusessionId)

/-- The configuration of `nr_sdap_entity_update_qos_flows`. The QFIs of the DRB that are not given any more
are released. -/
def Entity.qosFlowsConfig (e : Entity) (drbId : Nat) (qfis : List Nat) : SdapConfig where
  pdusessionId := e.pdusessionId
  drbId
  role :=
    { ulTx := e.enableSdap && !e.isGnb, ulRx := e.enableSdap && e.isGnb
      dlTx := e.enableSdap && e.isGnb, dlRx := e.enableSdap && !e.isGnb }
  defaultDrb := e.defaultDrb = drbId
  mappedQfis2Add := qfis
  mappedQfis2Release :=
    ((List.finRange sdapMaxQfi).filter fun q => (e.qfi2drbTable q).drbId = drbId ∧ q.val ∉ qfis).map Fin.val

abbrev Store := List Entity

namespace Store

def getEntity (k : Key) : Store → Option Entity
  | [] => none
  | e :: l => if e.key = k then some e else getEntity k l

/-- Writes to the entity that `nr_sdap_get_entity` has found. -/
def setEntity (k : Key) (e' : Entity) : Store → Store
  | [] => []
  | e :: l => if e.key = k then e' :: l else e :: setEntity k e' l

variable (s : Store)

/-- `nr_sdap_addmod_entity`: the list, and the end markers of a UE. -/
def addmodEntity (isGnb : Bool) (ueId : Nat) (c : SdapConfig) : Except Fault (List Submission × Store) :=
  match s.getEntity (ueId, c.pdusessionId) with
  | some e => (e.qfi2drbMapUpdate c).map fun r => (r.2, s.setEntity (ueId, c.pdusessionId) r.1)
  | none => (Entity.addEntity isGnb ueId c).map fun e => ([], e :: s)

/-- `nr_sdap_entity_update_qos_flows`. The array of the configuration has `SDAP_MAX_QFI` entries. -/
def updateQosFlows (k : Key) (drbId : Nat) (qfis : List Nat) : Except Fault (List Submission × Store) :=
  match s.getEntity k with
  | none => .ok ([], s)
  | some e =>
    if sdapMaxQfi < qfis.length then .error .outOfBounds
    else (e.qfi2drbMapUpdate (e.qosFlowsConfig drbId qfis)).map fun r => (r.2, s.setEntity k r.1)

/-- The `while` loop of `nr_sdap_delete_entity`, which goes on for `steps` nodes at most, and the
unlinking of the node it ends at. -/
def unlink (k : Key) : (steps : Nat) → Store → Option Store
  | _, [] => none
  | 0, e :: l => if e.key = k then some l else none
  | n + 1, e :: l => if e.key = k then some l else (unlink k n l).map (e :: ·)

/-- `nr_sdap_delete_entity`. The check for an empty list is joined to the one of the ID by `&&`. -/
def deleteEntity (k : Key) : Except Fault (Bool × Store) :=
  match s with
  | [] => if k.2 < 0 ∨ k.2 > nrMaxNbPduSessions then .ok (false, []) else .error .nullDeref
  | e :: l =>
    if e.key = k then .ok (true, l)
    else
      match unlink k sdapMaxNumOfEntities (e :: l) with
      | some l' => .ok (true, l')
      | none => .ok (false, e :: l)

/-- The first loop of `nr_sdap_delete_ue_entities`. `upperBound` is never increased. -/
def freeHead (ueId : Nat) : Store → Bool × Store
  | [] => (false, [])
  | e :: l => if e.ueId = ueId then (true, (freeHead ueId l).2) else (false, e :: l)

/-- The second loop of `nr_sdap_delete_ue_entities`. -/
def freeRest (ueId : Nat) : Store → Bool × Store
  | [] => (false, [])
  | e :: l =>
    let r := freeRest ueId l
    if e.ueId = ueId then (true, r.2) else (r.1, e :: r.2)

/-- `nr_sdap_delete_ue_entities`. On an empty list both returns give `false`. -/
def deleteUeEntities (ueId : Nat) : Bool × Store :=
  let h := freeHead ueId s
  let r := freeRest ueId h.2
  (h.1 || r.1, r.2)

end Store

/-! ## Runs -/

inductive StoreOp where
  | addmod (isGnb : Bool) (ueId : Nat) (c : SdapConfig)
  | get (k : Key)
  | delete (k : Key)
  | deleteUe (ueId : Nat)

/-- What a call gives back: the end markers that were submitted, the entity that was found, or
whether anything was deleted. -/
inductive StoreResult where
  | submitted (ctrl : List Submission)
  | found (e : Option Entity)
  | deleted (b : Bool)

namespace Store

def exec (s : Store) : StoreOp → Except Fault (StoreResult × Store)
  | .addmod isGnb ueId c => (s.addmodEntity isGnb ueId c).map fun r => (.submitted r.1, r.2)
  | .get k => .ok (.found (s.getEntity k), s)
  | .delete k => (s.deleteEntity k).map fun r => (.deleted r.1, r.2)
  | .deleteUe ueId => .ok (.deleted (s.deleteUeEntities ueId).1, (s.deleteUeEntities ueId).2)

def execAll (s : Store) : List StoreOp → Except Fault (List StoreResult × Store)
  | [] => .ok ([], s)
  | op :: ops => do
    let r ← s.exec op
    let rs ← r.2.execAll ops
    return (r.1 :: rs.1, rs.2)

end Store

end OaiNr.Sdap
