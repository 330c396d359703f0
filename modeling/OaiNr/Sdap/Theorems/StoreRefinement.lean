import Mathlib.Data.List.Basic
import OaiNr.Sdap.Lemmas.Config
import OaiNr.Sdap.Store

/-!
# The list of entities is a map
-/

namespace OaiNr.Sdap

open List Entity

abbrev EntityMap := Key → Option Entity

namespace EntityMap

variable (m : EntityMap)

def addmod (isGnb : Bool) (ueId : Nat) (c : SdapConfig) : Except Fault (List Submission × EntityMap) :=
  match m (ueId, c.pdusessionId) with
  | some e =>
    (e.qfi2drbMapUpdate c).map fun r => (r.2, Function.update m (ueId, c.pdusessionId) (some r.1))
  | none =>
    (addEntity isGnb ueId c).map fun e => ([], Function.update m (ueId, c.pdusessionId) (some e))

def delete (k : Key) : Bool × EntityMap :=
  ((m k).isSome, Function.update m k none)

open Classical in
noncomputable def deleteUe (ueId : Nat) : Bool × EntityMap :=
  (decide (∃ id, (m (ueId, id)).isSome), fun k => if k.1 = ueId then none else m k)

noncomputable def exec : StoreOp → Except Fault (StoreResult × EntityMap)
  | .addmod isGnb ueId c => (m.addmod isGnb ueId c).map fun r => (.submitted r.1, r.2)
  | .get k => .ok (.found (m k), m)
  | .delete k => .ok (.deleted (m.delete k).1, (m.delete k).2)
  | .deleteUe ueId => .ok (.deleted (m.deleteUe ueId).1, (m.deleteUe ueId).2)

noncomputable def execAll (m : EntityMap) : List StoreOp → Except Fault (List StoreResult × EntityMap)
  | [] => .ok ([], m)
  | op :: ops => do
    let r ← m.exec op
    let rs ← r.2.execAll ops
    return (r.1 :: rs.1, rs.2)

end EntityMap

namespace Store

variable {s s' : Store} {k k' : Key} {e e' : Entity} {c : SdapConfig} {ueId : Nat} {isGnb : Bool}

def toMap (s : Store) : EntityMap := fun k => s.getEntity k

/-- The calls that `nr_sdap_delete_entity` can serve: there is an entity, or the ID is out of range,
and the entity to be deleted is not too far down the list. -/
def Serves (s : Store) : StoreOp → Prop
  | .delete k =>
    (s = [] → k.2 < 0 ∨ k.2 > nrMaxNbPduSessions) ∧
      (k ∈ s.map Entity.key → k ∈ (s.take (sdapMaxNumOfEntities + 1)).map Entity.key)
  | _ => True

def KeysNodup (s : Store) : Prop := (s.map Entity.key).Nodup

/-! ## Lookups -/

theorem getEntity_eq_none : s.getEntity k = none ↔ k ∉ s.map Entity.key := by
  induction s with
  | nil => simp [getEntity]
  | cons e l ih =>
    rw [getEntity]
    split
    · rename_i he
      simp [he]
    · rename_i he
      have hne : k ≠ e.key := fun h => he h.symm
      simpa [hne] using ih

theorem key_of_getEntity (h : s.getEntity k = some e) : e.key = k := by
  induction s with
  | nil => cases h
  | cons e' l ih =>
    rw [getEntity] at h
    split at h
    · cases h
      assumption
    · exact ih h

theorem isSome_toMap : (s.toMap k).isSome ↔ k ∈ s.map Entity.key := by
  rw [Option.isSome_iff_ne_none, toMap, Ne, getEntity_eq_none, not_not]

theorem toMap_cons (e : Entity) (s : Store) : toMap (e :: s) = Function.update s.toMap e.key (some e) := by
  funext k
  simp only [toMap, getEntity]
  by_cases hk : k = e.key
  · subst hk
    simp
  · have hne : e.key ≠ k := fun h => hk h.symm
    simp [hk, hne, toMap]

/-! ## Adding and modifying -/

theorem setEntity_keys (he : e'.key = k) (s : Store) : (s.setEntity k e').map Entity.key = s.map Entity.key := by
  induction s with
  | nil => rfl
  | cons e l ih =>
    rw [setEntity]
    split
    · rename_i hk
      simp [he, hk]
    · simp [ih]

theorem toMap_setEntity (he : e'.key = k) (hk : k ∈ s.map Entity.key) :
    (s.setEntity k e').toMap = Function.update s.toMap k (some e') := by
  induction s with
  | nil => simp at hk
  | cons e l ih =>
    rw [setEntity]
    split
    · rename_i hek
      rw [toMap_cons, toMap_cons, he, hek, Function.update_idem]
    · rename_i hek
      have hmem : k ∈ l.map Entity.key := by
        simpa [show k ≠ e.key from fun h => hek h.symm] using hk
      rw [toMap_cons, toMap_cons, ih hmem, Function.update_comm hek]

theorem key_of_addEntity (h : addEntity isGnb ueId c = .ok e) : e.key = (ueId, (c.pdusessionId : Int)) := by
  obtain ⟨h1, h2⟩ := addEntity_ids h
  rw [Entity.key, h1, h2]

theorem key_of_update {r : Entity × List Submission} (h : e.qfi2drbMapUpdate c = .ok r) : r.1.key = e.key := by
  have hs := qfi2drbMapUpdate_sameIds h
  rw [Entity.key, Entity.key, hs.ueId, hs.pdusessionId]

theorem addmodEntity_map (s : Store) (isGnb : Bool) (ueId : Nat) (c : SdapConfig) :
    (s.addmodEntity isGnb ueId c).map (fun r => (r.1, r.2.toMap)) = s.toMap.addmod isGnb ueId c := by
  rw [addmodEntity, EntityMap.addmod, toMap]
  cases hget : s.getEntity (ueId, c.pdusessionId) with
  | none =>
    simp only
    cases hadd : addEntity isGnb ueId c with
    | error f => rfl
    | ok e =>
      simp only [Except.map, toMap_cons, key_of_addEntity hadd]
  | some e =>
    simp only
    cases hup : e.qfi2drbMapUpdate c with
    | error f => rfl
    | ok r =>
      have hkey := (key_of_update hup).trans (key_of_getEntity hget)
      have hmem : (ueId, (c.pdusessionId : Int)) ∈ s.map Entity.key := by
        rw [← isSome_toMap, toMap, hget]
        rfl
      simp only [Except.map, toMap_setEntity hkey hmem]

theorem KeysNodup.addmodEntity (h : s.KeysNodup) {r : List Submission × Store}
    (hr : s.addmodEntity isGnb ueId c = .ok r) : r.2.KeysNodup := by
  rw [Store.addmodEntity] at hr
  split at hr
  · rename_i e hget
    obtain ⟨u, hup, rfl⟩ := map_eq_ok.mp hr
    rw [KeysNodup, setEntity_keys ((key_of_update hup).trans (key_of_getEntity hget))]
    exact h
  · rename_i hget
    obtain ⟨e, hadd, rfl⟩ := map_eq_ok.mp hr
    rw [KeysNodup, map_cons, nodup_cons, key_of_addEntity hadd]
    exact ⟨getEntity_eq_none.mp hget, h⟩

/-! ## Deleting one session -/

theorem unlink_eq (k : Key) (n : Nat) (s : Store) :
    s.unlink k n = if k ∈ (s.take (n + 1)).map Entity.key then some (s.eraseP (·.key = k)) else none := by
  induction s generalizing n with
  | nil => cases n <;> simp [unlink]
  | cons e l ih =>
    by_cases he : e.key = k
    · cases n <;> simp [unlink, he]
    · have hne : k ≠ e.key := fun h => he h.symm
      cases n with
      | zero => simp [unlink, he, hne]
      | succ n =>
        rw [unlink, if_neg he, ih]
        simp only [take_succ_cons, map_cons, mem_cons, hne, false_or]
        split
        · simp [he]
        · rfl

theorem toMap_eraseP (h : s.KeysNodup) (k : Key) :
    Store.toMap (s.eraseP (·.key = k)) = Function.update s.toMap k none := by
  induction s with
  | nil =>
    funext k'
    by_cases hk : k' = k
    · subst hk
      simp [toMap, getEntity]
    · simp [toMap, getEntity, hk]
  | cons e l ih =>
    obtain ⟨hnot, hl⟩ := nodup_cons.mp h
    by_cases he : e.key = k
    · rw [eraseP_cons_of_pos (by simpa using he), toMap_cons, he, Function.update_idem]
      rw [he] at hnot
      have hnone : toMap l k = none := getEntity_eq_none.mpr hnot
      rw [← hnone, Function.update_eq_self]
    · rw [eraseP_cons_of_neg (by simpa using he), toMap_cons, toMap_cons, ih hl, Function.update_comm he]

theorem deleteEntity_of_ne_nil (k : Key) (hs : s ≠ []) : s.deleteEntity k =
    if k ∈ (s.take (sdapMaxNumOfEntities + 1)).map Entity.key then .ok (true, s.eraseP (·.key = k))
    else .ok (false, s) := by
  cases s with
  | nil => exact absurd rfl hs
  | cons e l =>
    rw [deleteEntity]
    by_cases he : e.key = k
    · simp [he]
    · rw [if_neg he, unlink_eq]
      by_cases hin : k ∈ ((e :: l).take (sdapMaxNumOfEntities + 1)).map Entity.key
      · rw [if_pos hin, if_pos hin]
      · rw [if_neg hin, if_neg hin]

theorem deleteEntity_map_iff (h : s.KeysNodup) (k : Key) :
    (s.deleteEntity k).map (fun r => (r.1, r.2.toMap)) = .ok (s.toMap.delete k) ↔ s.Serves (.delete k) := by
  by_cases hs : s = []
  · subst hs
    simp only [deleteEntity, Serves, map_nil, not_mem_nil, false_implies, and_true, forall_const]
    split
    · rename_i hid
      refine iff_of_true ?_ hid
      have hmap : Function.update (toMap []) k none = toMap [] := by
        have hnone : toMap [] k = none := rfl
        rw [← hnone, Function.update_eq_self]
      simp only [Except.map, EntityMap.delete, hmap]
      rfl
    · rename_i hid
      exact iff_of_false (by simp [Except.map]) hid
  · rw [deleteEntity_of_ne_nil k hs]
    simp only [Serves, hs, false_implies, true_and]
    by_cases hin : k ∈ (s.take (sdapMaxNumOfEntities + 1)).map Entity.key
    · have hmem : k ∈ s.map Entity.key := (take_sublist _ s).map Entity.key |>.subset hin
      refine iff_of_true ?_ fun _ => hin
      rw [if_pos hin]
      simp [Except.map, EntityMap.delete, toMap_eraseP h k, isSome_toMap.mpr hmem]
    · rw [if_neg hin]
      simp only [hin, imp_false, Except.map, EntityMap.delete, Except.ok.injEq, Prod.mk.injEq]
      constructor
      · rintro ⟨hnot, -⟩ hmem
        rw [isSome_toMap.mpr hmem] at hnot
        cases hnot
      · intro hmem
        have hnone : s.toMap k = none := getEntity_eq_none.mpr hmem
        refine ⟨by rw [hnone]; rfl, ?_⟩
        rw [← hnone, Function.update_eq_self]

theorem KeysNodup.deleteEntity (h : s.KeysNodup) {r : Bool × Store}
    (hr : s.deleteEntity k = .ok r) : r.2.KeysNodup := by
  by_cases hs : s = []
  · subst hs
    rw [Store.deleteEntity] at hr
    split at hr
    · cases hr
      exact nodup_nil
    · cases hr
  · rw [deleteEntity_of_ne_nil k hs] at hr
    split at hr
    · cases hr
      exact h.sublist (eraseP_sublist.map _)
    · cases hr
      exact h

/-! ## Deleting the sessions of a UE -/

theorem freeRest_eq (ueId : Nat) (s : Store) : s.freeRest ueId = (s.any (·.ueId = ueId), s.filter (·.ueId ≠ ueId)) := by
  induction s with
  | nil => rfl
  | cons e l ih =>
    by_cases he : e.ueId = ueId
    · simp [freeRest, ih, he]
    · simp [freeRest, ih, he]

theorem deleteUeEntities_eq (s : Store) (ueId : Nat) :
    s.deleteUeEntities ueId = (s.any (·.ueId = ueId), s.filter (·.ueId ≠ ueId)) := by
  induction s with
  | nil => rfl
  | cons e l ih =>
    by_cases he : e.ueId = ueId
    · have hl := congrArg Prod.snd ih
      simp only [deleteUeEntities] at hl
      simp [deleteUeEntities, freeHead, he, hl]
    · simp only [deleteUeEntities, freeHead, he, if_false, freeRest_eq, Bool.false_or]

theorem getEntity_filter (ueId : Nat) (s : Store) (k : Key) :
    getEntity k (s.filter (·.ueId ≠ ueId)) = if k.1 = ueId then none else s.getEntity k := by
  induction s with
  | nil => simp [getEntity]
  | cons e l ih =>
    by_cases he : e.ueId = ueId
    · rw [filter_cons_of_neg (by simpa using he), ih, getEntity]
      by_cases hk : k.1 = ueId
      · rw [if_pos hk, if_pos hk]
      · have hne : e.key ≠ k := fun h => hk (by rw [← h]; exact he)
        rw [if_neg hk, if_neg hk, if_neg hne]
    · rw [filter_cons_of_pos (by simpa using he), getEntity, ih, getEntity]
      by_cases hk : e.key = k
      · have hne : k.1 ≠ ueId := fun h => he (by rw [← h, ← hk]; rfl)
        rw [if_pos hk, if_neg hne, if_pos hk]
      · rw [if_neg hk, if_neg hk]

theorem deleteUeEntities_map (s : Store) (ueId : Nat) :
    ((s.deleteUeEntities ueId).1, (s.deleteUeEntities ueId).2.toMap) = s.toMap.deleteUe ueId := by
  rw [deleteUeEntities_eq, EntityMap.deleteUe]
  refine Prod.ext ?_ (funext fun k => getEntity_filter ueId s k)
  rw [Bool.eq_iff_iff, any_eq_true]
  simp only [decide_eq_true_iff]
  constructor
  · rintro ⟨e, he, hue⟩
    refine ⟨e.pdusessionId, isSome_toMap.mpr (mem_map.mpr ⟨e, he, ?_⟩)⟩
    rw [Entity.key, hue]
  · rintro ⟨id, hid⟩
    obtain ⟨e, he, hk⟩ := mem_map.mp (isSome_toMap.mp hid)
    exact ⟨e, he, congrArg Prod.fst hk⟩

theorem KeysNodup.deleteUeEntities (h : s.KeysNodup) (ueId : Nat) : (s.deleteUeEntities ueId).2.KeysNodup := by
  rw [deleteUeEntities_eq]
  exact h.sublist (filter_sublist.map _)

/-! ## Calls and runs -/

def Agrees (s : Store) (op : StoreOp) : Prop :=
  (s.exec op).map (fun r => (r.1, r.2.toMap)) = s.toMap.exec op

theorem agrees_iff_serves (h : s.KeysNodup) (op : StoreOp) : s.Agrees op ↔ s.Serves op := by
  cases op with
  | addmod isGnb ueId c =>
    refine iff_of_true ?_ trivial
    rw [Agrees, exec, EntityMap.exec, ← addmodEntity_map]
    cases s.addmodEntity isGnb ueId c <;> rfl
  | get k => exact iff_of_true rfl trivial
  | delete k =>
    rw [← deleteEntity_map_iff h k, Agrees, exec, EntityMap.exec]
    cases s.deleteEntity k with
    | error f => simp [Except.map]
    | ok r => simp [Except.map, Prod.ext_iff]
  | deleteUe ueId =>
    refine iff_of_true ?_ trivial
    have hm := s.deleteUeEntities_map ueId
    rw [Agrees, exec, EntityMap.exec, ← hm]
    rfl

theorem KeysNodup.exec (h : s.KeysNodup) {op : StoreOp} {r : StoreResult × Store}
    (hr : s.exec op = .ok r) : r.2.KeysNodup := by
  cases op with
  | addmod isGnb ueId c =>
    obtain ⟨r', hr', rfl⟩ := map_eq_ok.mp hr
    exact h.addmodEntity hr'
  | get k =>
    cases hr
    exact h
  | delete k =>
    obtain ⟨r', hr', rfl⟩ := map_eq_ok.mp hr
    exact h.deleteEntity hr'
  | deleteUe ueId =>
    cases hr
    exact h.deleteUeEntities ueId

def AllServed (s : Store) : List StoreOp → Prop
  | [] => True
  | op :: ops => s.Serves op ∧ ∀ r, s.exec op = .ok r → AllServed r.2 ops

theorem KeysNodup.execAll (h : s.KeysNodup) {ops : List StoreOp} {r : List StoreResult × Store}
    (hr : s.execAll ops = .ok r) : r.2.KeysNodup := by
  induction ops generalizing s r with
  | nil =>
    cases hr
    exact h
  | cons op ops ih =>
    obtain ⟨r₁, h₁, hr⟩ := bind_eq_ok.mp hr
    obtain ⟨r₂, h₂, hr⟩ := bind_eq_ok.mp hr
    have hk := ih (h.exec h₁) h₂
    cases hr
    exact hk

theorem execAll_map (h : s.KeysNodup) {ops : List StoreOp} (hs : s.AllServed ops) :
    (s.execAll ops).map (fun r => (r.1, r.2.toMap)) = s.toMap.execAll ops := by
  induction ops generalizing s with
  | nil => rfl
  | cons op ops ih =>
    have hop := (agrees_iff_serves h op).mpr hs.1
    rw [Agrees] at hop
    rw [execAll, EntityMap.execAll, ← hop]
    cases hex : s.exec op with
    | error f => rfl
    | ok r =>
      have hrest := ih (h.exec hex) (hs.2 r hex)
      simp only [Except.map, ok_bind]
      rw [← hrest]
      cases r.2.execAll ops <;> rfl

/-- The list is a map: a run of served calls gives back what the map does, and in the state that any
run ends in a call agrees with the map if and only if it is served. -/
theorem store_refines_map (ops : List StoreOp) : (Store.AllServed [] ops →
      (execAll [] ops).map (fun r => (r.1, r.2.toMap)) = EntityMap.execAll (fun _ => none) ops) ∧
    ∀ r op, execAll [] ops = .ok r → (r.2.Agrees op ↔ r.2.Serves op) := by
  have hnil : KeysNodup [] := nodup_nil
  exact ⟨fun hs => execAll_map hnil hs, fun _ op hr => agrees_iff_serves (hnil.execAll hr) op⟩

/-- Without any entity, deleting a session that does not exist follows a null pointer. -/
theorem delete_from_empty_list : execAll [] [.delete (1, 5)] = .error .nullDeref ∧
      ∃ m, EntityMap.execAll (fun _ => none) [.delete (1, 5)] = .ok ([.deleted false], m) :=
  ⟨rfl, _, rfl⟩

end Store

end OaiNr.Sdap
