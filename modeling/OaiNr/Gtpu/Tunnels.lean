import Mathlib.Data.List.AList
import OaiNr.Gtpu.Receiver

/-!
# The tunnel tables

`te2ue_mapping`, from the TEIDs of incoming packets to UEs and bearers, `ue2te_mapping`, from UEs and bearers to
tunnels, and the functions that change them, on one instance.
-/

namespace OaiNr.Gtpu

structure TunnelBearer where
  teidIncoming : UInt32
  teidOutgoing : UInt32
  deriving DecidableEq, Repr

/-- What `std::map` inserts for a key that is not there -/
def TunnelBearer.default : TunnelBearer := ⟨0, 0⟩

def UeidData.default : UeidData := ⟨0, 0, false, 0, false, 0⟩

abbrev Bearers := AList fun _ : Nat => TunnelBearer

structure Tables where
  te2ue : AList fun _ : Nat => UeidData
  ue2te : AList fun _ : Nat => Bearers

namespace Tables

def empty : Tables := ⟨∅, ∅⟩

variable (s : Tables)

def bearer (ueId bearerId : Nat) : Option TunnelBearer :=
  (s.ue2te.lookup ueId).bind fun bearers => bearers.lookup bearerId

/-- The key for a bearer: an `int` as `ue_id_t` -/
def key (bearerId : Int) : Nat := (bearerId % 2 ^ 64).toNat

section Create

/-- `gtpv1uNewTeid`, from two results of `random`, which are at most `RAND_MAX` -/
def gtpv1uNewTeid (r : Fin (2 ^ 31) × Fin (2 ^ 31)) : UInt32 := UInt32.ofNat (r.1.val + r.2.val % (2 ^ 31 - 2) + 1)

/-- The first new TEID that is not taken, from the results of `random` -/
def freshTeid (te2ue : AList fun _ : Nat => UeidData) : List (Fin (2 ^ 31) × Fin (2 ^ 31)) → Option UInt32
  | [] => none
  | r :: rs => if (gtpv1uNewTeid r).toNat ∈ te2ue then freshTeid te2ue rs else some (gtpv1uNewTeid r)

/-- The arguments of `newGtpuCreateTunnel`; of the address, its length in bits, and of the callbacks, whether they are
there -/
structure CreateTunnel where
  ueId : Nat
  incomingBearerId : Int
  outgoingBearerId : Int
  outgoingTeid : UInt32
  addrLength : Nat
  callBack : Bool
  callBackSdap : Bool

/-- `newGtpuCreateTunnel`. Without a fresh TEID, it is still drawing. -/
def newGtpuCreateTunnel (req : CreateTunnel) (draws : List (Fin (2 ^ 31) × Fin (2 ^ 31))) :
    Except Fault (Tables × UInt32) :=
  -- an existing tunnel of the bearer: all of the UE's tunnels are erased
  let ue2te := if (s.bearer req.ueId (key req.outgoingBearerId)).isSome then s.ue2te.erase req.ueId else s.ue2te
  match freshTeid s.te2ue draws with
  | none => .error .endless
  | some teid =>
    let entry : UeidData := ⟨req.ueId, (req.incomingBearerId % 2 ^ 16).toNat, req.callBack, req.outgoingTeid,
      req.callBackSdap, (req.outgoingBearerId % 2 ^ 8).toNat⟩
    if req.addrLength / 8 ≠ 4 then .error .assertFatal
    else
      let bearers := ((ue2te.lookup req.ueId).getD ∅).insert (key req.outgoingBearerId) ⟨teid, req.outgoingTeid⟩
      .ok (⟨s.te2ue.insert teid.toNat entry, ue2te.insert req.ueId bearers⟩, teid)

end Create

section Update

/-- The loop of `gtpv1u_update_ue_id` over the numbers below the size of the map, from `i` on. A bearer that is not
there is inserted, and so is the entry of its TEID. -/
def updateLoop (oldUeId newUeId : Nat) :
    (rounds i : Nat) → (AList fun _ : Nat => UeidData) → Bearers → Except Fault ((AList fun _ : Nat => UeidData) × Bearers)
  | 0, _, _, _ => .error .endless
  | rounds + 1, i, te2ue, bearers =>
    if bearers.keys.length ≤ i then .ok (te2ue, bearers)
    else
      let bearer := (bearers.lookup i).getD .default
      let entry := (te2ue.lookup bearer.teidIncoming.toNat).getD .default
      let entry := if entry.ueId = oldUeId then { entry with ueId := newUeId } else entry
      updateLoop oldUeId newUeId rounds ((i + 1) % 2 ^ 32) (te2ue.insert bearer.teidIncoming.toNat entry)
        (if i ∈ bearers then bearers else bearers.insert i .default)

/-- `gtpv1u_update_ue_id`. The counter is an `unsigned`: once it has gone through all of its values, all of them are
keys, and the loop is endless. -/
def gtpv1uUpdateUeId (oldUeId newUeId : Nat) : Except Fault Tables :=
  match s.ue2te.lookup oldUeId with
  | none => .ok s
  | some bearers => do
    let r ← updateLoop oldUeId newUeId (2 ^ 32 + 1) 0 s.te2ue bearers
    return ⟨r.1, (s.ue2te.insert newUeId r.2).erase oldUeId⟩

end Update

section Delete

def newGtpuDeleteOneTunnel (ueId : Nat) (rbId : Int) : Tables :=
  match s.ue2te.lookup ueId with
  | none => s
  | some bearers =>
    match bearers.lookup (key rbId) with
    | none => s
    | some bearer =>
      ⟨s.te2ue.erase bearer.teidIncoming.toNat, s.ue2te.insert ueId (bearers.erase (key rbId))⟩

def newGtpuDeleteAllTunnels (ueId : Nat) : Tables :=
  match s.ue2te.lookup ueId with
  | none => s
  | some bearers =>
    ⟨bearers.entries.foldl (fun te2ue entry => te2ue.erase entry.2.teidIncoming.toNat) s.te2ue, s.ue2te.erase ueId⟩

end Delete

inductive Call where
  | create (req : CreateTunnel) (draws : List (Fin (2 ^ 31) × Fin (2 ^ 31)))
  | updateUeId (oldUeId newUeId : Nat)
  | deleteOne (ueId : Nat) (rbId : Int)
  | deleteAll (ueId : Nat)

def perform : Call → Except Fault (Tables × Option UInt32)
  | .create req draws => (s.newGtpuCreateTunnel req draws).map fun r => (r.1, some r.2)
  | .updateUeId oldUeId newUeId => (s.gtpv1uUpdateUeId oldUeId newUeId).map fun s => (s, none)
  | .deleteOne ueId rbId => .ok (s.newGtpuDeleteOneTunnel ueId rbId, none)
  | .deleteAll ueId => .ok (s.newGtpuDeleteAllTunnels ueId, none)

end Tables

section Specification

structure Tunnel where
  bearer : TunnelBearer
  incomingRbId : Nat
  callBack : Bool
  callBackSdap : Bool

def Tunnel.entry (tunnel : Tunnel) (ueId bearerId : Nat) : UeidData :=
  ⟨ueId, tunnel.incomingRbId, tunnel.callBack, tunnel.bearer.teidOutgoing, tunnel.callBackSdap, bearerId⟩

abbrev Tunnels := Nat → Nat → Option Tunnel

namespace Tunnels

def create (T : Tunnels) (ueId bearerId : Nat) (tunnel : Tunnel) : Tunnels :=
  fun u b => if u = ueId ∧ b = bearerId then some tunnel else T u b

open Classical in
/-- The tunnels of a UE are found under its new id, and nothing else is. A UE without tunnels has nothing to rename. -/
noncomputable def rename (T : Tunnels) (oldUeId newUeId : Nat) : Tunnels :=
  if ∃ b, (T oldUeId b).isSome then
    fun u b => if u = newUeId then T oldUeId b else if u = oldUeId then none else T u b
  else T

def deleteOne (T : Tunnels) (ueId bearerId : Nat) : Tunnels :=
  fun u b => if u = ueId ∧ b = bearerId then none else T u b

def deleteAll (T : Tunnels) (ueId : Nat) : Tunnels := fun u b => if u = ueId then none else T u b

noncomputable def perform (T : Tunnels) : Tables.Call → Option UInt32 → Tunnels
  | .create req _, teid => T.create req.ueId (Tables.key req.outgoingBearerId)
    ⟨⟨teid.getD 0, req.outgoingTeid⟩, (req.incomingBearerId % 2 ^ 16).toNat, req.callBack, req.callBackSdap⟩
  | .updateUeId oldUeId newUeId, _ => T.rename oldUeId newUeId
  | .deleteOne ueId rbId, _ => T.deleteOne ueId (Tables.key rbId)
  | .deleteAll ueId, _ => T.deleteAll ueId

end Tunnels

structure Represents (s : Tables) (T : Tunnels) : Prop where
  ue2te : ∀ u b, s.bearer u b = (T u b).map Tunnel.bearer
  te2ue : ∀ teid entry, s.te2ue.lookup teid = some entry ↔
    ∃ u b tunnel, T u b = some tunnel ∧ tunnel.bearer.teidIncoming.toNat = teid ∧ entry = tunnel.entry u b

def Tables.Call.Good (s : Tables) : Tables.Call → Prop
  | .create req _ => Tables.key req.outgoingBearerId < 256 ∧
    s.bearer req.ueId (Tables.key req.outgoingBearerId) = none
  | .updateUeId oldUeId newUeId => ∀ bearers, s.ue2te.lookup oldUeId = some bearers →
    (∀ i, i ∈ bearers ↔ i < bearers.keys.length) ∧
      ((bearers.keys = [] ∧ newUeId = oldUeId) ∨ (newUeId ≠ oldUeId ∧ ∀ b, s.bearer newUeId b = none))
  | .deleteOne _ _ => True
  | .deleteAll _ => True

end Specification

end OaiNr.Gtpu
