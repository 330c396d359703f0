import OaiNr.Rlc.UmTx

/-!
# Reconfiguration (`nr_rlc_entity.c`, `nr_rlc_oai_api.c`)

A configuration stands for the fields of `NR_RLC_Config_t` that are read, with the values of the
enumerations decoded. The look-up of the entity and TM entities are left out.
-/

namespace OaiNr.Rlc

def Am.reconfigure (e : Am) (tPollRetransmit tReassembly tStatusProhibit pollPdu pollByte
    maxRetxThreshold : Int) (snFieldLength : Option Nat) : Am :=
  { e with
    tPollRetransmit, tReassembly, tStatusProhibit, pollPdu, pollByte, maxRetxThreshold
    snFieldLength := snFieldLength.getD e.snFieldLength }

def Um.reconfigure (e : Um) (tReassembly : Int) (snFieldLength : Option Nat) : Um :=
  { e with tReassembly, snFieldLength := snFieldLength.getD e.snFieldLength }

structure RlcConfigAm where
  dlTReassembly : Int
  dlTStatusProhibit : Int
  dlSnFieldLength : Option Nat
  ulTPollRetransmit : Int
  ulPollPdu : Int
  ulPollByte : Int
  ulMaxRetxThreshold : Int
  ulSnFieldLength : Option Nat
  deriving Repr, DecidableEq

structure RlcConfigUm where
  dlTReassembly : Int
  dlSnFieldLength : Option Nat
  ulSnFieldLength : Option Nat
  deriving Repr, DecidableEq

inductive RlcConfig where
  | am (c : RlcConfigAm)
  | umBiDirectional (c : RlcConfigUm)
  | umUniDirectional
  deriving Repr, DecidableEq

inductive RlcEntity where
  | am (e : Am)
  | um (e : Um)

namespace RlcEntity

def snFieldLengthOf : Option Nat → Option Nat → Except Fault (Option Nat)
  | some dl, some ul => if dl = ul then .ok (some dl) else .error .exit
  | none, none => .ok none
  | _, _ => .error .exit

def nrRlcReconfigureEntity : RlcEntity → Option RlcConfig → Except Fault RlcEntity
  | .am e, some (.am c) => do
    let snFieldLength ← snFieldLengthOf c.dlSnFieldLength c.ulSnFieldLength
    return .am (e.reconfigure c.ulTPollRetransmit c.dlTReassembly c.dlTStatusProhibit c.ulPollPdu
      c.ulPollByte c.ulMaxRetxThreshold snFieldLength)
  | .um e, some (.umBiDirectional c) => do
    let snFieldLength ← snFieldLengthOf c.dlSnFieldLength c.ulSnFieldLength
    return .um (e.reconfigure c.dlTReassembly snFieldLength)
  | .am e, none => .ok (.am (e.reconfigure 45 35 0 (-1) (-1) 8 (some 12)))
  | _, _ => .error .exit

/-! ## Runs -/

inductive Step where
  | op (op : Op)
  | reconfigure (config : Option RlcConfig)

def exec (fuel : Nat) : RlcEntity → Step → Except Fault RlcEntity
  | .am e, .op op => (e.exec fuel op).map .am
  | .um e, .op op => (e.exec fuel op).map .um
  | rb, .reconfigure config => rb.nrRlcReconfigureEntity config

/-- The states that a new entity reaches by operations and reconfigurations that return and meet the
condition `ok` in the state they start from. -/
inductive Reaches (ok : RlcEntity → Step → Prop) : RlcEntity → Prop where
  | newAm (c : AmConfig) : Reaches ok (.am (Am.newNrRlcEntityAm c))
  | newUm (c : UmConfig) : Reaches ok (.um (Um.newNrRlcEntityUm c))
  | step {rb rb' : RlcEntity} {s : Step} {fuel : Nat} :
      Reaches ok rb → ok rb s → rb.exec fuel s = .ok rb' → Reaches ok rb'

end RlcEntity

end OaiNr.Rlc
