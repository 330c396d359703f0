import OaiNr.Mac.NrList

/-!
# The HARQ processes of a UE at the gNB

A UE has a set of HARQ processes for each direction. A process is free, awaits feedback or awaits its retransmission,
and is then in one of three lists.
-/

namespace OaiNr.Mac

def nrMaxHarqProcesses : Nat := 32

/-- `NR_UE_harq_t` and `NR_UE_ul_harq_t`. A process of the uplink has no `feedback_frame` and no `action`, which is
`ack_reconfig` or none. -/
structure Process where
  isWaiting : Bool
  ndi : Nat
  round : Nat
  feedbackFrame : Nat
  feedbackSlot : Nat
  action : Bool
  deriving DecidableEq, Repr

/-- `feedback_slot = -1`, in 16 bits -/
def noFeedbackSlot : Nat := 65535

/-- The HARQ part of `NR_UE_sched_ctrl_t` in one direction. `errors` is the counter of `mac_stats`. -/
structure Harq where
  processes : Nat → Process
  available : NrList
  feedback : NrList
  retrans : NrList
  errors : Nat

namespace Harq

def zero : Harq := ⟨fun _ => ⟨false, 0, 0, 0, 0, false⟩, .zero, .zero, .zero, 0⟩

variable (h : Harq)

/-- `harq_processes[pid]` -/
def process (pid : Int) : Except Fault Process :=
  if 0 ≤ pid ∧ pid < nrMaxHarqProcesses then .ok (h.processes pid.toNat) else .error .outOfBounds

def modify (pid : Int) (f : Process → Process) : Except Fault Harq :=
  if 0 ≤ pid ∧ pid < nrMaxHarqProcesses then
    .ok { h with processes := Function.update h.processes pid.toNat (f (h.processes pid.toNat)) }
  else .error .outOfBounds

def toAvailable (pid : Int) : Except Fault Harq := do
  return { h with available := ← h.available.addTail pid }

def toFeedback (pid : Int) : Except Fault Harq := do
  return { h with feedback := ← h.feedback.addTail pid }

def toRetrans (pid : Int) : Except Fault Harq := do
  return { h with retrans := ← h.retrans.addTail pid }

def popFeedback : Except Fault Harq := do
  return { h with feedback := ← h.feedback.removeFront }

def popRetrans : Except Fault Harq := do
  return { h with retrans := ← h.retrans.removeFront }

/-- `finish_nr_dl_harq`, `finish_nr_ul_harq` -/
def finish (pid : Int) : Except Fault Harq := do
  let h ← h.modify pid fun p => { p with ndi := p.ndi ^^^ 1, round := 0 }
  h.toAvailable pid

def abort (pid : Int) : Except Fault Harq := do
  let h ← h.finish pid
  return { h with errors := h.errors + 1 }

/-! ## Grants -/

/-- The start of `setup_dl_harq_process` and of `post_process_ulsch`: the process leaves the list
that its round tells. Without a process (`pid < 0`) the first free one is taken. -/
def take (pid : Int) : Except Fault (Int × Harq) :=
  if pid < 0 then
    if h.available.head < 0 then .error .assertFatal
    else do return (h.available.head, { h with available := ← h.available.removeFront })
  else do
    let p ← h.process pid
    if p.round = 0 then return (pid, { h with available := ← h.available.remove pid })
    else return (pid, { h with retrans := ← h.retrans.remove pid })

def assertNotWaiting (pid : Int) : Except Fault Unit := do
  let p ← h.process pid
  if p.isWaiting then throw .devAssert

/-- `setup_dl_harq_process`. `pucch` is the frame and the slot of the PUCCH, which a process without
feedback does not have, so that its action is never called. A retransmission keeps the action. -/
def setupDl (pid : Int) (pucch : Option (Nat × Nat)) (action : Bool) : Except Fault Harq := do
  let (pid, h) ← h.take pid
  h.assertNotWaiting pid
  match pucch with
  | none => h.finish pid
  | some (frame, slot) =>
    let h ← h.toFeedback pid
    h.modify pid fun p => { p with
      feedbackFrame := frame, feedbackSlot := slot, isWaiting := true,
      action := if p.round = 0 then action else p.action }

/-- The HARQ part of `post_process_ulsch`. `slot` is the slot of the PUSCH. -/
def setupUl (disableHarq : Bool) (roundMax : Nat) (pid : Int) (slot : Nat) : Except Fault Harq := do
  let (pid, h) ← h.take pid
  h.assertNotWaiting pid
  let h ←
    if disableHarq then h.finish pid
    else do
      let h ← h.toFeedback pid
      h.modify pid fun p => { p with feedbackSlot := slot, isWaiting := true }
  let p ← h.process pid
  if roundMax ≤ p.round then throw .assertFatal
  return h

/-- The process that `collect_dl_candidates` and then `nr_dl_schedule` choose for a UE: the one that
waits longest for its retransmission, or the first free one. -/
def dlCandidate : Option Int :=
  if 0 ≤ h.retrans.head then some h.retrans.head
  else if h.available.head < 0 then none
  else some h.available.head

/-- `collect_ul_candidates` and `apply_ul_new_transmission`, and the choice of the two schedulers of
the PHY test: `-1` for any free process. -/
def freeCandidate : Option Int :=
  if 0 ≤ h.retrans.head then some h.retrans.head
  else if h.available.head < 0 then none
  else some (-1)

/-! ## Feedback -/

/-- `harq->round >= harq_round_max - 1`: the process has had its last round. Else it will be
transmitted again. -/
def nack (roundMax : Nat) (pid : Int) : Except Fault Harq := do
  let p ← h.process pid
  if (roundMax : Int) - 1 ≤ p.round then h.abort pid
  else do
    let h ← h.toRetrans pid
    h.modify pid fun p => { p with round := p.round + 1 }

def handleDl (roundMax : Nat) (pid : Int) (success : Bool) : Except Fault Harq := do
  let h ← h.modify pid fun p => { p with feedbackSlot := noFeedbackSlot, isWaiting := false }
  if success then h.finish pid else h.nack roundMax pid

/-- `(a - b + 1024) % 1024 > 512`, in unsigned arithmetic: frame `a` is before frame `b`. -/
def frameBefore (a b : Nat) : Bool := 512 < ((a : Int) - b + 1024) % 1024

def Process.past (p : Process) (frame slot : Nat) : Bool :=
  frameBefore p.feedbackFrame frame || (p.feedbackFrame == frame && p.feedbackSlot < slot)

def Process.future (p : Process) (frame slot : Nat) : Bool :=
  frameBefore frame p.feedbackFrame || (p.feedbackFrame == frame && slot < p.feedbackSlot)

/-- `find_harq`: whether the process at the front of the feedback list is one of this slot. The ones
before it whose time is past are handled as negative feedback. -/
def findHarq (roundMax frame slot : Nat) : (fuel : Nat) → Harq → Except Fault (Bool × Harq)
  | 0, _ => .error .endless
  | fuel + 1, h =>
    if h.feedback.head < 0 then .ok (false, h)
    else do
      let p ← h.process h.feedback.head
      if Process.past p frame slot then
        let pid := h.feedback.head
        let h ← h.popFeedback
        let h ← h.handleDl roundMax pid false
        findHarq roundMax frame slot fuel h
      else return (!Process.future p frame slot, h)

/-- One round of the loop of `handle_nr_ul_harq`, for a process whose feedback did not come. -/
def skipUl (roundMax : Nat) (pid : Int) : Except Fault Harq := do
  let h ← h.popFeedback
  let h ← h.modify pid fun p => { p with isWaiting := false }
  h.nack roundMax pid

/-- `handle_nr_ul_harq`. `failed` is `crc_status`. -/
def handleUl (roundMax : Nat) (crcPid : Int) (failed : Bool) : (fuel : Nat) → Harq → Except Fault Harq
  | 0, _ => .error .endless
  | fuel + 1, h =>
    let pid := h.feedback.head
    if pid < 0 then .ok h
    else if crcPid ≠ pid then do
      let h ← h.skipUl roundMax pid
      handleUl roundMax crcPid failed fuel h
    else do
      let h ← h.popFeedback
      let p ← h.process pid
      if !p.isWaiting then throw .devAssert
      let h ← h.modify pid fun p => { p with feedbackSlot := noFeedbackSlot, isWaiting := false }
      if failed then h.nack roundMax pid else h.finish pid

/-! ## Configuration -/

/-- The first loop of `reset_dl_harq_list` and `reset_ul_harq_list`. -/
def drainFeedback : (fuel : Nat) → Harq → Except Fault Harq
  | 0, _ => .error .endless
  | fuel + 1, h =>
    let pid := h.feedback.head
    if pid < 0 then .ok h
    else do
      let h ← h.popFeedback
      let h ← h.toAvailable pid
      drainFeedback fuel h

def drainRetrans : (fuel : Nat) → Harq → Except Fault Harq
  | 0, _ => .error .endless
  | fuel + 1, h =>
    let pid := h.retrans.head
    if pid < 0 then .ok h
    else do
      let h ← h.popRetrans
      let h ← h.toAvailable pid
      drainRetrans fuel h

def reset : Except Fault Harq := do
  let h ← h.drainFeedback (h.feedback.len + 1)
  let h ← h.drainRetrans (h.retrans.len + 1)
  return { h with
    processes := fun i =>
      if i < nrMaxHarqProcesses then
        { h.processes i with feedbackSlot := noFeedbackSlot, round := 0, isWaiting := false }
      else h.processes i }

/-- The processes from `first` on become free. -/
def addProcesses (first : Nat) : (count : Nat) → Harq → Except Fault Harq
  | 0, h => .ok h
  | count + 1, h => do
    let h ← h.toAvailable first
    addProcesses (first + 1) count h

/-- `create_ul_harq_list`, and `create_dl_harq_list` after its first assertion. -/
def createList (nrofHarq : Nat) : Except Fault Harq :=
  let oldLen := h.available.len
  if oldLen = 0 then do
    let h ← addProcesses 0 nrofHarq { h with available := .create nrofHarq }
    return { h with feedback := .create nrofHarq, retrans := .create nrofHarq }
  else if oldLen = nrofHarq then .ok h
  else if nrofHarq ≤ oldLen then .error .harqLowered
  else do
    let available ← h.available.resize nrofHarq
    let h ← addProcesses oldLen (nrofHarq - oldLen) { h with available := available }
    let feedback ← h.feedback.resize nrofHarq
    let retrans ← h.retrans.resize nrofHarq
    return { h with feedback := feedback, retrans := retrans }

def createDlList (nrofHarq : Nat) : Except Fault Harq :=
  if h.available.len = h.feedback.len ∧ h.available.len = h.retrans.len then h.createList nrofHarq
  else .error .assertFatal

end Harq

/-! ## A UE -/

/-- What the cell group configuration says on the number of processes. -/
structure ScInfo where
  nrofHarqProcessesForPdschV1700 : Bool
  /-- An index to the values of the IE. -/
  nrofHarqProcessesForPdsch : Option (Fin 6)
  nrofHarqProcessesForPuschR17 : Bool
  deriving DecidableEq, Repr

namespace ScInfo

def nrofHarqPdsch (s : ScInfo) : Nat :=
  if s.nrofHarqProcessesForPdschV1700 then 32
  else
    match s.nrofHarqProcessesForPdsch with
    | none => 8
    | some i => [2, 4, 6, 10, 12, 16].get i

def nrofHarqPusch (s : ScInfo) : Nat := if s.nrofHarqProcessesForPuschR17 then 32 else 16

def limit (dci0010 : Bool) (n : Nat) : Nat := if dci0010 && 16 < n then 16 else n

end ScInfo

/-- The states of random access that matter for HARQ. -/
inductive RaState where
  | waitMsg3
  | msg4
  | waitAck
  deriving DecidableEq, Repr

/-- The kinds of random access: in two or four steps, with or without contention. -/
structure RaKind where
  twoStep : Bool
  cfra : Bool
  deriving DecidableEq, Repr

structure Ra extends RaKind where
  state : RaState
  harqPid : Int
  deriving DecidableEq, Repr

/-- The configuration of the gNB. `harq_round_max` has eight bits. -/
structure HarqConfig where
  dlRoundMax : Nat
  ulRoundMax : Nat
  disableHarq : Bool
  dl_pos : 1 ≤ dlRoundMax
  dl_lt : dlRoundMax < 256
  ul_pos : 1 ≤ ulRoundMax
  ul_lt : ulRoundMax < 256

def HarqConfig.default : HarqConfig where
  dlRoundMax := 4
  ulRoundMax := 4
  disableHarq := false
  dl_pos := by decide
  dl_lt := by decide
  ul_pos := by decide
  ul_lt := by decide

/-- A UE, which has `ra` as long as it is in the list of the UEs that access the cell. -/
structure Ue where
  dl : Harq
  ul : Harq
  scInfo : ScInfo
  reconfigCellGroup : Option ScInfo
  ra : Option Ra

namespace Ue

/-- The HARQ part of `configure_UE_BWP`. -/
def configureBwp (u : Ue) (dci0010 : Bool) : Except Fault Ue := do
  let dl ← u.dl.createDlList (ScInfo.limit dci0010 u.scInfo.nrofHarqPdsch)
  let ul ← u.ul.createList (ScInfo.limit dci0010 u.scInfo.nrofHarqPusch)
  return { u with dl := dl, ul := ul }

def resetHarq (u : Ue) : Except Fault Ue := do
  return { u with dl := ← u.dl.reset, ul := ← u.ul.reset }

/-- The HARQ part of `nr_generate_Msg4_MsgB`. A process that awaits its retransmission stays in the
list of these. `pucch` is the frame and the slot of the PUCCH. -/
def generateMsg4 (u : Ue) (r : Ra) (pucch : Nat × Nat) : Except Fault Ue := do
  if r.cfra then throw .devAssert
  let (pid, dl) ←
    if u.dl.retrans.head < 0 then
      if u.dl.available.head < 0 then throw .assertFatal
      else pure (u.dl.available.head, { u.dl with available := ← u.dl.available.removeFront })
    else pure (u.dl.retrans.head, u.dl)
  dl.assertNotWaiting pid
  let dl ← dl.toFeedback pid
  let dl ← dl.modify pid fun p =>
    { p with feedbackFrame := pucch.1, feedbackSlot := pucch.2, isWaiting := true }
  return { u with dl := dl, ra := some { r with state := .waitAck, harqPid := pid } }

/-- `nr_check_Msg4_MsgB_Ack`, for a UE that has a cell group. -/
def checkMsg4Ack (u : Ue) (success : Bool) : Except Fault Ue :=
  match u.ra with
  | none => .error .nullDeref
  | some r => do
    let p ← u.dl.process r.harqPid
    if p.round = 0 then
      let u ← if success then (return { ← u.configureBwp true with ra := none }) else pure u
      if 0 ≤ u.dl.retrans.head then
        return { u with dl := { u.dl with retrans := ← u.dl.retrans.remove r.harqPid } }
      else return u
    else return { u with ra := some { r with state := .msg4 } }

/-- `ack_reconfig`, if it is the action. The search space is the common one. -/
def ackReconfig (u : Ue) (action : Bool) : Except Fault Ue :=
  match action, u.reconfigCellGroup with
  | true, some s => configureBwp { u with scInfo := s, reconfigCellGroup := none } true
  | _, _ => .ok u

/-- The loop over the bits of `handle_nr_uci_pucch_0_1` and `handle_nr_uci_pucch_2_3_4`. A bit is
`true` for positive feedback. -/
def handleBits (u : Ue) (roundMax frame slot : Nat) (isRa : Bool) : List Bool → Except Fault Ue
  | [] => .ok u
  | success :: bits => do
    let (found, dl) ← u.dl.findHarq roundMax frame slot (u.dl.feedback.len + 1)
    if !found then return { u with dl := dl }
    let pid := dl.feedback.head
    let p ← dl.process pid
    if !p.isWaiting then throw .devAssert
    let dl ← dl.popFeedback
    let u : Ue := { u with dl := dl }
    -- the action reads no process: it may come before the writes of `handle_dl_harq`
    let u ← u.ackReconfig (success && p.action)
    let dl ← u.dl.handleDl roundMax pid success
    let u : Ue := { u with dl := dl }
    let u ← if isRa then u.checkMsg4Ack success else pure u
    u.handleBits roundMax frame slot isRa bits

/-- `nr_rx_ra_sdu` for a PUSCH that was received and has no C-RNTI. -/
def rxRaSdu (u : Ue) (r : Ra) : Except Fault Ue :=
  if !r.twoStep && r.state != .waitMsg3 then .ok u
  else if r.cfra then do
    let u ← u.resetHarq
    let u ← u.configureBwp false
    return { u with ra := none }
  else .ok { u with ra := some { r with state := .msg4 } }

end Ue

/-! ## Runs -/

/-- What happens to a UE. Grants and feedback of the data channels are for connected UEs only; those
of random access are for the others. `srb1`: more than 10 bytes wait on SRB1. -/
inductive HarqEvent where
  | dlGrant (pucch : Option (Nat × Nat)) (srb1 : Bool)
  | dlGrantPhyTest (pucch : Option (Nat × Nat))
  | ulGrant (slot : Nat)
  | uci (frame slot : Nat) (bits : List Bool)
  | ulCrc (pid : Nat) (failed : Bool)
  | reset
  | cellGroup (s : ScInfo)
  | reconfigCellGroup (s : ScInfo)
  | configureBwp (dci0010 : Bool)
  | rxRaSdu
  | msg4Grant (pucch : Nat × Nat)

namespace Ue

def exec (c : HarqConfig) (u : Ue) : HarqEvent → Except Fault Ue
  | .dlGrant pucch srb1 =>
    match u.ra, u.dl.dlCandidate with
    | none, some pid => do return { u with dl := ← u.dl.setupDl pid pucch (u.reconfigCellGroup.isSome && srb1) }
    | _, _ => .ok u
  | .dlGrantPhyTest pucch =>
    match u.ra, u.dl.freeCandidate with
    | none, some pid => do return { u with dl := ← u.dl.setupDl pid pucch false }
    | _, _ => .ok u
  | .ulGrant slot =>
    match u.ra, u.ul.freeCandidate with
    | none, some pid => do
      return { u with ul := ← u.ul.setupUl c.disableHarq c.ulRoundMax pid slot }
    | _, _ => .ok u
  | .uci frame slot bits => u.handleBits c.dlRoundMax frame slot u.ra.isSome bits
  | .ulCrc pid failed =>
    if u.ra.isSome || c.disableHarq then .ok u
    else do return { u with ul := ← u.ul.handleUl c.ulRoundMax pid failed (u.ul.feedback.len + 1) }
  | .reset => if u.ra.isSome then .ok u else u.resetHarq
  | .cellGroup s => .ok { u with scInfo := s }
  | .reconfigCellGroup s => .ok { u with reconfigCellGroup := some s }
  | .configureBwp dci0010 => u.configureBwp dci0010
  | .rxRaSdu =>
    match u.ra with
    | none => .ok u
    | some r => u.rxRaSdu r
  | .msg4Grant pucch =>
    match u.ra with
    | some r => if r.state = .msg4 then u.generateMsg4 r pucch else .ok u
    | none => .ok u

/-- A new UE, by random access or without: its context is allocated, and its BWP configured. -/
def create (s : ScInfo) (kind : Option RaKind) (dci0010 : Bool) : Except Fault Ue :=
  configureBwp ⟨.zero, .zero, s, none, kind.map fun k => { k with state := .waitMsg3, harqPid := 0 }⟩
    dci0010

end Ue

end OaiNr.Mac
