import OaiNr.Lib.Interleave

/-!
# The actor

`actor.c`: a thread processes the messages of a FIFO, one after the other. What is done to a FIFO with its mutex held is
one step, since nothing is done to it without.
-/

namespace OaiNr.Threads

/-- A message: a job, or the one that a call of `flush_actor` or `shutdown_actor` waits for -/
inductive ActorMsg where
  | job (producer number : Nat)
  | flush (call : Nat)
  | shutdown (call : Nat)
  deriving DecidableEq, Repr

def ActorMsg.isCall : ActorMsg → Bool
  | .job _ _ => false
  | _ => true

inductive ActorPc where
  | pull
  | process (m : ActorMsg)
  | respond (m : ActorMsg)
  | done
  | failed
  deriving DecidableEq, Repr

/-- `Actor_t`, the messages in response FIFOs, and what was pushed and processed so far -/
structure Actor where
  fifo : List ActorMsg
  abortFIFO : Bool
  terminate : Bool
  thread : ActorPc
  responses : List ActorMsg
  pushed : List ActorMsg
  processed : List ActorMsg
  deriving DecidableEq, Repr

def initActor : Actor := ⟨[], false, false, .pull, [], [], []⟩

namespace Actor

variable (s : Actor)

/-- `pushNotifiedFIFO`. An aborted FIFO does not take the message. -/
def pushNotifiedFIFO (m : ActorMsg) : Actor :=
  { s with fifo := if s.abortFIFO then s.fifo else s.fifo ++ [m], pushed := s.pushed ++ [m] }

/-- `pullNotifiedFIFO`, which waits for a message, and the assertion on what it returns -/
def pullNotifiedFIFO : Option Actor :=
  if s.abortFIFO then some { s with thread := if s.terminate then .done else .failed }
  else match s.fifo with
    | [] => none
    | m :: fifo => some { s with fifo := fifo, thread := .process m }

/-- The processing function. That of `shutdown_actor` aborts the FIFO. -/
def process (m : ActorMsg) : Actor :=
  match m with
  | .shutdown _ => { s with
      fifo := [], abortFIFO := true, terminate := true, thread := .respond m, processed := s.processed ++ [m] }
  | _ => { s with thread := .respond m, processed := s.processed ++ [m] }

def respond (m : ActorMsg) : Actor :=
  { s with responses := if m.isCall then m :: s.responses else s.responses
           thread := if s.terminate then .done else .pull }

def threadStep : Option Actor :=
  match s.thread with
  | .pull => s.pullNotifiedFIFO
  | .process m => some (s.process m)
  | .respond m => some (s.respond m)
  | .done => none
  | .failed => none

/-- The call that waits for the message returns. `shutdown_actor` also joins the thread. -/
def Returned : ActorMsg → Prop
  | .job _ _ => False
  | .flush call => .flush call ∈ s.responses
  | .shutdown call => .shutdown call ∈ s.responses ∧ s.thread = .done

end Actor

inductive ActorEvent where
  | push (m : ActorMsg)
  | thread
  deriving DecidableEq, Repr

def actorStep (s : Actor) : ActorEvent → Option Actor
  | .push m => if m ∈ s.pushed then none else some (s.pushNotifiedFIFO m)
  | .thread => s.threadStep

end OaiNr.Threads
