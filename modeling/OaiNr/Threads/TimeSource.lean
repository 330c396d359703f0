import Mathlib.Tactic.Ring
import OaiNr.Lib.Interleave

/-!
# The time source of IQ samples

`time_source.c`: a thread calls a function for every millisecond of samples. Other threads add samples, and one of
them ends the thread. `free_time_source` does not take the mutex.
-/

namespace OaiNr.Threads

inductive SourcePc where
  | loop
  | lock
  | testExit
  | testCount
  | wait
  | blocked
  | woken
  | take
  | unlock
  | testBreak
  | lockTick
  | unlockTick
  | tick
  | done
  deriving DecidableEq, Repr

inductive FreePc where
  | setExit
  | signal
  | join
  | returned
  deriving DecidableEq, Repr

/-- The call of `time_source_iq_add` that holds the mutex, by what it does next -/
inductive AddPc where
  | none
  | add (samples : Nat)
  | signal
  | unlock
  deriving DecidableEq, Repr

/-- `time_source_iq_t`, the threads, and how many samples were added and how often the function was called -/
structure TimeSource where
  exit : Bool
  iqSamplesCount : Nat
  iqSamplesPerSecond : Nat
  source : SourcePc
  free : FreePc
  adder : AddPc
  total : Nat
  ticks : Nat
  deriving DecidableEq, Repr

def newTimeSource : TimeSource := ⟨false, 0, 0, .loop, .setExit, .none, 0, 0⟩

@[simp] def SourcePc.holds : SourcePc → Bool
  | .testExit | .testCount | .wait | .take | .unlock | .unlockTick => true
  | _ => false

/-- `condsignal` -/
def SourcePc.wake : SourcePc → SourcePc
  | .blocked => .woken
  | pc => pc

namespace TimeSource

variable (s : TimeSource)

def TooFew : Prop := s.iqSamplesPerSecond = 0 ∨ s.iqSamplesCount < s.iqSamplesPerSecond / 1000

instance : Decidable s.TooFew := inferInstanceAs (Decidable (_ ∨ _))

def goto (pc : SourcePc) : TimeSource := { s with source := pc }

def locked (pc : SourcePc) : Option TimeSource := if s.adder = .none then some (s.goto pc) else none

def sourceStep : Option TimeSource :=
  match s.source with
  | .loop => some (s.goto (if s.exit then .done else .lock))
  | .lock => s.locked .testExit
  | .testExit => some (s.goto (if s.exit then .take else .testCount))
  | .testCount => some (s.goto (if s.TooFew then .wait else .take))
  | .wait => some (s.goto .blocked)
  | .blocked => none
  | .woken => s.locked .testExit
  | .take => some { s with
      iqSamplesCount := (s.iqSamplesCount + 2 ^ 64 - s.iqSamplesPerSecond / 1000) % 2 ^ 64, source := .unlock }
  | .unlock => some (s.goto .testBreak)
  | .testBreak => some (s.goto (if s.exit then .done else .lockTick))
  | .lockTick => s.locked .unlockTick
  | .unlockTick => some (s.goto .tick)
  | .tick => some { s with ticks := s.ticks + 1, source := .loop }
  | .done => none

/-- A step of `free_time_source`. `time_source_iq_samples_terminate` signals without the mutex. -/
def freeStep : Option TimeSource :=
  match s.free with
  | .setExit => some { s with exit := true, free := .signal }
  | .signal => some { s with free := .join, source := s.source.wake }
  | .join => if s.source = .done then some { s with free := .returned } else none
  | .returned => none

/-- A step of `time_source_iq_add`, with the rate of all its calls -/
def addStep (rate : Nat) : Option TimeSource :=
  match s.adder with
  | .none => none
  | .add samples => some { s with
      iqSamplesCount := (s.iqSamplesCount + samples) % 2 ^ 64
      iqSamplesPerSecond := if s.iqSamplesPerSecond = 0 then rate else s.iqSamplesPerSecond
      total := s.total + samples, adder := .signal }
  | .signal => some { s with source := s.source.wake, adder := .unlock }
  | .unlock => some { s with adder := .none }

end TimeSource

/-- A step of a thread, a call of `time_source_iq_add` that gets the mutex, or a wakeup without a signal -/
inductive TimeEvent where
  | source
  | free
  | add (samples : Nat)
  | adder
  | spurious
  deriving DecidableEq, Repr

def timeStep (rate : Nat) (s : TimeSource) : TimeEvent → Option TimeSource
  | .source => s.sourceStep
  | .free => s.freeStep
  | .add samples =>
    if s.adder = .none ∧ s.source.holds = false ∧ s.free ≠ .returned then some { s with adder := .add samples } else none
  | .adder => s.addStep rate
  | .spurious => if s.source = .blocked then some { s with source := .woken } else none

end OaiNr.Threads
