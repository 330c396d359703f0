import OaiNr.Ds.SeqArr
import OaiNr.Lib.Simulation

/-!
# The queue of `spsc_q.c`

One thread puts elements into a ring of bytes and another one gets them. Every access to an index and to a byte of the
ring is a step of its own, and the steps of the two threads come in any order.
-/

namespace OaiNr.Ds

structure SpscQ where
  buf : List UInt8
  cnt : Nat
  elsiz : Nat
  writeIdx : Nat
  readIdx : Nat
  deriving DecidableEq, Repr

/-- `spsc_q_alloc`, with one element more than asked for -/
def spscQAlloc (heap : Bool) (cnt elsiz : UInt64) : Option SpscQ :=
  let cnt := (cnt.toNat + 1) % 2 ^ 64
  (calloc heap cnt elsiz.toNat).toOption.map fun buf => ⟨buf, cnt, elsiz.toNat, 0, 0⟩

def SpscQ.next (q : SpscQ) (idx : Nat) : Except Fault Nat :=
  if q.cnt = 0 then .error .divisionByZero else .ok ((idx + 1) % 2 ^ 64 % q.cnt)

def SpscQ.slot (q : SpscQ) (idx : Nat) : List UInt8 := (q.buf.drop (idx * q.elsiz)).take q.elsiz

def SpscQ.elements (q : SpscQ) : List (List UInt8) :=
  (List.range ((q.writeIdx + q.cnt - q.readIdx) % q.cnt)).map fun i => q.slot ((q.readIdx + i) % q.cnt)

section Threads

inductive Producer where
  | idle
  | loadWrite (src : List UInt8)
  | loadRead (src : List UInt8) (w : Nat)
  | copy (src : List UInt8) (w copied : Nat)
  deriving DecidableEq, Repr

/-- The calls that get elements. Without `dest`, `spsc_q_get_if` drops the element. -/
inductive GetCall where
  | getIf (p : List UInt8 → Bool) (dest : Bool)
  | getWhile (p : List UInt8 → Bool) (maxLen : Nat)
  | dropWhile (p : List UInt8 → Bool)

def GetCall.pred : GetCall → List UInt8 → Bool
  | .getIf p _ => p
  | .getWhile p _ => p
  | .dropWhile p => p

def GetCall.dest : GetCall → Bool
  | .getIf _ dest => dest
  | .getWhile _ _ => true
  | .dropWhile _ => false

/-- Whether `spsc_q_get_if` is called again after it got `count` elements -/
def GetCall.again : GetCall → (count : Nat) → Bool
  | .getIf _ _, count => count = 0
  | .getWhile _ maxLen, count => count < maxLen
  | .dropWhile _, _ => true

structure Getting where
  call : GetCall
  count : Nat
  dest : List (List UInt8)

/-- A call of `spsc_q_get_if` in one of these calls, by what it does next -/
inductive Consumer where
  | idle
  | loadWrite (g : Getting)
  | loadRead (g : Getting) (w : Nat)
  | loadPos (g : Getting) (r : Nat)
  | test (g : Getting) (r pos : Nat) (seen : List UInt8)
  | copy (g : Getting) (r pos : Nat) (out : List UInt8)
  | store (g : Getting) (r : Nat)

/-- What the callers see. The number of elements is returned as an `int`. -/
inductive Event where
  | put (src : List UInt8)
  | putDone (ok : Bool)
  | get (call : GetCall)
  | getDone (count : Int) (dest : List (List UInt8))

structure System where
  q : SpscQ
  producer : Producer
  consumer : Consumer

def spscQPut (q : SpscQ) : Producer → Except Fault ((SpscQ × Producer) × List Event)
  | .idle => .ok ((q, .idle), [])
  | .loadWrite src => .ok ((q, .loadRead src q.writeIdx), [])
  | .loadRead src w => do
    let next ← q.next w
    return if next = q.readIdx then ((q, .idle), [.putDone false]) else ((q, .copy src w 0), [])
  | .copy src w copied =>
    if copied < q.elsiz then do
      let buf ← checked (Memory.writeAt q.buf (w * q.elsiz % 2 ^ 64 + copied) [src.getD copied 0])
      return (({ q with buf := buf }, .copy src w (copied + 1)), [])
    else do
      let next ← q.next w
      return (({ q with writeIdx := next }, .idle), [.putDone true])

def Getting.finish (g : Getting) : Consumer × List Event := (.idle, [.getDone ((g.count : Int).bmod (2 ^ 32)) g.dest])

/-- The loops of `spsc_q_get_while` and `spsc_q_drop_while` -/
def Getting.loop (g : Getting) : Consumer × List Event :=
  if g.call.again g.count then (.loadWrite g, []) else g.finish

def spscQGetIf (q : SpscQ) : Consumer → Except Fault (SpscQ × Consumer × List Event)
  | .idle => .ok (q, .idle, [])
  | .loadWrite g => .ok (q, .loadRead g q.writeIdx, [])
  | .loadRead g w => .ok (q, if w = q.readIdx then g.finish else (.loadPos g q.readIdx, []))
  | .loadPos g r => .ok (q, .test g r q.readIdx [], [])
  | .test g r pos seen =>
    if seen.length < q.elsiz then do
      let byte ← checked (Memory.readAt q.buf (pos * q.elsiz % 2 ^ 64 + seen.length) 1)
      return (q, .test g r pos (seen ++ byte), [])
    else if g.call.pred seen then .ok (q, if g.call.dest then .copy g r pos [] else .store g r, [])
    else .ok (q, g.finish)
  | .copy g r pos out =>
    if out.length < q.elsiz then do
      let byte ← checked (Memory.readAt q.buf (pos * q.elsiz % 2 ^ 64 + out.length) 1)
      return (q, .copy g r pos (out ++ byte), [])
    else .ok (q, .store { g with dest := g.dest ++ [out] } r, [])
  | .store g r => do
    let next ← q.next r
    return ({ q with readIdx := next }, { g with count := g.count + 1 }.loop)

/-- What can happen: a thread makes a call or a step. A caller has elements of the size of the queue. -/
inductive Action (elsiz : Nat) where
  | put (src : { x : List UInt8 // x.length = elsiz })
  | get (call : GetCall)
  | producer
  | consumer

def System.step {elsiz : Nat} (s : System) : Action elsiz → Except Fault (System × List Event)
  | .put src =>
    match s.producer with
    | .idle => .ok ({ s with producer := .loadWrite src.val }, [.put src.val])
    | _ => .ok (s, [])
  | .get call =>
    match s.consumer with
    | .idle =>
      let r := Getting.loop ⟨call, 0, []⟩
      .ok ({ s with consumer := r.1 }, .get call :: r.2)
    | _ => .ok (s, [])
  | .producer => do
    let r ← spscQPut s.q s.producer
    return ({ s with q := r.1.1, producer := r.1.2 }, r.2)
  | .consumer => do
    let r ← spscQGetIf s.q s.consumer
    return ({ s with q := r.1, consumer := r.2.1 }, r.2.2)

def System.RaceFree (s : System) : Prop :=
  ∀ src w copied g r pos bytes, s.producer = .copy src w copied →
    (s.consumer = .test g r pos bytes ∨ s.consumer = .copy g r pos bytes) → w ≠ pos

end Threads

section Specification

/-- A call that gets elements, with those that it has taken, and whether it takes no more -/
structure Taking where
  call : GetCall
  taken : List (List UInt8)
  stopped : Bool

/-- A bounded queue, with the calls in progress. A call that puts an element has an answer, or none yet. -/
structure Fifo where
  contents : List (List UInt8)
  putting : Option (List UInt8 × Option Bool)
  taking : Option Taking

def Fifo.empty : Fifo := ⟨[], none, none⟩

/-- The queue works in one step between a call and its return. A call stops taking elements only if there is none, or
the oldest one does not meet the predicate. -/
inductive Fifo.Step (cap : Nat) : Fifo → List Event → Fifo → Prop where
  | put {f : Fifo} (src : List UInt8) (idle : f.putting = none) :
      Step cap f [.put src] { f with putting := some (src, none) }
  | accept {f : Fifo} {src : List UInt8} (putting : f.putting = some (src, none)) (room : f.contents.length < cap) :
      Step cap f [] { f with contents := f.contents ++ [src], putting := some (src, some true) }
  | refuse {f : Fifo} {src : List UInt8} (putting : f.putting = some (src, none)) (full : f.contents.length = cap) :
      Step cap f [] { f with putting := some (src, some false) }
  | putDone {f : Fifo} {src : List UInt8} {ok : Bool} (putting : f.putting = some (src, some ok)) :
      Step cap f [.putDone ok] { f with putting := none }
  | get {f : Fifo} (call : GetCall) (idle : f.taking = none) :
      Step cap f [.get call] { f with taking := some ⟨call, [], false⟩ }
  | take {f : Fifo} {t : Taking} {x : List UInt8} {xs : List (List UInt8)} (taking : f.taking = some t)
      (going : t.stopped = false) (again : t.call.again t.taken.length = true) (oldest : f.contents = x :: xs)
      (pred : t.call.pred x = true) :
      Step cap f [] { f with contents := xs, taking := some { t with taken := t.taken ++ [x] } }
  | stop {f : Fifo} {t : Taking} (taking : f.taking = some t) (again : t.call.again t.taken.length = true)
      (none_left : ∀ x ∈ f.contents.head?, t.call.pred x = false) :
      Step cap f [] { f with taking := some { t with stopped := true } }
  | getDone {f : Fifo} {t : Taking} (taking : f.taking = some t)
      (done : t.stopped = true ∨ t.call.again t.taken.length = false) :
      Step cap f [.getDone ((t.taken.length : Int).bmod (2 ^ 32)) (if t.call.dest then t.taken else [])]
        { f with taking := none }

end Specification

end OaiNr.Ds
