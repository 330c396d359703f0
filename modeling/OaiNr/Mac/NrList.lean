import Mathlib.Tactic.Ring

/-!
# `NR_list_t`

The list of numbers that the MAC scheduler of the gNB keeps its HARQ processes in: `next` links
them to each other, and `-1` is no link.
-/

namespace OaiNr.Mac

/-- What ends the program: an assertion, an access outside of an array, a null pointer. A loop that
does not end is `endless`. The assertion that the number of HARQ processes is not lowered has a name
of its own, since it is a demand on the configuration. -/
inductive Fault where
  | assertFatal
  | harqLowered
  | devAssert
  | outOfBounds
  | nullDeref
  | endless
  deriving DecidableEq, Repr

/-- `NR_list_t`. The array `next` has `len` entries. -/
structure NrList where
  head : Int
  next : Nat → Int
  tail : Int
  len : Nat

namespace NrList

/-- A list in memory that was set to zero: nothing was allocated for `next`. -/
def zero : NrList := ⟨0, fun _ => 0, 0, 0⟩

def create (len : Nat) : NrList := ⟨-1, fun _ => -1, -1, len⟩

variable (l : NrList)

def getNext (i : Int) : Except Fault Int :=
  if 0 ≤ i ∧ i < l.len then .ok (l.next i.toNat) else .error .outOfBounds

def setNext (i v : Int) : Except Fault NrList :=
  if 0 ≤ i ∧ i < l.len then .ok { l with next := Function.update l.next i.toNat v }
  else .error .outOfBounds

def resize (newLen : Nat) : Except Fault NrList :=
  if newLen = l.len then .ok l
  else if l.len < newLen then
    .ok { l with next := fun i => if l.len ≤ i ∧ i < newLen then -1 else l.next i, len := newLen }
  else if l.head < newLen ∧ l.tail < newLen ∧ ∀ i < l.len, l.next i < newLen then
    .ok { l with len := newLen }
  else .error .assertFatal

/-- A pointer to a link: `&listP->head` or `&listP->next[i]`. -/
inductive Link where
  | head
  | next (i : Int)
  deriving DecidableEq, Repr

def deref : Link → Except Fault Int
  | .head => .ok l.head
  | .next i => l.getNext i

def store (v : Int) : Link → Except Fault NrList
  | .head => .ok { l with head := v }
  | .next i => l.setNext i v

/-- The loop of `remove_nr_list`: the pointers `prev` and `cur` when it ends. -/
def seek (l : NrList) (id : Int) : (fuel : Nat) → (prev cur : Link) → Except Fault (Link × Link)
  | 0, _, _ => .error .endless
  | fuel + 1, prev, cur => do
    let v ← l.deref cur
    if v ≠ -1 ∧ v ≠ id then l.seek id fuel cur (.next v) else return (prev, cur)

def remove (id : Int) : Except Fault NrList := do
  let (prev, cur) ← l.seek id (l.len + 1) .head .head
  let v ← l.deref cur
  if v = -1 then throw .assertFatal
  let n ← l.getNext v
  let l ← l.store n cur
  let l ← l.setNext v (-1)
  let p ← l.deref prev
  -- `listP->next[*prev]` is read when `*prev` is an index only
  if p < 0 then return { l with tail := p }
  let n ← l.getNext p
  return { l with tail := if 0 ≤ n then l.tail else p }

/-- The loop of `add_nr_list`: the pointer `cur` when it ends. -/
def seekEnd (l : NrList) (id : Int) : (fuel : Nat) → (cur : Link) → Except Fault Link
  | 0, _ => .error .endless
  | fuel + 1, cur => do
    let v ← l.deref cur
    if v < 0 then return cur
    if v = id then throw .assertFatal
    l.seekEnd id fuel (.next v)

def add (id : Int) : Except Fault NrList := do
  let cur ← l.seekEnd id (l.len + 1) .head
  let l ← l.store id cur
  let n ← l.getNext id
  return { l with tail := if n < 0 then id else l.tail }

def addTail (id : Int) : Except Fault NrList := do
  let l ← l.store id (if l.tail < 0 then .head else .next l.tail)
  let l ← l.setNext id (-1)
  return { l with tail := id }

def addFront (id : Int) : Except Fault NrList := do
  let l' ← setNext { l with head := id } id l.head
  return { l' with tail := if l.tail < 0 then id else l.tail }

def removeFront : Except Fault NrList := do
  if l.head < 0 then throw .assertFatal
  let n ← l.getNext l.head
  let l ← l.setNext l.head (-1)
  return { l with head := n, tail := if n < 0 then -1 else l.tail }

end NrList

end OaiNr.Mac
