import OaiNr.Lib.Memory

/-!
# The sequence container of `seq_arr.c`

A growing array in one allocated piece of memory. Iterators are offsets from the start of that piece.
-/

namespace OaiNr.Ds

inductive Fault where
  | assert
  | outOfBounds
  | divisionByZero
  | noMemory
  | endless
  deriving DecidableEq, Repr

def minSize : Nat := 8

/-- `seq_arr_t`. The length of `data` is that of the allocated piece of memory. -/
structure SeqArr where
  data : List UInt8
  size : Nat
  eltSize : Nat
  cap : Nat
  deriving DecidableEq, Repr

/-- A `size_t` as a `float`, which has 24 bits and rounds to the nearest, or to the even one of two -/
def toFloat (n : Nat) : Nat :=
  let e := n.log2 - 23
  let q := n / 2 ^ e
  let r := n % 2 ^ e
  if 2 ^ e < 2 * r ∨ (2 * r = 2 ^ e ∧ q % 2 = 1) then (q + 1) * 2 ^ e else q * 2 ^ e

def checked (h : Option (List UInt8)) : Except Fault (List UInt8) :=
  match h with
  | some bytes => .ok bytes
  | none => .error .outOfBounds

@[simp] theorem checked_some (bytes : List UInt8) : checked (some bytes) = .ok bytes := rfl

variable (heap : Bool)

/-- `calloc`, with the check for overflow. `heap` is whether there is as much memory. -/
def calloc (n m : Nat) : Except Fault (List UInt8) :=
  if 2 ^ 64 ≤ n * m then .error .assert
  else if heap then .ok (List.replicate (n * m) 0)
  else .error .noMemory

/-- `realloc`, which gives nothing back for a size of 0 -/
def realloc (mem : List UInt8) (n : Nat) : Except Fault (List UInt8) :=
  if n = 0 then .error .assert
  else if heap then .ok (mem.take n ++ List.replicate (n - mem.length) 0)
  else .error .noMemory

def seqArrInit (eltSize : Nat) : Except Fault SeqArr := do
  let data ← calloc heap minSize eltSize
  return ⟨data, 0, eltSize, minSize⟩

variable (arr : SeqArr)

def maybeExpand : Except Fault SeqArr :=
  if (arr.size + 1) % 2 ^ 64 = arr.cap then do
    let data ← realloc heap arr.data (2 * arr.cap * arr.eltSize % 2 ^ 64)
    return { arr with data := data, cap := arr.cap * 2 % 2 ^ 64 }
  else .ok arr

/-- `maybe_shrink`. For two `float`, the quotient is less than a quarter if and only if four times the one is less
than the other. -/
def maybeShrink : Except Fault SeqArr :=
  if minSize < arr.size ∧ 4 * toFloat arr.size < toFloat arr.cap then
    if arr.cap ≤ minSize then .error .assert
    else do
      let cap := arr.cap / 2
      let data ← calloc heap cap cap
      if cap < arr.size then .error .assert
      else do
        let bytes ← checked (Memory.readAt arr.data 0 (arr.size * arr.eltSize % 2 ^ 64))
        let data ← checked (Memory.writeAt data 0 bytes)
        return ⟨data, arr.size, arr.eltSize, cap⟩
  else .ok arr

def seqArrEnd : Nat := arr.size * arr.eltSize % 2 ^ 64

def seqArrNext (it : Nat) : Nat := it + arr.eltSize

def seqArrAt (pos : UInt32) : Except Fault Nat :=
  if arr.size ≤ pos.toNat then .error .assert else .ok (pos.toNat * arr.eltSize % 2 ^ 64)

def seqArrPushBack (x : List UInt8) : Except Fault SeqArr :=
  if x.length ≠ arr.eltSize then .error .assert
  else do
    let arr ← maybeExpand heap arr
    let data ← checked (Memory.writeAt arr.data (arr.size * arr.eltSize % 2 ^ 64) x)
    return { arr with data := data, size := (arr.size + 1) % 2 ^ 64 }

def freeLoop (arr : SeqArr) (endIt : Nat) : (fuel it : Nat) → Except Fault (List (List UInt8))
  | 0, _ => .error .endless
  | fuel + 1, it =>
    if it = endIt then .ok []
    else do
      let x ← checked (Memory.readAt arr.data it arr.eltSize)
      let xs ← freeLoop arr endIt fuel (seqArrNext arr it)
      return x :: xs

def freed (startIt endIt : Nat) (freeFunc : Bool) : Except Fault (List (List UInt8)) :=
  if freeFunc then freeLoop arr endIt (arr.size + 1) startIt else .ok []

def clearErased (numBytesErase : Int) : Except Fault SeqArr :=
  if arr.eltSize = 0 then .error .divisionByZero
  else
    let numElmErase := (numBytesErase % 2 ^ 64 / arr.eltSize).bmod (2 ^ 32)
    if numElmErase ≤ 0 then .error .assert
    else do
      let arr := { arr with size := ((arr.size - numElmErase) % 2 ^ 64).toNat }
      let data ← checked (Memory.writeAt arr.data (seqArrEnd arr) (List.replicate (numBytesErase % 2 ^ 64).toNat 0))
      maybeShrink heap { arr with data := data }

/-- What `seq_arr_erase_it` does after `free_func`. The numbers of bytes are kept in an `int`. -/
def eraseRange (startIt endIt : Nat) : Except Fault SeqArr :=
  let numBytesMove := ((seqArrEnd arr : Int) - endIt).bmod (2 ^ 32)
  if numBytesMove < 0 then .error .assert
  else do
    let bytes ← checked (Memory.readAt arr.data endIt numBytesMove.toNat)
    let data ← checked (Memory.writeAt arr.data startIt bytes)
    clearErased heap { arr with data := data } (((endIt : Int) - startIt).bmod (2 ^ 32))

/-- `seq_arr_erase_it`, and the elements that it gives to `free_func` -/
def seqArrEraseIt (startIt endIt : Nat) (freeFunc : Bool) :
    Except Fault (SeqArr × List (List UInt8)) :=
  if endIt < startIt then .error .assert
  else if startIt = endIt then .ok (arr, [])
  else do
    let xs ← freed arr startIt endIt freeFunc
    let arr ← eraseRange heap arr startIt endIt
    return (arr, xs)

def SeqArr.elements : List (List UInt8) :=
  (List.range arr.size).map fun i => (arr.data.drop (i * arr.eltSize)).take arr.eltSize

section Runs

/-- A call, and whether there is memory if it has to allocate some -/
inductive Call where
  | pushBack (heap : Bool) (x : List UInt8)
  | erase (heap : Bool) (first last : Nat) (freeFunc : Bool)
  | at (pos : UInt32)
  deriving DecidableEq, Repr

def SeqArr.call : Call → Except Fault (SeqArr × List (List UInt8))
  | .pushBack heap x => do
    let arr ← seqArrPushBack heap arr x
    return (arr, [])
  | .erase heap first last freeFunc =>
    seqArrEraseIt heap arr (first * arr.eltSize) (last * arr.eltSize) freeFunc
  | .at pos => do
    let it ← seqArrAt arr pos
    let x ← checked (Memory.readAt arr.data it arr.eltSize)
    return (arr, [x])

def SeqArr.calls (arr : SeqArr) : List Call → Except Fault (SeqArr × List (List UInt8))
  | [] => .ok (arr, [])
  | c :: cs => do
    let r ← arr.call c
    let r' ← r.1.calls cs
    return (r'.1, r.2 ++ r'.2)

def seqArrRun (eltSize : Nat) (cs : List Call) : Except Fault (SeqArr × List (List UInt8)) := do
  let arr ← seqArrInit heap eltSize
  arr.calls cs

end Runs

section Specification

/-- A call on a list of at most `bound` elements, if the caller may make it -/
def Call.onList (eltSize bound : Nat) (xs : List (List UInt8)) :
    Call → Option (List (List UInt8) × List (List UInt8))
  | .pushBack _ x => if x.length = eltSize ∧ xs.length < bound then some (xs ++ [x], []) else none
  | .erase _ first last freeFunc =>
    if first ≤ last ∧ last ≤ xs.length then
      some (xs.take first ++ xs.drop last, if freeFunc then (xs.take last).drop first else [])
    else none
  | .at pos => xs[pos.toNat]?.map fun x => (xs, [x])

def callsOnList (eltSize bound : Nat) (xs : List (List UInt8)) :
    List Call → Option (List (List UInt8) × List (List UInt8))
  | [] => some (xs, [])
  | c :: cs => do
    let r ← c.onList eltSize bound xs
    let r' ← callsOnList eltSize bound r.1 cs
    return (r'.1, r.2 ++ r'.2)

/-- The array has the elements of a list, and room for its capacity. -/
structure SeqArr.Holds (arr : SeqArr) (xs : List (List UInt8)) : Prop where
  elements : arr.elements = xs
  size_le : arr.size ≤ arr.cap
  room : arr.cap * arr.eltSize ≤ arr.data.length

def Agrees (r : Except Fault (SeqArr × List (List UInt8))) (xs seen : List (List UInt8)) : Prop :=
  r = .error .noMemory ∨ ∃ arr, r = .ok (arr, seen) ∧ arr.Holds xs

end Specification

end OaiNr.Ds
