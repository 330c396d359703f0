import Mathlib.Tactic.Ring

/-!
# RLC SDUs and their segments (`nr_rlc_sdu.c`)

The segments of an SDU are nodes of linked lists and share one `nr_rlc_sdu_t`. A segment carries the address of its
node; the heap keeps the SDUs and the nodes given back to `free`.
-/

namespace OaiNr.Rlc

structure Sdu where
  sn : Int
  upperLayerId : Int
  data : List UInt8
  size : Int
  retxCount : Int
  refCount : Int
  freeCount : Int
  deriving Repr, DecidableEq, Inhabited

/-- A segment of an SDU (`nr_rlc_sdu_segment_t`): `addr` is the address of the node, `sdu` that of its SDU. -/
structure Segment where
  addr : Nat
  sdu : Nat
  size : Int
  so : Int
  isFirst : Bool
  isLast : Bool
  deriving Repr, DecidableEq, Inhabited

/-- What `malloc` and `free` have done: SDUs by address, the next free addresses, and the
segments that were freed. The record of a freed SDU stays readable here; no modelled function
reads it. -/
structure Heap where
  sdus : Nat → Sdu
  sduCount : Nat
  segCount : Nat
  freed : List Segment

namespace Heap

def empty : Heap :=
  { sdus := fun _ => ⟨-1, 0, [], 0, 0, 0, 0⟩, sduCount := 0, segCount := 0, freed := [] }

def updateSdu (h : Heap) (a : Nat) (f : Sdu → Sdu) : Heap :=
  { h with sdus := Function.update h.sdus a (f (h.sdus a)) }

def nrRlcNewSdu (h : Heap) (buffer : List UInt8) (upperLayerId : Int) : Segment × Heap :=
  ({ addr := h.segCount, sdu := h.sduCount, size := buffer.length, so := 0,
     isFirst := true, isLast := true },
   { h with
     sdus := Function.update h.sdus h.sduCount
       { sn := -1, upperLayerId, data := buffer, size := buffer.length, retxCount := -1,
         refCount := 1, freeCount := 0 }
     sduCount := h.sduCount + 1
     segCount := h.segCount + 1 })

/-- Frees one segment (`nr_rlc_free_sdu_segment`): the result says whether the SDU was freed too. -/
def nrRlcFreeSduSegment (h : Heap) (x : Segment) : Bool × Heap :=
  let h' := h.updateSdu x.sdu fun s => { s with freeCount := s.freeCount + 1 }
  (decide ((h'.sdus x.sdu).freeCount = (h'.sdus x.sdu).refCount),
    { h' with freed := x :: h'.freed })

def nrRlcFreeSduSegmentList (h : Heap) : List Segment → Heap
  | [] => h
  | x :: l => nrRlcFreeSduSegmentList (h.nrRlcFreeSduSegment x).2 l

end Heap

/-- The assignment `last->next = x`, seen from one list: the list is cut behind `last` and `x` put there. -/
def linkAfter (last x : Segment) : List Segment → List Segment
  | [] => []
  | y :: l => if y.addr = last.addr then [y, x] else y :: linkAfter last x l

end OaiNr.Rlc
