import OaiNr.Mac.NrList

/-!
# Resource blocks of a bandwidth part

A contiguous allocation is signalled as one number, the resource indication value. An allocation of type 0 is a bitmap
of 32-bit words, whose blocks of consecutive resource blocks the physical layer takes one after the other.
-/

namespace OaiNr.Mac

/-- `PRBalloc_to_locationandbandwidth0`. The sizes are at most 275, so that no product overflows an `int`. -/
def prbAllocToLocationAndBandwidth0 (nprb rbStart bwpSize : Int) : Except Fault Int :=
  if nprb > 0 ∧ nprb + rbStart ≤ bwpSize then
    if nprb ≤ 1 + bwpSize / 2 then .ok (bwpSize * (nprb - 1) + rbStart)
    else .ok (bwpSize * (bwpSize + 1 - nprb) + (bwpSize - 1 - rbStart))
  else .error .assertFatal

def nrriv2bw (locationAndBandwidth nRb : Int) : Int :=
  let tmp := locationAndBandwidth.tdiv nRb
  let tmp2 := locationAndBandwidth.tmod nRb
  if tmp ≤ nRb / 2 + 1 ∧ tmp + tmp2 < nRb then tmp + 1 else nRb + 1 - tmp

def nrriv2prbOffset (locationAndBandwidth nRb : Int) : Int :=
  let tmp := locationAndBandwidth.tdiv nRb
  let tmp2 := locationAndBandwidth.tmod nRb
  if tmp ≤ nRb / 2 + 1 ∧ tmp + tmp2 < nRb then tmp2 else nRb - 1 - tmp2

def bitMask (fromBit numBits : Nat) : BitVec 32 :=
  let total := fromBit + numBits
  let rightMask := if total < 32 then 0xFFFFFFFF#32 >>> (32 - total) else 0xFFFFFFFF#32
  0xFFFFFFFF#32 <<< fromBit &&& rightMask

def firstBitLoop (arr : List (BitVec 32)) (sz i fromBit numBits : Nat) : Except Fault (Option Nat) :=
  if i < sz ∧ 0 < numBits then
    match arr[i]? with
    | none => .error .outOfBounds
    | some word =>
      let a := word &&& bitMask fromBit numBits
      if a ≠ 0 then .ok (some (i * 32 + a.ctz.toNat))
      else firstBitLoop arr sz (i + 1) 0 (numBits - (32 - fromBit))
  else .ok none
termination_by sz - i

/-- `get_first_bit_index_mask`, with `none` for -1 -/
def getFirstBitIndexMask (arr : List (BitVec 32)) (sz fromBit numBits : Nat) : Except Fault (Option Nat) :=
  firstBitLoop arr sz (fromBit / 32) (fromBit % 32) numBits

/-- The array `inv` of `find_next_rb_block`: `n` words from `wordIdx` on. -/
def invertedWords (bitmap : List (BitVec 32)) (size wordIdx n : Nat) : Except Fault (List (BitVec 32)) :=
  if wordIdx + n ≤ bitmap.length then
    let inv := ((bitmap.drop wordIdx).take n).map (~~~ ·)
    .ok (if size % 32 ≠ 0 then inv.modify (n - 1) (· &&& (1#32 <<< (size % 32) - 1)) else inv)
  else .error .outOfBounds

/-- `find_next_rb_block`: the start, the end and the new position, if there is a block. -/
def findNextRbBlock (bitmap : List (BitVec 32)) (size pos : Nat) : Except Fault (Option (Nat × Nat × Nat)) := do
  let words := (size + 31) / 32
  match ← getFirstBitIndexMask bitmap words pos (size - pos) with
  | none => .ok none
  | some start =>
    let idx := start + 1
    let wordIdx := idx / 32
    let n := words - wordIdx
    let inv ← invertedWords bitmap size wordIdx n
    let idx := match ← getFirstBitIndexMask inv n (idx - wordIdx * 32) (size - idx) with
      | none => size
      | some endOff => wordIdx * 32 + endOff
    .ok (some (start, if idx > size then size - 1 else idx - 1, idx))

/-- The loop of the callers: `find_next_rb_block` until there is no other block. -/
def rbBlocks (bitmap : List (BitVec 32)) (size : Nat) : (fuel pos : Nat) → Except Fault (List (Nat × Nat))
  | 0, _ => .error .endless
  | fuel + 1, pos => do
    match ← findNextRbBlock bitmap size pos with
    | none => .ok []
    | some (start, last, pos) => .ok ((start, last) :: (← rbBlocks bitmap size fuel pos))

end OaiNr.Mac
