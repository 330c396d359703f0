import OaiNr.Mac.NrList

/-!
# The map of the resource blocks of a slot

The schedulers keep, for each resource block, the set of symbols in which it is taken. They search it for free
resource blocks and control channel elements, and mark what they grant.
-/

namespace OaiNr.Mac

/-- `vrb_map`: 16 bits for each resource block, one for each symbol -/
abbrev VrbMap := Nat → Nat

def slToBitmap (startSymbolIndex nrOfSymbols : Nat) : Nat :=
  (2 ^ nrOfSymbols - 1) * 2 ^ startSymbolIndex % 2 ^ 16

namespace VrbMap

variable (map : VrbMap)

def isFree (mask rb : Nat) : Bool := map rb &&& mask == 0

def mark (mask : Nat) (rbs : Nat → Bool) : VrbMap :=
  fun rb => if rbs rb then map rb ||| mask else map rb

structure Block where
  start : Nat
  len : Nat
  deriving DecidableEq, Repr

def Block.longer (best cur : Block) : Block := if best.len < cur.len then cur else best

/-- One round of `find_largest_free_block`: the best block so far, and the one that goes on. -/
def blockStep (mask bwpStart : Nat) (s : Block × Block) (rb : Nat) : Block × Block :=
  if map.isFree mask (rb + bwpStart) then
    (s.1, if s.2.len = 0 then ⟨rb, 1⟩ else ⟨s.2.start, s.2.len + 1⟩)
  else (s.1.longer s.2, ⟨s.2.start, 0⟩)

def findLargestFreeBlock (mask bwpStart bwpSize : Nat) : Block :=
  let (best, cur) := (List.range bwpSize).foldl (map.blockStep mask bwpStart) (⟨0, 0⟩, ⟨0, 0⟩)
  best.longer cur

def blockEnd (map : VrbMap) (mask bwpStart : Nat) : (fuel rbEnd : Nat) → Nat
  | 0, rbEnd => rbEnd
  | fuel + 1, rbEnd =>
    if map.isFree mask (bwpStart + rbEnd) then map.blockEnd mask bwpStart fuel (rbEnd + 1) else rbEnd

def getRbAllocFrom (map : VrbMap) (mask rbSizeMin rbSizeMax bwpStart bwpSize : Nat) :
    (fuel rbStart : Nat) → Option Block
  | 0, _ => none
  | fuel + 1, rbStart =>
    if rbStart + rbSizeMin ≤ bwpSize then
      if map.isFree mask (bwpStart + rbStart) then
        let limit := min (rbStart + rbSizeMax) bwpSize
        let rbEnd := map.blockEnd mask bwpStart (limit - (rbStart + 1)) (rbStart + 1)
        if rbSizeMin ≤ rbEnd - rbStart then some ⟨rbStart, rbEnd - rbStart⟩
        else map.getRbAllocFrom mask rbSizeMin rbSizeMax bwpStart bwpSize fuel (rbEnd + 1)
      else map.getRbAllocFrom mask rbSizeMin rbSizeMax bwpStart bwpSize fuel (rbStart + 1)
    else none

/-- `get_rb_alloc`. Every round moves `rbStart`, which ends at the size of the BWP. -/
def getRbAlloc (mask rbSizeMin rbSizeMax bwpStart bwpSize : Nat) : Option Block :=
  map.getRbAllocFrom mask rbSizeMin rbSizeMax bwpStart bwpSize (bwpSize + 2) 0

end VrbMap

section FindNbRb

/-- `while (rb % p == 0) rb /= p`, which does not end for 0 -/
def divideOut (p : Nat) : (fuel rb : Nat) → Except Fault Nat
  | 0, _ => .error .endless
  | fuel + 1, rb => if rb % p = 0 then divideOut p fuel (rb / p) else .ok rb

def multipleOf235 (rb : Nat) : Except Fault Bool := do
  let rb ← divideOut 2 (rb + 1) rb
  let rb ← divideOut 3 (rb + 1) rb
  let rb ← divideOut 5 (rb + 1) rb
  return rb == 1

/-- With transform precoding, the next number of resource blocks that is allowed, in steps of `next` -/
def toAllowed (next : Nat → Nat) (transformPrecoding : Bool) : (fuel rb : Nat) → Except Fault Nat
  | 0, _ => .error .endless
  | fuel + 1, rb => do
    if transformPrecoding then
      if ← multipleOf235 rb then return rb else toAllowed next transformPrecoding fuel (next rb)
    else return rb

/-- The binary search of `nr_find_nb_rb`, with the bounds `lo` and `hi` -/
def searchNbRb (tbs : Nat → Nat) (transformPrecoding : Bool) (bytes : Nat) : (fuel lo hi : Nat) → Except Fault Nat
  | 0, _, _ => .error .endless
  | fuel + 1, lo, hi =>
    if lo + 1 < hi then do
      let p ← toAllowed (· + 1) transformPrecoding (hi + 1) ((hi + lo) / 2)
      if p = hi then return hi
      else if bytes = tbs p then return p
      else if bytes < tbs p then searchNbRb tbs transformPrecoding bytes fuel lo p
      else searchNbRb tbs transformPrecoding bytes fuel p hi
    else .ok hi

/-- `nr_find_nb_rb`: `nb_rb`. `tbs` is the size of a transport block, in bytes, by the number of
resource blocks. -/
def nrFindNbRb (tbs : Nat → Nat) (transformPrecoding : Bool) (bytes nbRbMin nbRbMax : Nat) : Except Fault Nat := do
  let nbRbMax ← toAllowed (· - 1) transformPrecoding (nbRbMax + 1) nbRbMax
  if tbs nbRbMax ≤ bytes then return nbRbMax
  else if bytes ≤ tbs nbRbMin then return nbRbMin
  else searchNbRb tbs transformPrecoding bytes (nbRbMax + 1) nbRbMin nbRbMax

structure NbRbResult where
  found : Bool
  tbs : Nat
  nbRb : Nat
  deriving DecidableEq, Repr

def nrFindNbRbTbs (tbs : Nat → Nat) (transformPrecoding : Bool) (bytes nbRbMin nbRbMax : Nat) :
    Except Fault NbRbResult := do
  let nbRbMax ← toAllowed (· - 1) transformPrecoding (nbRbMax + 1) nbRbMax
  if tbs nbRbMax < bytes then return ⟨false, tbs nbRbMax, nbRbMax⟩
  else if bytes = tbs nbRbMax then return ⟨true, tbs nbRbMax, nbRbMax⟩
  else if bytes ≤ tbs nbRbMin then return ⟨true, tbs nbRbMin, nbRbMin⟩
  else
    let hi ← searchNbRb tbs transformPrecoding bytes (nbRbMax + 1) nbRbMin nbRbMax
    return ⟨bytes ≤ tbs hi && hi ≤ nbRbMax, tbs hi, hi⟩

end FindNbRb

def nrNbRegPerCce : Nat := 6

/-- `NR_sched_pdcch_t` with the search space of the UE. `desiredLevel` is `pdcch_cl_adjust` in steps of
a quarter, `nrofCandidates` the candidates by the logarithm of the aggregation level, `y` the value of
`get_Y`. A CORESET lies in the BWP, and `verify_agg_levels` leaves no candidates of a level for which
it has too few CCEs. -/
structure Pdcch where
  coresetId : Nat
  bwpStart : Nat
  bwpSize : Nat
  nRb : Nat
  startSymbolIndex : Nat
  durationSymbols : Nat
  regBundleSize : Nat
  interleaverSize : Nat
  shiftIndex : Nat
  desiredLevel : Nat
  nrofCandidates : Nat → Nat
  y : Nat
  duration_pos : 0 < durationSymbols
  bundle_size : regBundleSize ∣ nrNbRegPerCce
  inBwp : nRb ≤ bwpSize
  enough : ∀ i, 0 < nrofCandidates i → 2 ^ i ≤ nRb * durationSymbols / nrNbRegPerCce

namespace Pdcch

variable (p : Pdcch)

def numRegs : Nat := p.nRb * p.durationSymbols

def numCces : Nat := p.numRegs / nrNbRegPerCce

def mask : Nat := slToBitmap p.startSymbolIndex p.durationSymbols

/-- `cce_to_reg_interleaving` with the values of this CORESET -/
def interleaving (k : Nat) : Nat :=
  if p.interleaverSize = 0 then k
  else
    let c := p.numRegs / (p.regBundleSize * p.interleaverSize)
    (k % p.interleaverSize * c + k / p.interleaverSize + p.shiftIndex) % (p.numRegs / p.regBundleSize)

def bundleRbs (k : Nat) : List Nat :=
  let size := p.regBundleSize / p.durationSymbols
  (List.range size).map fun rb => p.bwpStart + p.interleaving k * size + rb

def cceBundles (j : Nat) : List Nat :=
  List.range' (6 * j / p.regBundleSize) (6 / p.regBundleSize)

def dciRbs (firstCce aggregation : Nat) : List Nat :=
  (List.range' firstCce aggregation).flatMap fun j => (p.cceBundles j).flatMap p.bundleRbs

def candidateCce (aggregation nrOfCandidates m : Nat) : Nat :=
  aggregation * ((p.y + m * p.numCces / (aggregation * nrOfCandidates)) % (p.numCces / aggregation))

def findPdcchCandidate (map : VrbMap) (aggregation nrOfCandidates : Nat) : Option Nat :=
  ((List.range nrOfCandidates).map (p.candidateCce aggregation nrOfCandidates)).find? fun cce =>
    (p.dciRbs cce aggregation).all (map.isFree p.mask)

/-- `determine_aggregation_level_search_order` -/
def searchOrder : List Nat :=
  List.range' p.desiredLevel (5 - p.desiredLevel) ++ (List.range p.desiredLevel).reverse

/-- `get_cce_index`: the CCE and the aggregation level. Only the first level that has candidates is
searched. -/
def getCceIndex (map : VrbMap) : Option (Nat × Nat) := do
  let level ← p.searchOrder.find? fun i => 0 < p.nrofCandidates i
  let cce ← p.findPdcchCandidate map (2 ^ level) (p.nrofCandidates level)
  return (cce, 2 ^ level)

def fillPdcchVrbMap (map : VrbMap) (firstCce aggregation : Nat) : VrbMap :=
  map.mark p.mask fun rb => rb ∈ p.dciRbs firstCce aggregation

end Pdcch

end OaiNr.Mac
