import Mathlib.Data.List.Basic
import Mathlib.Tactic.Ring

/-!
# The segmentation of a transport block

`nr_segmentation` cuts a transport block with its CRC into code blocks, and chooses the lifting size of the
LDPC code.
-/

namespace OaiNr.Phy

/-- What `nr_segmentation` computes. `kprime` and `l` are its local variables. -/
structure Segmentation where
  c : Nat
  kprime : Nat
  l : Nat
  k : Nat
  zout : Nat
  f : Nat
  kb : Nat
  deriving DecidableEq, Repr

def roundToStep (step z : Nat) : Nat := if z / step * step < z then z / step * step + step else z / step * step

def liftingSize (z : Nat) : Option Nat :=
  if z ≤ 2 then some 2
  else if z ≤ 16 then some z
  else if z ≤ 32 then some (roundToStep 2 z)
  else if z ≤ 64 then some (roundToStep 4 z)
  else if z ≤ 128 then some (roundToStep 8 z)
  else if z ≤ 256 then some (roundToStep 16 z)
  else if z ≤ 384 then some (roundToStep 32 z)
  else none

/-- `Kcb` -/
def maxCodeBlock (bg : Nat) : Nat := if bg = 1 then 8448 else 3840

/-- `Kb` -/
def systematicColumns (bg b : Nat) : Nat :=
  if bg = 1 then 22
  else if 640 < b then 10
  else if 560 < b then 9
  else if 192 < b then 8
  else 6

/-- `C`, `L` and `Bprime` -/
def codeBlocks (b kcb : Nat) : Nat × Nat × Nat :=
  if b ≤ kcb then (1, 0, b)
  else
    let l := 24
    let c := if (kcb - l) * (b / (kcb - l)) < b then b / (kcb - l) + 1 else b / (kcb - l)
    (c, l, b + c * l)

/-- `nr_segmentation`, without the buffers. It returns -1 if there is no lifting size. -/
def nrSegmentation (b bg : Nat) : Option Segmentation := do
  let (c, l, bprime) := codeBlocks b (maxCodeBlock bg)
  let kprime := bprime / c
  let kb := systematicColumns bg b
  let z := if 0 < kprime % kb then kprime / kb + 1 else kprime / kb
  let zout ← liftingSize z
  let k := if bg = 1 then zout * 22 else zout * 10
  return ⟨c, kprime, l, k, zout, (k + 2 ^ 32 - kprime) % 2 ^ 32, kb⟩

/-- `get_BG`. The code rate is compared as a `float` with 0.6667 and 0.25: it is at most 0.6667 up to
`R` = 6827, and at most 0.25 up to 2560. -/
def getBG (a r : Nat) : Nat := if a ≤ 292 ∨ (a ≤ 3824 ∧ r ≤ 6827) ∨ r ≤ 2560 then 2 else 1

def liftingSizes : List Nat :=
  ([2, 3, 5, 7, 9, 11, 13, 15].flatMap fun a => (List.range 8).map fun j => a * 2 ^ j).filter (· ≤ 384)

end OaiNr.Phy
