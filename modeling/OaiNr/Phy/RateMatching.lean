import OaiNr.Phy.Segmentation

/-!
# Rate matching of LDPC code blocks

The bits of a code block are taken from a circular buffer, from a place that depends on the redundancy
version. The filler bits are not sent. The receiver adds the soft bits to the same places.
-/

namespace OaiNr.Phy

inductive Fault where
  | outOfBounds
  | endless
  deriving DecidableEq, Repr

def indexK0 (bg rvidx : Nat) : Nat :=
  if bg = 1 then [0, 17, 33, 56].getD rvidx 0 else [0, 13, 25, 43].getD rvidx 0

structure RateParams where
  tbslbrm : Nat
  bg : Nat
  z : Nat
  c : Nat
  f : Nat
  foffset : Nat
  rvidx : Nat
  e : Nat

namespace RateParams

variable (p : RateParams)

def n : Nat := if p.bg = 1 then 66 * p.z else 50 * p.z

def ncb : Nat := if p.tbslbrm = 0 then p.n else min p.n (3 * p.tbslbrm % 2 ^ 32 / (2 * p.c))

/-- `ind` to begin with, `k0` of TS 38.212 -/
def k0 : Nat := indexK0 p.bg p.rvidx * p.ncb / p.n * p.z

def IsFiller (i : Nat) : Prop := p.foffset ≤ i ∧ i < p.foffset + p.f

end RateParams

def codedBits : Nat := 68 * 384

section Transmitter

variable {β : Type}

/-- What `memcpy` reads of the coded bits -/
def readBits (d : Nat → β) (start n : Nat) : Except Fault (List β) :=
  if start + n ≤ codedBits then .ok ((List.range' start n).map d) else .error .outOfBounds

/-- The loop of `nr_rate_matching_ldpc` for repetitions. Each round but the last moves `k`, which is the
number of bits so far. -/
def repeatBits (p : RateParams) (d : Nat → β) : (fuel : Nat) → List β → Except Fault (List β)
  | 0, _ => .error .endless
  | fuel + 1, out =>
    if out.length < p.e then do
      let before ← readBits d 0 (if 0 < p.foffset then min p.foffset (p.e - out.length) else 0)
      let out := out ++ before
      if 0 < p.foffset ∧ p.e ≤ out.length then return out
      else
        let after := p.ncb - p.foffset - p.f
        let behind ← readBits d (p.foffset + p.f) (if 0 < after then min after (p.e - out.length) else 0)
        repeatBits p d fuel (out ++ behind)
    else .ok out

/-- The bits up to the end of the buffer. `E + F` is a sum of 32-bit integers. -/
def firstBits (p : RateParams) (d : Nat → β) (ind : Nat) : Except Fault (List β) :=
  if ind < p.foffset then do
    let before ← readBits d ind (p.foffset - ind)
    let behind ← readBits d (p.foffset + p.f)
      (if (p.e + p.f) % 2 ^ 32 ≤ p.ncb - ind then p.e - p.foffset + ind else p.ncb - p.foffset - p.f)
    return before ++ behind
  else readBits d ind (if p.e ≤ p.ncb - ind then p.e else p.ncb - ind)

/-- `nr_rate_matching_ldpc`, with nothing for the return value -1 -/
def nrRateMatchingLdpc (p : RateParams) (d : Nat → β) : Except Fault (Option (List β)) :=
  if p.c = 0 ∨ p.e < p.foffset ∨ p.ncb < p.foffset then .ok none
  else do
    let ind := if p.foffset ≤ p.k0 ∧ p.k0 < p.f + p.foffset then p.f + p.foffset else p.k0
    let out ← firstBits p d ind
    let out ← repeatBits p d (p.e + 1) out
    return some out

end Transmitter

section Receiver

variable {β : Type} [Add β]

structure RxState (β : Type) where
  ind : Nat
  k : Nat
  d : Nat → β

/-- A loop `for (; (ind < stop) && (k < E); ind++) d[ind] += soft_input[k++]`, with `n` rounds up to the
stop -/
def addSoft (soft : Nat → β) (e : Nat) : (n : Nat) → RxState β → RxState β
  | 0, s => s
  | n + 1, s =>
    if s.k < e then addSoft soft e n ⟨s.ind + 1, s.k + 1, Function.update s.d s.ind (s.d s.ind + soft s.k)⟩
    else s

def addRepetitions (p : RateParams) (soft : Nat → β) : (fuel : Nat) → RxState β → Except Fault (RxState β)
  | 0, _ => .error .endless
  | fuel + 1, s =>
    if s.k < p.e then
      let s := addSoft soft p.e p.foffset { s with ind := 0 }
      let s := addSoft soft p.e (p.ncb - (p.foffset + p.f)) { s with ind := p.foffset + p.f }
      addRepetitions p soft fuel s
    else .ok s

/-- `nr_rate_matching_ldpc_rx`, with nothing for the return value -1 -/
def nrRateMatchingLdpcRx [Zero β] (p : RateParams) (clear : Bool) (soft d : Nat → β) :
    Except Fault (Option (Nat → β)) :=
  if p.c = 0 ∨ p.e < p.foffset ∨ p.ncb < p.foffset then .ok none
  else do
    let d := if clear then fun i => if i < p.ncb then 0 else d i else d
    let s := addSoft soft p.e (p.foffset - p.k0) ⟨p.k0, 0, d⟩
    let s := if p.foffset ≤ s.ind ∧ s.ind < p.foffset + p.f then { s with ind := p.foffset + p.f } else s
    let s := addSoft soft p.e (p.ncb - s.ind) s
    let s ← addRepetitions p soft (p.e + 1) s
    return some s.d

end Receiver

section Specification

/-- The bit selection of TS 38.212 5.4.2.1: `e` bits are still to be selected, and the next place is
`(k0 + j) mod ncb`. The list has the places that are selected. -/
inductive BitSelection (ncb k0 : Nat) (isFiller : Nat → Prop) : (e j : Nat) → List Nat → Prop where
  | done (j : Nat) : BitSelection ncb k0 isFiller 0 j []
  | skip {e j : Nat} {l : List Nat} : isFiller ((k0 + j) % ncb) → BitSelection ncb k0 isFiller (e + 1) (j + 1) l →
      BitSelection ncb k0 isFiller (e + 1) j l
  | take {e j : Nat} {l : List Nat} : ¬ isFiller ((k0 + j) % ncb) → BitSelection ncb k0 isFiller e (j + 1) l →
      BitSelection ncb k0 isFiller (e + 1) j ((k0 + j) % ncb :: l)

/-- Soft bits from `k` on are added at these places, one after the other. -/
def addAt {β : Type} [Add β] (soft : Nat → β) : (k : Nat) → List Nat → (Nat → β) → Nat → β
  | _, [], d => d
  | k, i :: places, d => addAt soft (k + 1) places (Function.update d i (d i + soft k))

end Specification

/-- A code block: a base graph, a lifting size and a redundancy version that exist, a size for the limited
buffer of which three times fits into 32 bits, and filler bits in the circular buffer. -/
structure RateMatching extends RateParams where
  bg_eq : bg = 1 ∨ bg = 2
  z_mem : z ∈ liftingSizes
  rvidx_lt : rvidx < 4
  c_pos : 0 < c
  tbslbrm_lt : 3 * tbslbrm < 2 ^ 32
  e_lt : e < 2 ^ 32
  foffset_le : foffset ≤ e
  filler_le : toRateParams.foffset + toRateParams.f ≤ toRateParams.ncb

end OaiNr.Phy
