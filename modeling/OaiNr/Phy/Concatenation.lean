import OaiNr.Lib.WordArray

/-!
# The concatenation of the code blocks

The code blocks are encoded in groups of up to eight. A byte of the interleaver's output has one bit of each code
block of the group; `write_task_output` puts the bits of each code block together, a word at a time.
-/

namespace OaiNr.Phy

open WordArray

def nrGetE (g c qm nl r : Nat) : Nat :=
  if r ≤ c - g / (nl * qm) % c - 1 then nl * qm * (g / (nl * qm * c)) else nl * qm * (g / (nl * qm * c) + 1)

inductive Simd where
  | avx512
  | neon
  | avx2

def Simd.wordBits : Simd → Nat
  | avx512 => 64
  | neon => 16
  | avx2 => 32

structure TaskOutput where
  f : Nat → Nat
  e : Nat
  f2 : Nat → Nat
  e2 : Nat
  e2FirstSegment : Nat
  nbSegments : Nat
  eoffset : Nat

/-- `tmp`: bit `j` of `w` bytes, from byte `i` on -/
def segmentWord (w : Nat) (f : Nat → Nat) (i j : Nat) : Nat := Nat.ofBits fun k : Fin w => (f (i + k)).testBit j

/-- One round of a loop over the segments. The state has the output and `Eoffset2`; `base` is how far
`output_p` has moved. -/
def writeSegment (w : Nat) (f : Nat → Nat) (e i base : Nat) (active : Bool) (s : (Nat → Nat) × Nat) (j : Nat) :
    (Nat → Nat) × Nat :=
  (if active then orWord w s.1 (base + s.2 / w) (s.2 % w) (segmentWord w f i j) else s.1, s.2 + e)

def writeRound (w : Nat) (t : TaskOutput) (out : Nat → Nat) (base : Nat) : Nat → Nat :=
  let i := base * w
  let s := (List.range t.e2FirstSegment).foldl (writeSegment w t.f t.e i base (i < t.e)) (out, t.eoffset)
  ((List.range' t.e2FirstSegment (t.nbSegments - t.e2FirstSegment)).foldl
    (writeSegment w t.f2 t.e2 i base true) s).1

def writeTaskOutput (simd : Simd) (t : TaskOutput) (out : Nat → Nat) : Nat → Nat :=
  (List.range ((t.e2 + simd.wordBits - 1) / simd.wordBits)).foldl (writeRound simd.wordBits t) out

section Encoder

/-- What the interleaver leaves for a group of segments: bit `j` of byte `i` is bit `i` of segment `j`. The
bytes behind are zero. `interleaved` gives the bits of a segment, by the number of bits. -/
def groupBytes (interleaved : Nat → Nat → Nat → Bool) (e first nbSegments i : Nat) : Nat :=
  if i < e then Nat.ofBits fun j : Fin 8 => decide (j < nbSegments) && interleaved e (first + j) i else 0

def groupTask (interleaved : Nat → Nat → Nat → Bool) (segE : Nat → Nat) (first last : Nat) : TaskOutput :=
  let e := segE first
  let changed := (List.range' first (last - first)).find? fun s => segE s != e
  let e2 := (changed.map segE).getD e
  { f := groupBytes interleaved e first (last - first)
    e := e
    f2 := groupBytes interleaved e2 first (last - first)
    e2 := e2
    e2FirstSegment := (changed.map (· - first)).getD (last - first)
    nbSegments := last - first
    eoffset := ((List.range first).map segE).sum }

/-- The loop of `nrLDPC_coding_encoder` that writes the output, for groups of these sizes -/
def writeGroups (simd : Simd) (interleaved : Nat → Nat → Nat → Bool) (segE : Nat → Nat) :
    (sizes : List Nat) → (first : Nat) → (Nat → Nat) → Nat → Nat
  | [], _, out => out
  | n :: sizes, first, out =>
    writeGroups simd interleaved segE sizes (first + n)
      (writeTaskOutput simd (groupTask interleaved segE first (first + n)) out)

end Encoder

end OaiNr.Phy
