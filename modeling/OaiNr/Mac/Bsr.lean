import Mathlib.Data.Nat.Bitwise
import OaiNr.Lib.Bisect
import OaiNr.Mac.MacPdu

/-!
# Buffer status reports

The UE tells how much data it has for each logical channel group, as a level of a table. The gNB takes the
level after that for its estimate, since the headers are not counted.
-/

namespace OaiNr.Mac

def nrShortBsrTable : List Nat :=
  [0, 10, 14, 20, 28, 38, 53, 74, 102, 142, 198, 276, 384, 535, 745, 1038, 1446, 2014, 2806, 3909, 5446, 7587,
    10570, 14726, 20516, 28581, 39818, 55474, 77284, 107669, 150000, 300000]

def nrLongBsrTable : List Nat :=
  [0, 10, 11, 12, 13, 14, 15, 16, 17, 18, 19, 20, 22, 23, 25, 26, 28, 30, 32, 34, 36, 38, 40, 43, 46, 49, 52, 55,
    59, 62, 66, 71, 75, 80, 85, 91, 97, 103, 110, 117, 124, 132, 141, 150, 160, 170, 181, 193, 205, 218, 233, 248,
    264, 281, 299, 318, 339, 361, 384, 409, 436, 464, 494, 526, 560, 597, 635, 677, 720, 767, 817, 870, 926, 987,
    1051, 1119, 1191, 1269, 1351, 1439, 1532, 1631, 1737, 1850, 1970, 2098, 2234, 2379, 2533, 2698, 2873, 3059,
    3258, 3469, 3694, 3934, 4189, 4461, 4751, 5059, 5387, 5737, 6109, 6506, 6928, 7378, 7857, 8367, 8910, 9488,
    10104, 10760, 11458, 12202, 12994, 13838, 14736, 15692, 16711, 17795, 18951, 20181, 21491, 22885, 24371,
    25953, 27638, 29431, 31342, 33376, 35543, 37850, 40307, 42923, 45709, 48676, 51836, 55200, 58784, 62599,
    66663, 70990, 75598, 80505, 85730, 91295, 97221, 103532, 110252, 117409, 125030, 133146, 141789, 150992,
    160793, 171231, 182345, 194182, 206786, 220209, 234503, 249725, 265935, 283197, 301579, 321155, 342002,
    364202, 387842, 413018, 439827, 468377, 498780, 531156, 565634, 602350, 641449, 683087, 727427, 774645,
    824928, 878475, 935498, 996222, 1060888, 1129752, 1203085, 1281179, 1364342, 1452903, 1547213, 1647644,
    1754595, 1868488, 1989774, 2118933, 2256475, 2402946, 2558924, 2725027, 2901912, 3090279, 3290873, 3504487,
    3731968, 3974215, 4232186, 4506902, 4799451, 5110989, 5442750, 5796046, 6172275, 6572925, 6999582, 7453933,
    7937777, 8453028, 9001725, 9586039, 10208280, 10870913, 11576557, 12328006, 13128233, 13980403, 14887889,
    15854280, 16883401, 17979324, 19146385, 20389201, 21712690, 23122088, 24622972, 26221280, 27923336, 29735875,
    31666069, 33721553, 35910462, 38241455, 40723756, 43367187, 46182206, 49179951, 52372284, 55771835, 59392055,
    63247269, 67352729, 71724679, 76380419, 81338368, 162676736, 4294967295]

def getBsrValue (table : List Nat) (idx : Nat) : Except Fault Nat :=
  if idx < table.length then .ok (table.getD idx 0) else .error .assertFatal

section Gnb

def overestimBsrIndex (realIndex : Nat) : Nat := if 0 < realIndex then realIndex + 1 else realIndex

def estimateUlBufferShortBsr (bsr : UInt8) : Except Fault Int := do
  let value ← getBsrValue nrShortBsrTable (min (overestimBsrIndex (bsr.toNat % 32)) (nrShortBsrTable.length - 1))
  return (value : Int).bmod (2 ^ 32)

def estimateLongBsrLoop (bsr : Nat → UInt8) : List Nat → (m : Nat) → (estimSize : Int) → Except Fault Int
  | [], _, estimSize => .ok estimSize
  | n :: ns, m, estimSize =>
    if (bsr 0).toNat.testBit n then do
      let value ← getBsrValue nrLongBsrTable
        (min (overestimBsrIndex (bsr (m + 1)).toNat) (nrLongBsrTable.length - 1))
      estimateLongBsrLoop bsr ns (m + 1) ((estimSize + value).bmod (2 ^ 32))
    else estimateLongBsrLoop bsr ns m estimSize

def estimateUlBufferLongBsr (bsr : Nat → UInt8) : Except Fault Int :=
  estimateLongBsrLoop bsr (List.range 8) 0 0

end Gnb

section Ue

/-- `nr_locate_BsrIndexByBufferSize`. The value is compared as an unsigned integer. -/
def nrLocateBsrIndexByBufferSize (table : List Nat) (value : Nat) : Nat :=
  if value = 0 then 0
  else
    let ascend := decide (table.getD 0 0 ≤ table.getD (table.length - 1) 0)
    let jl := bisect (fun jm => decide (table.getD jm 0 ≤ value) == ascend) 0 (table.length - 1)
    if value = table.getD jl 0 then jl else jl + 1

inductive UeBsr where
  | none
  | short (truncated : Bool) (lcgId bufferSize : Nat)
  | long (truncated : Bool) (lcgBsr : Nat → Nat)

/-- The report that `nr_ue_get_sdu_mac_ce_post` chooses for the padding that is there -/
def chooseBsr (lcgBytes : Nat → Nat) (lcgIdBsrMax paddingLen : Nat) : UeBsr :=
  let numLcgIdWithData := (List.range 8).countP fun lcgId => 0 < lcgBytes lcgId
  let shortBsrSz := 2
  let longBsrSz := numLcgIdWithData + 3
  let level := nrLocateBsrIndexByBufferSize nrShortBsrTable (lcgBytes lcgIdBsrMax)
  let levels lcgId := nrLocateBsrIndexByBufferSize nrLongBsrTable (lcgBytes lcgId)
  if numLcgIdWithData < 2 ∧ shortBsrSz ≤ paddingLen then .short false lcgIdBsrMax level
  else if longBsrSz ≤ paddingLen then .long false levels
  else if paddingLen = shortBsrSz then .short true lcgIdBsrMax level
  else if 3 ≤ paddingLen then .long true levels
  else .none

/-- The groups and levels that `nr_write_ce_ulsch_pdu` writes, as far as there is room -/
def writeLcgs (lcgBsr : Nat → Nat) : List Nat → (room : Nat) → List (Nat × Nat)
  | [], _ => []
  | n :: ns, room =>
    if lcgBsr n ≠ 0 ∧ 0 < room then (n, lcgBsr n) :: writeLcgs lcgBsr ns (room - 1)
    else writeLcgs lcgBsr ns room

def longBsrOctets (lcgs : List (Nat × Nat)) : List UInt8 :=
  UInt8.ofNat (Nat.ofBits fun n : Fin 8 => (lcgs.map Prod.fst).contains n.val) ::
    lcgs.map fun lcg => UInt8.ofNat lcg.2

/-- The control element that `nr_write_ce_ulsch_pdu` writes for a report into this much padding -/
def UeBsr.ce (paddingLen : Nat) : UeBsr → List UInt8
  | .none => []
  | .short _ lcgId bufferSize => [octet [(5, bufferSize), (3, lcgId)]]
  | .long _ lcgBsr => longBsrOctets (writeLcgs lcgBsr (List.range 8) (paddingLen - 3))

end Ue

section Specification

def lowerEdge (table : List Nat) (level : Nat) : Nat := if level = 0 then 0 else table.getD (level - 1) 0

/-- A report as in TS 38.321 6.1.3.1: one group with its level, or a level for each group that has data -/
inductive BsrReport where
  | short (lcgId : Fin 8) (level : Fin 32)
  | long (level : Nat → Option UInt8)

def reported (level : Nat → Option UInt8) : List UInt8 := (List.range 8).filterMap level

namespace BsrReport

def ce : BsrReport → List UInt8
  | .short lcgId level => [octet [(5, level), (3, lcgId)]]
  | .long level => UInt8.ofNat (Nat.ofBits fun n : Fin 8 => (level n).isSome) :: reported level

def estimate : BsrReport → Except Fault Int
  | r@(.short _ _) => estimateUlBufferShortBsr (r.ce.getD 0 0)
  | r@(.long _) => estimateUlBufferLongBsr (r.ce.getD · 0)

def lowerEdges : BsrReport → Nat
  | .short _ level => lowerEdge nrShortBsrTable level
  | .long level => ((reported level).map fun l => lowerEdge nrLongBsrTable l.toNat).sum

def NotUnderestimated (r : BsrReport) : Prop :=
  ∃ estimate, r.estimate = .ok estimate ∧ 0 ≤ estimate ∧ r.lowerEdges ≤ estimate

def lack (level : Nat) : Nat := if 254 ≤ level then lowerEdge nrLongBsrTable level + 1 else 0

def excess (level : Nat) : Nat :=
  if level < 254 then nrLongBsrTable.getD (overestimBsrIndex level) 0 - lowerEdge nrLongBsrTable level else 0

def Covered : BsrReport → Prop
  | .short _ _ => True
  | .long level => ((reported level).map fun l => lack l.toNat).sum ≤ ((reported level).map fun l => excess l.toNat).sum

end BsrReport

/-- The data of the UE by groups. Each logical channel has a group: for one without (`NR_INVALID_LCGID`), `LCG_bytes`
would be read behind its end. -/
structure UeStatus where
  lcgBytes : Nat → Nat
  lcgIdBsrMax : Fin 8
  paddingLen : Nat
  lcgBytes_lt : ∀ lcgId, lcgBytes lcgId < 2 ^ 32

namespace UeStatus

variable (s : UeStatus)

def bsr : UeBsr := chooseBsr s.lcgBytes s.lcgIdBsrMax s.paddingLen

/-- What the gNB makes of the octets that the UE writes. The last finite level is 150000 bytes for a short
report and 81338368 bytes for a long one. -/
def NotUnderestimated : Prop :=
  match s.bsr with
  | .short false lcgId level =>
    ∃ estimate, estimateUlBufferShortBsr ((s.bsr.ce s.paddingLen).getD 0 0) = .ok estimate ∧ 0 ≤ estimate ∧
      lowerEdge nrShortBsrTable level ≤ estimate ∧ (s.lcgBytes lcgId ≤ 150000 → s.lcgBytes lcgId ≤ estimate)
  | .long false levels =>
    ∃ estimate, estimateUlBufferLongBsr ((s.bsr.ce s.paddingLen).getD · 0) = .ok estimate ∧ 0 ≤ estimate ∧
      ((List.range 8).map fun n => lowerEdge nrLongBsrTable (levels n)).sum ≤ estimate ∧
      ((∀ n < 8, s.lcgBytes n ≤ 81338368) → ((List.range 8).map s.lcgBytes).sum ≤ estimate)
  | _ => True

def Covered : Prop :=
  match s.bsr with
  | .long false levels => ((List.range 8).map fun n => BsrReport.lack (levels n)).sum ≤
      ((List.range 8).map fun n => BsrReport.excess (levels n)).sum
  | _ => True

end UeStatus

end Specification

end OaiNr.Mac
