import Mathlib.Data.Rat.Floor
import Mathlib.Data.Int.Log

/-!
# The size of a transport block

`nr_compute_tbs` computes with 32-bit integers. TS 38.214 5.1.3.2 gives the size by a formula over
rational numbers.
-/

namespace OaiNr.Mac

def tbsTable : List Nat :=
  [24, 32, 40, 48, 56, 64, 72, 80, 88, 96, 104, 112, 120, 128, 136, 144, 152, 160, 168,
    176, 184, 192, 208, 224, 240, 256, 272, 288, 304, 320, 336, 352, 368, 384, 408, 432, 456, 480,
    504, 528, 552, 576, 608, 640, 672, 704, 736, 768, 808, 848, 888, 928, 984, 1032, 1064, 1128, 1160,
    1192, 1224, 1256, 1288, 1320, 1352, 1416, 1480, 1544, 1608, 1672, 1736, 1800, 1864, 1928, 2024, 2088, 2152, 2216,
    2280, 2408, 2472, 2536, 2600, 2664, 2728, 2792, 2856, 2976, 3104, 3240, 3368, 3496, 3624, 3752, 3824]

def nrMaxPdschTbs : Nat := 3824

def ceilIDiv (a b : Nat) : Nat := (a + b - 1) / b

def roundIDiv (a b : Nat) : Nat := (2 * a + b) / (2 * b)

/-- The arguments of `nr_compute_tbs`. `r` is the code rate times 10240. -/
structure TbsParams where
  qm : Nat
  r : Nat
  nbRb : Nat
  nbSymbSch : Nat
  nbDmrsPrb : Nat
  nbRbOh : Nat
  tbScaling : Nat
  nl : Nat
  deriving DecidableEq, Repr

namespace TbsParams

variable (p : TbsParams)

/-- `nb_re`. The difference is of type `int`, and is made unsigned. -/
def nbRe : Nat :=
  min 156 (((12 * p.nbSymbSch - p.nbDmrsPrb - p.nbRbOh : Int) % 2 ^ 32).toNat) * p.nbRb % 2 ^ 32

/-- `Ninfo`. The products are of type `uint32_t`. -/
def ninfo : Nat :=
  p.nbRe * (p.r / 5) % 2 ^ 32 * p.qm % 2 ^ 32 * p.nl % 2 ^ 32 / 2 ^ 11 / 2 ^ p.tbScaling

end TbsParams

def tbsFromTable (npInfo : Nat) : Nat := (tbsTable.find? fun size => npInfo ≤ size).getD 0

def tbsOfBlocks (npInfo c : Nat) : Nat := 8 * c * ceilIDiv (npInfo + 24) (8 * c) - 24

/-- The part of `nr_compute_tbs` for a large block, from `Np_info` on -/
def tbsOfNpInfo (r npInfo : Nat) : Nat :=
  if r ≤ 2560 then tbsOfBlocks npInfo (ceilIDiv (npInfo + 24) 3816)
  else if 8424 < npInfo then tbsOfBlocks npInfo (ceilIDiv (npInfo + 24) 8424)
  else 8 * ceilIDiv (npInfo + 24) 8 - 24

def npInfoSmall (ninfo : Nat) : Nat :=
  let n := max 3 (Nat.log 2 ninfo - 6)
  max 24 (ninfo / 2 ^ n * 2 ^ n)

def npInfoLarge (ninfo : Nat) : Nat :=
  let n := Nat.log 2 (ninfo - 24) - 5
  max 3840 (roundIDiv (ninfo - 24) (2 ^ n) * 2 ^ n)

/-- The part of `nr_compute_tbs` from `Ninfo` on. The logarithms are taken of a `double`, and cut to
integers. -/
def tbsOfNinfo (r ninfo : Nat) : Nat :=
  if ninfo ≤ nrMaxPdschTbs then tbsFromTable (npInfoSmall ninfo) else tbsOfNpInfo r (npInfoLarge ninfo)

def nrComputeTbs (p : TbsParams) : Nat :=
  if p.qm = 0 ∨ p.r = 0 ∨ p.nbRb = 0 ∨ p.nl = 0 then 0 else tbsOfNinfo p.r p.ninfo

/-- What is scheduled: there are resource elements in a resource block, the code rate is one of the tables,
and there are one to four layers. The number of symbols is of type `uint16_t`; a shift by 32 or more would
not be defined. -/
structure TbsGrant extends TbsParams where
  qm_pos : 0 < qm
  r_pos : 0 < r
  r_table : 5 ∣ r
  nbRb_pos : 0 < nbRb
  symb_lt : nbSymbSch < 2 ^ 16
  re_pos : nbDmrsPrb + nbRbOh < 12 * nbSymbSch
  nl_pos : 0 < nl
  nl_le : nl ≤ 4
  scaling_lt : tbScaling < 32

section Specification

def specNre (g : TbsGrant) : Nat := min 156 (12 * g.nbSymbSch - g.nbDmrsPrb - g.nbRbOh) * g.nbRb

def specNinfo (g : TbsGrant) : ℚ := specNre g * (g.r / 10240) * g.qm * g.nl / 2 ^ g.tbScaling

def specTbsSmall (ninfo : ℚ) : Nat :=
  let n := (max 3 (Int.log 2 ninfo - 6)).toNat
  tbsFromTable (max 24 (2 ^ n * ⌊ninfo / 2 ^ n⌋₊))

def specTbsLarge (rate ninfo : ℚ) : Nat :=
  let n := (Int.log 2 (ninfo - 24) - 5).toNat
  let np : ℚ := max 3840 (2 ^ n * ⌊(ninfo - 24) / 2 ^ n + 1 / 2⌋₊)
  if rate ≤ 1 / 4 then
    let c := ⌈(np + 24) / 3816⌉₊
    8 * c * ⌈(np + 24) / (8 * c)⌉₊ - 24
  else if 8424 < np then
    let c := ⌈(np + 24) / 8424⌉₊
    8 * c * ⌈(np + 24) / (8 * c)⌉₊ - 24
  else 8 * ⌈(np + 24) / 8⌉₊ - 24

def specTbs (g : TbsGrant) : Nat :=
  if specNinfo g ≤ 3824 then specTbsSmall (specNinfo g) else specTbsLarge (g.r / 10240) (specNinfo g)

end Specification

end OaiNr.Mac
