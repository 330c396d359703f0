/-!
# PDCP SDUs and the reordering list (`nr_pdcp_sdu.c`)

COUNT is an unsigned 32-bit number in the code; here it is a natural number and every addition is
taken modulo `2 ^ 32`.
-/

namespace OaiNr.Pdcp

def u32 (x : Nat) : Nat := x % 4294967296

/-- What RRC needs to check the integrity of a message later (`nr_pdcp_integrity_data_t`). -/
structure IntegrityData where
  count : Nat := 0
  mac : List UInt8 := [0, 0, 0, 0]
  headerSize : Nat := 0
  header : List UInt8 := [0, 0, 0]
  deriving Repr, DecidableEq

/-- A received SDU (`nr_pdcp_sdu_t`); its `size` is the length of the buffer. -/
structure PdcpSdu where
  count : Nat
  buffer : List UInt8
  msgIntegrity : IntegrityData
  deriving Repr, DecidableEq

/-- The list is ordered by COUNT (`nr_pdcp_sdu_list_add`). -/
def sduListAdd (sdu : PdcpSdu) : List PdcpSdu → List PdcpSdu
  | [] => [sdu]
  | cur :: l => if sdu.count < cur.count then sdu :: cur :: l else cur :: sduListAdd sdu l

def SduInList (l : List PdcpSdu) (count : Nat) : Prop := ∃ x ∈ l, x.count = count

instance (l : List PdcpSdu) (count : Nat) : Decidable (SduInList l count) :=
  inferInstanceAs (Decidable (∃ x ∈ l, _))

/-- The loop that delivers the SDUs from `count` up to a discontinuity or the end of the list: the
SDUs it delivers, those that are left, and the COUNT it stops at. -/
def takeRun : Nat → List PdcpSdu → List PdcpSdu × List PdcpSdu × Nat
  | count, [] => ([], [], count)
  | count, cur :: l =>
    if count = cur.count then
      let r := takeRun (u32 (count + 1)) l
      (cur :: r.1, r.2.1, r.2.2)
    else ([], cur :: l, count)

def takeBelow (limit : Nat) : List PdcpSdu → List PdcpSdu × List PdcpSdu
  | [] => ([], [])
  | cur :: l =>
    if cur.count < limit then
      let r := takeBelow limit l
      (cur :: r.1, r.2)
    else ([], cur :: l)

end OaiNr.Pdcp
