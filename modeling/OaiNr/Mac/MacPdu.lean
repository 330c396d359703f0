import OaiNr.Mac.NrList

/-!
# MAC subPDUs

A MAC PDU is a sequence of subPDUs. Each has a subheader of one, two or three octets: with no length,
with a length of one octet, or with a length of two octets.
-/

namespace OaiNr.Mac

/-- The bit fields of a packed structure, each a width and a value, from the least significant on. -/
def bitFields : List (Nat × Nat) → Nat
  | [] => 0
  | (w, v) :: fs => v % 2 ^ w + 2 ^ w * bitFields fs

def octet (fs : List (Nat × Nat)) : UInt8 := UInt8.ofNat (bitFields fs)

def lcidOf (b : UInt8) : Nat := b.toNat % 64

/-- `F` of a subheader: the length has 16 bits. -/
def longOf (b : UInt8) : Bool := b.toNat / 64 % 2 == 1

structure SubPdu where
  lcid : Nat
  octets : List UInt8
  deriving DecidableEq, Repr

namespace SubPdu

/-- `NR_MAC_SUBHEADER_FIXED`, then the control element -/
def fixed (lcid : Nat) (ce : List UInt8) : SubPdu := ⟨lcid, octet [(6, lcid), (2, 0)] :: ce⟩

/-- `NR_MAC_SUBHEADER_SHORT` -/
def short (lcid : Nat) (ce : List UInt8) : SubPdu :=
  ⟨lcid, octet [(6, lcid), (1, 0), (1, 0)] :: UInt8.ofNat ce.length :: ce⟩

/-- `NR_MAC_SUBHEADER_LONG`: `L` is in network order, and its 16 bits hold only so much. -/
def long (lcid : Nat) (sdu : List UInt8) : SubPdu :=
  ⟨lcid, octet [(6, lcid), (1, 1), (1, 0)] :: UInt8.ofNat (sdu.length / 256) :: UInt8.ofNat sdu.length :: sdu⟩

end SubPdu

structure MacLen where
  valid : Bool
  subheader : Nat
  len : Nat
  deriving DecidableEq, Repr

/-- `get_mac_len`, for a caller that set the length to 0 and the subheader's to 1 -/
def getMacLen : List UInt8 → MacLen
  | b :: l :: rest =>
    if longOf b then
      match rest with
      | [] => ⟨false, 1, 0⟩
      | l' :: rest =>
        let len := l.toNat * 256 + l'.toNat
        ⟨len ≤ rest.length + 3, 3, len⟩
    else ⟨l.toNat ≤ rest.length + 2, 2, l.toNat⟩
  | _ => ⟨false, 1, 0⟩

end OaiNr.Mac
