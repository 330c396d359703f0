import Mathlib.Data.Nat.Bitwise

/-!
# RLC PDUs and their bit codec (`nr_rlc_pdu.c`)

A received PDU, the decoder that reads a header bit by bit, and the encoder that writes one. A buffer is the list of
its bytes.
-/

namespace OaiNr.Rlc

/-- A received PDU (`nr_rlc_pdu_t`). `data` is `none` once the SDU has been processed (`data == NULL`). -/
structure Pdu where
  sn : Int
  data : Option (List UInt8)
  size : Int
  so : Int
  isFirst : Bool
  isLast : Bool
  deriving Repr, DecidableEq, Inhabited

def nrRlcNewPdu (sn so : Int) (isFirst isLast : Bool) (data : List UInt8) : Pdu :=
  { sn, data := some data, size := data.length, so, isFirst, isLast }

/-! ## The decoder -/

structure Decoder where
  error : Bool
  byte : Nat
  bit : Nat
  buffer : List UInt8
  deriving Repr, DecidableEq

namespace Decoder

def init (buffer : List UInt8) : Decoder := { error := false, byte := 0, bit := 0, buffer }

def getBit (d : Decoder) : Nat × Decoder :=
  if d.buffer.length ≤ d.byte then (0, { d with error := true })
  else
    ((d.buffer.getD d.byte 0).toNat / 2 ^ (7 - d.bit) % 2,
      if d.bit + 1 = 8 then { d with bit := 0, byte := d.byte + 1 }
      else { d with bit := d.bit + 1 })

/-- The loop of `nr_rlc_pdu_decoder_get_bits`: `ret` holds the bits read so far. -/
def getBitsFrom : Nat → Int → Decoder → Int × Decoder
  | 0, ret, d => (ret, d)
  | count + 1, ret, d =>
    let b := d.getBit
    if b.2.error then (-1, b.2) else getBitsFrom count (2 * ret + b.1) b.2

def getBits (d : Decoder) (count : Nat) : Int × Decoder := getBitsFrom count 0 d

end Decoder

/-! ## The encoder -/

/-- The encoder state (`nr_rlc_pdu_encoder_t`). `full` records that `put_bit` ran past the buffer, where the code
exits. -/
structure Encoder where
  byte : Nat
  bit : Nat
  buffer : List UInt8
  full : Bool
  deriving Repr, DecidableEq

namespace Encoder

def init (buffer : List UInt8) : Encoder := { byte := 0, bit := 0, buffer, full := false }

def putBit (n : Encoder) (b : Bool) : Encoder :=
  if n.byte = n.buffer.length then { n with full := true }
  else
    let x := n.buffer.getD n.byte 0 <<< 1 ||| (if b then 1 else 0)
    if n.bit + 1 = 8 then { n with buffer := n.buffer.set n.byte x, bit := 0, byte := n.byte + 1 }
    else { n with buffer := n.buffer.set n.byte x, bit := n.bit + 1 }

/-- Writes (`nr_rlc_pdu_encoder_put_bits`) the low `count` bits of `value`, the highest first. -/
def putBits (n : Encoder) (value : Int) : Nat → Encoder
  | 0 => n
  | count + 1 => putBits (n.putBit (value.toNat.testBit count)) value count

end Encoder

end OaiNr.Rlc
