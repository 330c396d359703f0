import Mathlib.Tactic.Ring
import OaiNr.Lib.Trace

/-!
# The token buckets of the UE's logical channels

A channel is served while its `Bj` is positive. An SDU takes its length from `Bj`, and every uplink slot adds the
prioritised bit rate for the time since the last update, up to the size of the bucket.
-/

namespace OaiNr.Mac

inductive PrioritisedBitRate where
  | kBps0 | kBps8 | kBps16 | kBps32 | kBps64 | kBps128 | kBps256 | kBps512 | kBps1024 | kBps2048 | kBps4096
  | kBps8192 | kBps16384 | kBps32768 | kBps65536 | infinity
  deriving DecidableEq, Repr

inductive BucketSizeDuration where
  | ms5 | ms10 | ms20 | ms50 | ms100 | ms150 | ms300 | ms500 | ms1000
  deriving DecidableEq, Repr

def nrGetMsBucketsizeduration : BucketSizeDuration → Nat
  | .ms5 => 5
  | .ms10 => 10
  | .ms20 => 20
  | .ms50 => 50
  | .ms100 => 100
  | .ms150 => 150
  | .ms300 => 300
  | .ms500 => 500
  | .ms1000 => 1000

def PrioritisedBitRate.pbr : PrioritisedBitRate → Nat
  | .kBps0 => 0
  | .kBps8 => 8
  | .kBps16 => 16
  | .kBps32 => 32
  | .kBps64 => 64
  | .kBps128 => 128
  | .kBps256 => 256
  | .kBps512 => 512
  | .kBps1024 => 1024
  | .kBps2048 => 2048
  | .kBps4096 => 4096
  | .kBps8192 => 8192
  | .kBps16384 => 16384
  | .kBps32768 => 32768
  | .kBps65536 => 65536
  | .infinity => 2 ^ 32 - 1

def nrGetPbr (prioritisedBitRate : PrioritisedBitRate) : Nat :=
  if prioritisedBitRate ≠ .infinity then prioritisedBitRate.pbr * 1000 % 2 ^ 32 else prioritisedBitRate.pbr

def getLcBucketSize (prioritisedBitRate : PrioritisedBitRate) (bucketSizeDuration : BucketSizeDuration) : Nat :=
  let bsd := if prioritisedBitRate = .infinity then 1 else nrGetMsBucketsizeduration bucketSizeDuration
  nrGetPbr prioritisedBitRate * bsd % 2 ^ 32

/-- The macro `min` of a signed and an unsigned integer of 32 bits. The signed one is converted. -/
def cmin (a : Int) (b : Nat) : Nat :=
  if (a % 2 ^ 32).toNat < b then (a % 2 ^ 32).toNat else b

/-- The configuration of a channel, with the subcarrier spacing of the uplink bandwidth part -/
structure BucketConfig where
  prioritisedBitRate : PrioritisedBitRate
  bucketSizeDuration : BucketSizeDuration
  scs : Nat

/-- `Bj`, and the number of slots since the last update. `Bj_timer` counts them modulo `2 ^ 32`. -/
structure Bucket where
  bj : Int
  elapsed : Nat
  deriving DecidableEq

inductive BucketEvent where
  | slot
  | serve (sduLength : Fin (2 ^ 16))
  | update
  deriving DecidableEq

namespace BucketConfig

variable (c : BucketConfig)

variable (s : Bucket)

def updateBj : Int :=
  let pbr := nrGetPbr c.prioritisedBitRate
  let bj := if pbr < 2 ^ 32 - 1 then
      let slotsElapsed := s.elapsed % 2 ^ 32
      let pbrMs := pbr / 1000
      (s.bj + (pbrMs * slotsElapsed % 2 ^ 32 / 2 ^ c.scs : Nat)).bmod (2 ^ 32)
    else 2 ^ 31 - 1
  (cmin bj (getLcBucketSize c.prioritisedBitRate c.bucketSizeDuration) : Int).bmod (2 ^ 32)

def step : BucketEvent → Bucket
  | .slot => { s with elapsed := s.elapsed + 1 }
  | .serve sduLength => { s with bj := (s.bj - sduLength).bmod (2 ^ 32) }
  | .update => ⟨c.updateBj s, 0⟩

def start : Bucket := ⟨0, 0⟩

/-- The prioritised bit rate in bytes per millisecond. A kilobyte per second is a byte per millisecond. -/
def rate : Nat := c.prioritisedBitRate.pbr

def size : Nat := c.rate * nrGetMsBucketsizeduration c.bucketSizeDuration

def accrued : Int := s.bj + (c.rate * s.elapsed / 2 ^ c.scs : Nat)

/-- `Bj` stays in the bucket, and an update adds up to the size of the bucket. -/
def Conforms (e : BucketEvent) : Prop :=
  (c.step s e).bj ≤ c.size ∧ (e = .update → (c.step s e).bj = min (c.accrued s) c.size)

def ProductFits (e : BucketEvent) : Prop :=
  e = .update → c.rate * s.elapsed < 2 ^ 32

/-- An SDU does not go below the integers of 32 bits. An update stays inside the bucket, or is as far
below zero as the computed size of the bucket is above the signed integers. -/
def Bearable : BucketEvent → Prop
  | .slot => True
  | .serve sduLength => -2 ^ 31 ≤ s.bj - sduLength
  | .update => (0 ≤ c.accrued s ∧ c.accrued s ≤ c.size) ∨
      (c.accrued s < 0 ∧
        2 ^ 32 + c.accrued s ≤ getLcBucketSize c.prioritisedBitRate c.bucketSizeDuration)

end BucketConfig

structure FiniteBucketConfig extends BucketConfig where
  finite : prioritisedBitRate ≠ .infinity

end OaiNr.Mac
