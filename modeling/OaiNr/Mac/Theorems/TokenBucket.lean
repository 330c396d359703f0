import OaiNr.Mac.TokenBucket

/-!
# Which runs keep the token buckets

The computed size of a bucket takes the bit rate in bytes per second for milliseconds, and a negative `Bj` is
compared with it as an unsigned integer.
-/

namespace OaiNr.Mac

theorem le_bmod (x : Int) : -2 ^ 31 ≤ x.bmod (2 ^ 32) := by
  rw [Int.bmod_def]
  split <;> omega

theorem cmin_bmod (a : Int) (b : Nat) : cmin (a.bmod (2 ^ 32)) b = cmin a b := by
  have hmod : a.bmod (2 ^ 32) % 2 ^ 32 = a % 2 ^ 32 := Int.bmod_emod
  unfold cmin
  rw [hmod]

namespace FiniteBucketConfig

variable (c : FiniteBucketConfig) {s : Bucket}

def bucketSize : Nat := getLcBucketSize c.prioritisedBitRate c.bucketSizeDuration

theorem pbr_facts : nrGetPbr c.prioritisedBitRate < 2 ^ 32 - 1 ∧ nrGetPbr c.prioritisedBitRate / 1000 = c.rate := by
  have hfinite := c.finite
  unfold BucketConfig.rate
  generalize c.prioritisedBitRate = p at hfinite
  cases p <;> first | exact absurd rfl hfinite | decide

theorem size_facts : c.size ≤ 65536000 ∧ c.size ≤ c.bucketSize ∧ c.bucketSize < 2 ^ 32 ∧
    (c.bucketSize = c.size → c.rate = 0) := by
  have hfinite := c.finite
  unfold BucketConfig.size BucketConfig.rate bucketSize
  generalize c.prioritisedBitRate = p at hfinite
  generalize c.bucketSizeDuration = d
  cases p <;> first | exact absurd rfl hfinite | (cases d <;> decide)

theorem updateBj_eq (hfits : c.rate * s.elapsed < 2 ^ 32) :
    c.updateBj s = (cmin (c.accrued s) c.bucketSize : Int).bmod (2 ^ 32) := by
  obtain ⟨hpbr, hrate⟩ := c.pbr_facts
  have hmod : c.rate * (s.elapsed % 2 ^ 32) % 2 ^ 32 = c.rate * s.elapsed := by
    rw [Nat.mul_mod_mod, Nat.mod_eq_of_lt hfits]
  unfold BucketConfig.updateBj BucketConfig.accrued bucketSize
  simp only [if_pos hpbr, hrate, hmod, cmin_bmod]

theorem le_updateBj (s : Bucket) : -2 ^ 31 ≤ c.updateBj s := by
  unfold BucketConfig.updateBj
  exact le_bmod _

structure Kept (s : Bucket) : Prop where
  above : -2 ^ 31 ≤ s.bj
  le_size : s.bj ≤ c.size

variable {c}

theorem Kept.accrued_bounds (hs : c.Kept s) (hfits : c.rate * s.elapsed < 2 ^ 32) :
    -2 ^ 31 ≤ c.accrued s ∧ c.accrued s < c.size + 2 ^ 32 ∧ (c.rate = 0 → c.accrued s ≤ c.size) := by
  have hadded : c.rate * s.elapsed / 2 ^ c.scs ≤ c.rate * s.elapsed := Nat.div_le_self _ _
  have habove := hs.above
  have hle := hs.le_size
  unfold BucketConfig.accrued
  have hnone : c.rate = 0 → c.rate * s.elapsed / 2 ^ c.scs = 0 := by
    intro hzero
    rw [hzero, Nat.zero_mul, Nat.zero_div]
  generalize c.rate * s.elapsed / 2 ^ c.scs = added at hadded hnone
  exact ⟨by omega, by omega, fun hzero => by have := hnone hzero; omega⟩

theorem Kept.update_iff (hs : c.Kept s) (hfits : c.rate * s.elapsed < 2 ^ 32) :
    c.updateBj s = min (c.accrued s) c.size ↔ c.Bearable s .update := by
  obtain ⟨hsize, hle, hlt, heq⟩ := c.size_facts
  obtain ⟨hlo, hhi, hzero⟩ := hs.accrued_bounds hfits
  rw [c.updateBj_eq hfits, Int.bmod_def, BucketConfig.Bearable, ← bucketSize]
  generalize c.accrued s = a at hlo hhi hzero
  generalize hv : cmin a c.bucketSize = v
  have hcases : (a % 2 ^ 32 < c.bucketSize ∧ (v : Int) = a % 2 ^ 32) ∨
      (c.bucketSize ≤ a % 2 ^ 32 ∧ v = c.bucketSize) := by
    unfold cmin at hv
    split at hv <;> omega
  constructor
  · intro h
    rcases hcases with ⟨_, hv⟩ | ⟨_, hv⟩
    · split at h <;> omega
    · split at h <;> omega
  · rintro (⟨hnonneg, hbound⟩ | ⟨hneg, hdeep⟩)
    · split <;> omega
    · split <;> omega

theorem Kept.serve_iff (hs : c.Kept s) (sduLength : Fin (2 ^ 16)) :
    (c.step s (.serve sduLength)).bj ≤ c.size ↔ -2 ^ 31 ≤ s.bj - sduLength := by
  obtain ⟨hsize, -⟩ := c.size_facts
  have habove := hs.above
  have hle := hs.le_size
  have hlt := sduLength.isLt
  simp only [BucketConfig.step, Int.bmod_def]
  split <;> omega

theorem Kept.conforms_iff (hs : c.Kept s) {e : BucketEvent} (hfits : c.ProductFits s e) :
    c.Conforms s e ↔ c.Bearable s e := by
  cases e with
  | slot => simpa [BucketConfig.Conforms, BucketConfig.Bearable, BucketConfig.step] using hs.le_size
  | serve sduLength =>
    rw [BucketConfig.Conforms, hs.serve_iff]
    simp [BucketConfig.Bearable]
  | update =>
    rw [← hs.update_iff (hfits rfl)]
    simp only [BucketConfig.Conforms, BucketConfig.step, true_imp_iff, and_iff_right_iff_imp]
    intro hupdate
    rw [hupdate]
    exact Int.min_le_right _ _

theorem Kept.step (hs : c.Kept s) {e : BucketEvent} (hconforms : c.Conforms s e) : c.Kept (c.step s e) := by
  refine ⟨?_, hconforms.1⟩
  cases e with
  | slot => exact hs.above
  | serve sduLength => exact le_bmod (s.bj - sduLength)
  | update => simpa only [BucketConfig.step] using c.le_updateBj s

theorem kept_start : c.Kept BucketConfig.start := ⟨by decide, Int.natCast_nonneg _⟩

end FiniteBucketConfig

open Trace (Along)

/-- In a run whose products fit into 32 bits, `Bj` stays in the bucket and the updates are as specified, exactly
when every event is bearable in the state it comes in. -/
theorem bucket_conforms_iff (c : FiniteBucketConfig) (events : List BucketEvent) :
    Along c.step (fun s e => c.ProductFits s e ∧ c.Conforms s e) BucketConfig.start events ↔
      Along c.step (fun s e => c.ProductFits s e ∧ c.Bearable s e) BucketConfig.start events := by
  refine Trace.along_iff c.Kept (fun s e hs => ?_) (fun s e hs h => hs.step h.2) c.kept_start events
  exact and_congr_right hs.conforms_iff

/-- A channel with 8 kilobytes per second and a bucket for 5 ms, so one of 40 bytes. An SDU of 1000 bytes leaves
it overdrawn, and the next slot fills it with 40000 bytes. -/
theorem overdrawn_bucket_jumps : let c : BucketConfig := ⟨.kBps8, .ms5, 0⟩
    let s := [.slot, .update, .serve 1000, .slot].foldl c.step BucketConfig.start
    s.bj = -992 ∧ c.accrued s = -984 ∧ c.size = 40 ∧ (c.step s .update).bj = 40000 := by
  decide

end OaiNr.Mac
