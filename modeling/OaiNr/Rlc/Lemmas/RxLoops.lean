import OaiNr.Rlc.AmTx
import OaiNr.Rlc.Lemmas.Ring

/-!
# The loops over the ring
-/

namespace OaiNr.Rlc

open OaiNr.Serial

theorem withFuel_eq_ok {α : Type} {o : Option α} {a : α} : withFuel o = .ok a ↔ o = some a := by
  cases o <;> simp [withFuel]

theorem withFuel_eq_error {α : Type} {o : Option α} {f : Fault} :
    withFuel o = .error f ↔ o = none ∧ f = .outOfFuel := by
  cases o <;> simp [withFuel, eq_comm]

theorem iterate_succ_emod {m sn : Int} (h0 : 0 ≤ sn) (h : sn < m) (j : Nat) :
    (fun sn => (sn + 1) % m)^[j] sn = (sn + j) % m := by
  induction j with
  | zero => simp [Int.emod_eq_of_lt h0 h]
  | succ j ih =>
    rw [Function.iterate_succ_apply', ih, Int.emod_add_emod, Nat.cast_succ, Int.add_assoc]

namespace Am

variable {e : Am} {fuel : Nat} {sn r : Int}

/-! ## Skipping delivered SDUs -/

theorem skipDelivered_eq_ok (h0 : 0 ≤ sn) (h : sn < e.snModulus) : e.skipDelivered fuel sn = .ok r ↔
      ∃ j < fuel, r = (sn + j) % e.snModulus ∧ e.sduDelivered r = false ∧
        ∀ i < j, e.sduDelivered ((sn + i) % e.snModulus) := by
  rw [skipDelivered, withFuel_eq_ok, Loop.run_eq_some]
  simp only [iterate_succ_emod h0 h, Bool.not_eq_true]

theorem skipDelivered_error {f : Fault} (h : e.skipDelivered fuel sn = .error f) : f = .outOfFuel :=
  (withFuel_eq_error.mp h).2

end Am

end OaiNr.Rlc
