import Mathlib.Init

/-!
# Walks

A walk goes from one state to the next as long as something is left of it.
-/

namespace OaiNr

variable {σ : Type} (size : σ → Nat) (next : σ → Option σ)

def stationsFrom : (fuel : Nat) → σ → List σ
  | 0, _ => []
  | fuel + 1, s => if size s = 0 then [] else s :: (next s).elim [] (stationsFrom fuel)

/-- The stations of a walk. It ends where nothing is left, or where there is no next station. -/
def stations (s : σ) : List σ := stationsFrom size next (size s) s

def Shrinks : Prop := ∀ s s', next s = some s' → size s' < size s

variable {size next} {s s' : σ}

theorem stations_nil (h : size s = 0) : stations size next s = [] := by
  rw [stations, h]
  rfl

theorem stationsFrom_congr (hnext : Shrinks size next) {fuel fuel' : Nat} (h : size s ≤ fuel)
    (h' : size s ≤ fuel') : stationsFrom size next fuel s = stationsFrom size next fuel' s := by
  induction fuel generalizing fuel' s with
  | zero =>
    cases fuel' with
    | zero => rfl
    | succ fuel' => rw [stationsFrom, stationsFrom, if_pos (Nat.le_zero.mp h)]
  | succ fuel ih =>
    cases fuel' with
    | zero => rw [stationsFrom, stationsFrom, if_pos (Nat.le_zero.mp h')]
    | succ fuel' =>
      rw [stationsFrom, stationsFrom]
      cases hs : next s with
      | none => rfl
      | some s' =>
        have hless := hnext _ _ hs
        rw [Option.elim_some, Option.elim_some, ih (by omega) (by omega : size s' ≤ fuel')]

theorem stations_elim (hnext : Shrinks size next) (hs : size s ≠ 0) :
    stations size next s = s :: (next s).elim [] (stations size next) := by
  obtain ⟨n, hn⟩ := Nat.exists_eq_succ_of_ne_zero hs
  rw [stations, hn, stationsFrom, if_neg hs]
  cases h : next s with
  | none => rfl
  | some s' =>
    have hless := hnext _ _ h
    rw [Option.elim_some, Option.elim_some, stations, stationsFrom_congr hnext (by omega) (Nat.le_refl _)]

theorem stations_stop (hnext : Shrinks size next) (hs : size s ≠ 0) (h : next s = none) :
    stations size next s = [s] := by
  rw [stations_elim hnext hs, h]
  rfl

theorem stations_cons (hnext : Shrinks size next) (h : next s = some s') :
    stations size next s = s :: stations size next s' := by
  have hless := hnext _ _ h
  rw [stations_elim hnext (by omega), h]
  rfl

end OaiNr
