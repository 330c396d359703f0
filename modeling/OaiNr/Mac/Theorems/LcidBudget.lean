import OaiNr.Mac.Lemmas.DlschPdu

/-!
# The budgets of the logical channels
-/

namespace OaiNr.Mac

def rlcBytes (lcid : Nat) (sdus : List Sdu) : Nat :=
  (sdus.map fun d => if d.1 = lcid then d.2.length else 0).sum

@[simp] theorem rlcBytes_nil (lcid : Nat) : rlcBytes lcid [] = 0 := rfl

@[simp] theorem rlcBytes_cons (lcid : Nat) (d : Sdu) (sdus : List Sdu) :
    rlcBytes lcid (d :: sdus) = (if d.1 = lcid then d.2.length else 0) + rlcBytes lcid sdus := by
  simp [rlcBytes]

theorem rlcBytes_le_room (lcid : Nat) (sdus : List Sdu) : rlcBytes lcid sdus ≤ sduRoom sdus - 3 := by
  induction sdus with
  | nil => simp
  | cons d sdus ih =>
    simp only [rlcBytes_cons, sduRoom_cons]
    split <;> omega

theorem rlcBytes_eq_zero {lcid : Nat} {sdus : List Sdu} (h : ∀ d ∈ sdus, d.1 ≠ lcid) : rlcBytes lcid sdus = 0 := by
  induction sdus with
  | nil => rfl
  | cons d sdus ih =>
    obtain ⟨hd, hrest⟩ := List.forall_mem_cons.mp h
    simp [hd, ih hrest]

namespace DlGrant

/-- Every channel with a budget is given one that the whole room for data, less a subheader, does not
exceed. -/
def BudgetsFill (g : DlGrant) (ces : List SubPdu) : Prop :=
  ∀ lcid ∈ g.lcConfig, g.lcidAlloc (g.space ces) lcid ≠ 0 →
    (g.space ces : Int) - 3 ≤ max 0 (g.lcidAlloc (g.space ces) lcid)

variable {g : DlGrant}

theorem rlcBytes_le_budget {rlc : RlcSource} {s : rlc.State} {p : DlMacPdu} (h : g.generateDlMacPdu rlc s = .ok p)
    (hfill : 0 < g.numTotalBytes → (∀ l ∈ g.lcConfig, l < nrMaxNumLcid) → g.BudgetsFill p.ces)
    (lcid : Nat) : (rlcBytes lcid p.sdus : Int) ≤ max 0 (g.lcidAlloc (g.space p.ces) lcid) := by
  obtain ⟨hpos, _, hmux⟩ | ⟨_, hnil, _⟩ := generateDlMacPdu_sdus h
  · obtain ⟨hroom, htaken⟩ := multiplex_spec hmux
    by_cases hany : ∀ d ∈ p.sdus, d.1 ≠ lcid
    · rw [rlcBytes_eq_zero hany]
      exact Int.le_max_left _ _
    · push Not at hany
      obtain ⟨d, hd, rfl⟩ := hany
      have t := htaken d hd
      have hbudget := hfill hpos (multiplex_lt hmux) d.1 t.configured t.allocated
      have hbytes := rlcBytes_le_room d.1 p.sdus
      omega
  · rw [hnil]
    exact Int.le_max_left _ _

/-- The budgets of a grant are respected whatever RLC does, exactly where each budget that is not zero
covers the room for data. A budget below zero is one for no data. -/
theorem budgets_respected_iff (g : DlGrant) :
    (∀ (rlc : RlcSource) (s : rlc.State) (p : DlMacPdu), g.generateDlMacPdu rlc s = .ok p →
        ∀ lcid, (rlcBytes lcid p.sdus : Int) ≤ max 0 (g.lcidAlloc (g.space p.ces) lcid)) ↔
      ∀ ces, g.Writes ces → 0 < g.numTotalBytes → (∀ l ∈ g.lcConfig, l < nrMaxNumLcid) → g.BudgetsFill ces := by
  constructor
  · intro hall ces hw hpos hlt lcid hmem halloc
    by_cases hspace : 3 < g.space ces
    · obtain ⟨filling, hgen⟩ := generateDlMacPdu_greedy hw hpos hlt hmem halloc hspace
      have hle := hall _ _ _ hgen lcid
      simp only [rlcBytes_cons, rlcBytes_nil, ↓reduceIte, List.length_replicate] at hle
      omega
    · omega
  · intro hfill rlc s p hgen lcid
    exact rlcBytes_le_budget hgen (hfill p.ces (generateDlMacPdu_writes hgen)) lcid

def oneByteGrant : DlGrant where
  tagId := 0
  ce := ⟨none, none, none, none, none, none, none⟩
  tbs := 20
  numTotalBytes := 1
  lcConfig := [4]
  lcidAlloc _ lcid := if lcid = 4 then 1 else 0
  phyTestOrDoRa := false
  random _ := 0

/-- The channel has a budget of one byte, and the block carries 17 of its bytes. -/
theorem budget_exceeded : ∃ p, oneByteGrant.generateDlMacPdu (greedyRlc 4) () = .ok p ∧
    oneByteGrant.lcidAlloc (oneByteGrant.space p.ces) 4 = 1 ∧ rlcBytes 4 p.sdus = 17 := by
  have hw : oneByteGrant.Writes [] := ⟨rfl, by decide⟩
  have hspace : oneByteGrant.space [] = 20 := rfl
  obtain ⟨filling, hgen⟩ := @generateDlMacPdu_greedy _ _ 4 hw (by decide) (by decide) (by decide)
    (by decide) (by decide)
  exact ⟨_, hgen, rfl, by simp [hspace]⟩

end DlGrant

end OaiNr.Mac
