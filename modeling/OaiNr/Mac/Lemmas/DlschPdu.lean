import Mathlib.Algebra.BigOperators.Group.List.Basic
import OaiNr.Lib.Fallible
import OaiNr.Mac.DlschPdu

/-!
# What the downlink multiplexer takes from RLC
-/

namespace OaiNr.Mac

variable {lcs : List Nat} {sdus : List Sdu}

@[simp] theorem sduRoom_nil : sduRoom [] = 0 := rfl

@[simp] theorem sduRoom_cons (d : Sdu) (sdus : List Sdu) : sduRoom (d :: sdus) = 3 + d.2.length + sduRoom sdus := by
  simp [sduRoom]

@[simp] theorem sduRoom_append (xs ys : List Sdu) : sduRoom (xs ++ ys) = sduRoom xs + sduRoom ys := by
  simp [sduRoom]

section MultiDataReq

variable (rlc : RlcSource) (lcid : Nat)

theorem multiDataReq_room (entries tbSize : Nat) (s : rlc.State) :
    sduRoom ((multiDataReq rlc lcid entries tbSize s).1.map fun p => (lcid, p)) ≤ tbSize := by
  induction entries generalizing tbSize s with
  | zero => simp [multiDataReq]
  | succ entries ih =>
    have hle := rlc.length_le s lcid (tbSize - 3)
    unfold multiDataReq
    split
    · split
      · simp
      · next pdu s' _ hpdu =>
        rw [hpdu] at hle
        have hrest := ih (tbSize - (3 + pdu.length)) s'
        simp only [List.map_cons, sduRoom_cons]
        dsimp only at hle
        omega
    · simp

theorem multiDataReq_ne_nil (entries tbSize : Nat) (s : rlc.State) :
    ∀ p ∈ (multiDataReq rlc lcid entries tbSize s).1, p ≠ [] := by
  induction entries generalizing tbSize s with
  | zero => simp [multiDataReq]
  | succ entries ih =>
    unfold multiDataReq
    split
    · split
      · simp
      · next pdu s' hne hpdu =>
        intro p hp
        rcases List.mem_cons.mp hp with rfl | hp
        · rintro rfl
          exact hne rfl
        · exact ih _ _ p hp
    · simp

end MultiDataReq

section Multiplex

variable {rlc : RlcSource} {alloc : Nat → Int}

theorem multiplex_cons {lcid : Nat} {space : Nat} {s : rlc.State}
    (h : multiplex rlc alloc (lcid :: lcs) space s = .ok sdus) :
    lcid < nrMaxNumLcid ∧ (alloc lcid = 0 ∧ multiplex rlc alloc lcs space s = .ok sdus ∨
      alloc lcid ≠ 0 ∧ ∃ rest, multiplex rlc alloc lcs
          (space - sduRoom ((multiDataReq rlc lcid maxNumDataReq space s).1.map fun p => (lcid, p)))
          (multiDataReq rlc lcid maxNumDataReq space s).2 = .ok rest ∧
        sdus = ((multiDataReq rlc lcid maxNumDataReq space s).1.map fun p => (lcid, p)) ++ rest) := by
  unfold multiplex at h
  split at h
  · next hlt =>
    refine ⟨hlt, ?_⟩
    split at h
    · next h0 => exact .inl ⟨h0, h⟩
    · next h0 =>
      obtain ⟨rest, hrest, hsdus⟩ := bind_eq_ok.mp h
      exact .inr ⟨h0, rest, hrest, (Except.ok.inj hsdus).symm⟩
  · cases h

theorem multiplex_lt {space : Nat} {s : rlc.State}
    (h : multiplex rlc alloc lcs space s = .ok sdus) : ∀ l ∈ lcs, l < nrMaxNumLcid := by
  induction lcs generalizing space s sdus with
  | nil => simp
  | cons lcid lcs ih =>
    obtain ⟨hlt, ⟨_, hrest⟩ | ⟨_, rest, hrest, _⟩⟩ := multiplex_cons h
    all_goals exact List.forall_mem_cons.mpr ⟨hlt, ih hrest⟩

structure Taken (alloc : Nat → Int) (lcs : List Nat) (d : Sdu) : Prop where
  configured : d.1 ∈ lcs
  lt : d.1 < nrMaxNumLcid
  allocated : alloc d.1 ≠ 0
  nonempty : d.2 ≠ []

theorem multiplex_spec {space : Nat} {s : rlc.State}
    (h : multiplex rlc alloc lcs space s = .ok sdus) : sduRoom sdus ≤ space ∧ ∀ d ∈ sdus, Taken alloc lcs d := by
  induction lcs generalizing space s sdus with
  | nil =>
    cases h
    simp
  | cons lcid lcs ih =>
    have htail {d : Sdu} (t : Taken alloc lcs d) : Taken alloc (lcid :: lcs) d :=
      { t with configured := List.mem_cons_of_mem _ t.configured }
    obtain ⟨hlt, ⟨_, hrest⟩ | ⟨h0, rest, hrest, rfl⟩⟩ := multiplex_cons h
    · obtain ⟨hroom, htaken⟩ := ih hrest
      exact ⟨hroom, fun d hd => htail (htaken d hd)⟩
    · obtain ⟨hroom, htaken⟩ := ih hrest
      have hfirst := multiDataReq_room rlc lcid maxNumDataReq space s
      refine ⟨by simp only [sduRoom_append]; omega, fun d hd => ?_⟩
      rcases List.mem_append.mp hd with hd | hd
      · obtain ⟨p, hp, rfl⟩ := List.mem_map.mp hd
        exact ⟨List.mem_cons_self, hlt, h0, multiDataReq_ne_nil _ _ _ _ _ p hp⟩
      · exact htail (htaken d hd)

end Multiplex

namespace DlGrant

variable {g : DlGrant} {rlc : RlcSource} {s : rlc.State} {p : DlMacPdu}

def Writes (g : DlGrant) (ces : List SubPdu) : Prop :=
  writeCeDlschPdu g.tagId g.ce false none = .ok ces ∧ (cesOctets ces).length < g.tbs

def space (g : DlGrant) (ces : List SubPdu) : Nat := g.tbs - (cesOctets ces).length

theorem generateDlMacPdu_eq {ces : List SubPdu} (h : g.Writes ces) : g.generateDlMacPdu rlc s =
      if 0 < g.numTotalBytes then (multiplex rlc (g.lcidAlloc (g.space ces)) g.lcConfig (g.space ces) s).map fun sdus =>
          ⟨ces, sdus, padding (g.space ces - sduRoom sdus)⟩ else .ok ⟨ces, [], g.fillEmpty (g.space ces)⟩ := by
  simp only [generateDlMacPdu, h.1, ok_bind, h.2, ↓reduceIte]
  rfl

theorem generateDlMacPdu_writes (h : g.generateDlMacPdu rlc s = .ok p) : g.Writes p.ces := by
  obtain ⟨ces, hces, h⟩ := bind_eq_ok.mp h
  dsimp only at h
  by_cases hlt : (cesOctets ces).length < g.tbs
  · have hw : g.Writes ces := ⟨hces, hlt⟩
    simp only [hlt, ↓reduceIte] at h
    split at h
    · obtain ⟨sdus, _, hp⟩ := bind_eq_ok.mp h
      cases hp
      exact hw
    · cases h
      exact hw
  · simp [hlt] at h

theorem generateDlMacPdu_sdus (h : g.generateDlMacPdu rlc s = .ok p) :
    0 < g.numTotalBytes ∧ p.filling = padding (g.space p.ces - sduRoom p.sdus) ∧
        multiplex rlc (g.lcidAlloc (g.space p.ces)) g.lcConfig (g.space p.ces) s = .ok p.sdus ∨
      g.numTotalBytes = 0 ∧ p.sdus = [] ∧ p.filling = g.fillEmpty (g.space p.ces) := by
  obtain ⟨ces, sdus, filling⟩ := p
  have hw : g.Writes ces := generateDlMacPdu_writes h
  rw [generateDlMacPdu_eq hw] at h
  split at h
  · next hpos =>
    obtain ⟨_, hsdus, hp⟩ := map_eq_ok.mp h
    cases hp
    exact .inl ⟨hpos, rfl, hsdus⟩
  · next hzero =>
    cases h
    exact .inr ⟨Nat.eq_zero_of_not_pos hzero, rfl, rfl⟩

end DlGrant

abbrev greedyRlc (lcid : Nat) : RlcSource where
  State := Unit
  generatePdu _ l size := (if l = lcid then List.replicate size 0 else [], ())
  length_le _ l size := by
    split <;> simp

theorem multiDataReq_no_room (rlc : RlcSource) (l entries : Nat) (s : rlc.State) :
    multiDataReq rlc l entries 0 s = ([], s) := by
  cases entries <;> simp [multiDataReq]

theorem multiDataReq_greedy (lcid entries : Nat) {space : Nat} (h : 3 < space) :
    multiDataReq (greedyRlc lcid) lcid (entries + 1) space () = ([List.replicate (space - 3) 0], ()) := by
  obtain ⟨n, rfl⟩ := Nat.exists_eq_add_of_lt h
  have hroom : 3 + n + 1 - 3 = n + 1 := by omega
  have hleft : 3 + n + 1 - (3 + (n + 1)) = 0 := by omega
  simp [multiDataReq, h, hroom, List.replicate_succ, hleft, multiDataReq_no_room]

theorem multiDataReq_greedy_self (lcid : Nat) {space : Nat} (h : 3 < space) :
    multiDataReq (greedyRlc lcid) lcid maxNumDataReq space () = ([List.replicate (space - 3) 0], ()) :=
  multiDataReq_greedy lcid 1023 h

theorem multiDataReq_greedy_other {lcid l : Nat} (hne : l ≠ lcid) (space : Nat) :
    multiDataReq (greedyRlc lcid) l maxNumDataReq space () = ([], ()) := by
  simp [multiDataReq, maxNumDataReq, greedyRlc, hne]

section Greedy

variable {lcid : Nat} {alloc : Nat → Int}

theorem multiplex_no_room (rlc : RlcSource) (s : rlc.State) (hlt : ∀ l ∈ lcs, l < nrMaxNumLcid) :
    multiplex rlc alloc lcs 0 s = .ok [] := by
  induction lcs with
  | nil => rfl
  | cons l lcs ih =>
    obtain ⟨hl, hrest⟩ := List.forall_mem_cons.mp hlt
    by_cases h0 : alloc l = 0 <;>
      simp [multiplex, hl, h0, multiDataReq_no_room, ih hrest]

theorem multiplex_greedy {space : Nat} (hlt : ∀ l ∈ lcs, l < nrMaxNumLcid)
    (hmem : lcid ∈ lcs) (halloc : alloc lcid ≠ 0) (hspace : 3 < space) :
    multiplex (greedyRlc lcid) alloc lcs space () = .ok [(lcid, List.replicate (space - 3) 0)] := by
  induction lcs with
  | nil => cases hmem
  | cons l lcs ih =>
    obtain ⟨hl, hrest⟩ := List.forall_mem_cons.mp hlt
    by_cases heq : l = lcid
    · subst l
      have hfull : space - (3 + (space - 3)) = 0 := by omega
      have hdone := @multiplex_no_room _ alloc (greedyRlc lcid) () hrest
      simp [multiplex, hl, halloc, multiDataReq_greedy_self lcid hspace, hfull,
        hdone]
    · have hmem : lcid ∈ lcs := (List.mem_cons.mp hmem).resolve_left (Ne.symm heq)
      by_cases h0 : alloc l = 0 <;>
        simp [multiplex, hl, h0, multiDataReq_greedy_other heq, ih hrest hmem]

end Greedy

theorem DlGrant.generateDlMacPdu_greedy {g : DlGrant} {ces : List SubPdu} {lcid : Nat} (hw : g.Writes ces)
    (hpos : 0 < g.numTotalBytes) (hlt : ∀ l ∈ g.lcConfig, l < nrMaxNumLcid) (hmem : lcid ∈ g.lcConfig)
    (halloc : g.lcidAlloc (g.space ces) lcid ≠ 0) (hspace : 3 < g.space ces) :
    ∃ filling, g.generateDlMacPdu (greedyRlc lcid) () =
      .ok ⟨ces, [(lcid, List.replicate (g.space ces - 3) 0)], filling⟩ := by
  rw [generateDlMacPdu_eq hw, if_pos hpos, multiplex_greedy hlt hmem halloc hspace]
  exact ⟨_, rfl⟩

end OaiNr.Mac
