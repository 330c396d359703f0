import OaiNr.Mac.Lemmas.DlschPdu
import OaiNr.Mac.UeDlsch

/-!
# The walk of the UE over what the gNB writes
-/

namespace OaiNr.Mac

open SubPdu List

variable {c : SubPdu} {fuel lcid : Nat} {tail : List UInt8} {r : Parsed} {d : Sdu} {ces : List SubPdu}

theorem longOf_long (lcid : Nat) : longOf (octet [(6, lcid), (1, 1), (1, 0)]) = true := by
  simp [longOf, octet, bitFields]
  omega

theorem octet_long_ne_zero (lcid : Nat) : octet [(6, lcid), (1, 1), (1, 0)] ≠ 0 := by
  intro h
  have := congrArg UInt8.toNat h
  simp [octet, bitFields] at this
  omega

theorem getMacLen_long (lcid : Nat) (sdu rest : List UInt8) :
    getMacLen ((long lcid sdu).octets ++ rest) = ⟨true, 3, sdu.length % 65536⟩ := by
  have hlen : sdu.length / 256 % 256 * 256 + sdu.length % 256 = sdu.length % 65536 := by omega
  simp [long, getMacLen, longOf_long, hlen]
  omega

@[simp] theorem SubPdu.length_long (lcid : Nat) (sdu : List UInt8) :
    (long lcid sdu).octets.length = 3 + sdu.length := by
  simp [long]
  omega

def SubPdu.Headed (c : SubPdu) : Prop := ∃ b ce, c.octets = b :: ce ∧ lcidOf b = c.lcid

theorem SubPdu.headed_fixed (h : lcid < 64) (ce : List UInt8) : (fixed lcid ce).Headed := by
  refine ⟨_, _, rfl, ?_⟩
  simp [fixed, lcidOf, octet, bitFields]
  omega

theorem SubPdu.headed_short (h : lcid < 64) (ce : List UInt8) : (short lcid ce).Headed := by
  refine ⟨_, _, rfl, ?_⟩
  simp [short, lcidOf, octet, bitFields]
  omega

theorem SubPdu.headed_long (h : lcid < 64) (sdu : List UInt8) : (long lcid sdu).Headed := by
  refine ⟨_, _, rfl, ?_⟩
  simp [long, lcidOf, octet, bitFields]
  omega

structure UeMac.StepsOver (ue : UeMac) (c : SubPdu) : Prop where
  headed : c.Headed
  notContRes : c.lcid ≠ 0x3E
  visit : ∀ rest, ∃ subheader len,
    ue.visit (c.octets ++ rest) c.lcid = .ok ⟨subheader, len, none, .next⟩ ∧
      subheader + len = c.octets.length

namespace UeMac

variable {ue : UeMac}

theorem stepsOver_fixed {ce : List UInt8} (hlcid : 32 < lcid ∧ lcid < 0x3D)
    (hvar : lcid ∉ variableCes) (hlen : fixedCeLen lcid = ce.length) : ue.StepsOver (.fixed lcid ce) := by
  refine ⟨headed_fixed (by omega) ce, (by omega : lcid ≠ 0x3E), fun rest => ⟨1, ce.length, ?_, ?_⟩⟩
  · have h0 : lcid ≠ 0 := by omega
    have h3D : lcid ≠ 0x3D := by omega
    have h3E : lcid ≠ 0x3E := by omega
    have h3F : lcid ≠ 0x3F := by omega
    simp [fixed, visit, h0, hvar, h3D, h3E, h3F, Nat.not_le.mpr hlcid.1, hlen]
  · simp [fixed]
    omega

theorem stepsOver_short {ce : List UInt8} (hvar : lcid ∈ variableCes)
    (hlen : ce.length < 256) : ue.StepsOver (.short lcid ce) := by
  have hlcid : lcid ≠ 0 ∧ lcid < 64 ∧ lcid ≠ 0x3E := by
    simp only [variableCes, mem_cons, not_mem_nil, or_false] at hvar
    omega
  have hshort : longOf (octet [(6, lcid), (1, 0), (1, 0)]) = false := by
    simp [longOf, octet, bitFields]
    omega
  refine ⟨headed_short hlcid.2.1 ce, hlcid.2.2, fun rest => ⟨2, ce.length, ?_, ?_⟩⟩
  · simp [short, visit, hlcid.1, hvar, getMacLen, hshort, Nat.mod_eq_of_lt hlen]
  · simp [short]
    omega

theorem visit_ta (ue : UeMac) {tagId : Nat} {ta : Int} (h : taCommand tagId ta = .ok c)
    (rest : List UInt8) : ue.visit (c.octets ++ rest) 0x3D =
      .ok ⟨1, 1, none, if tagId % 4 = ue.tagId then .next else .done⟩ := by
  unfold taCommand at h
  split at h
  · cases h
    have htag : (octet [(6, (ta % 64).toNat), (2, tagId)]).toNat / 64 = tagId % 4 := by
      simp only [octet, bitFields, UInt8.toNat_ofNat', Nat.reducePow]
      omega
    simp [visit, variableCes, fixed, visitTa, htag]
  · cases h

theorem visit_csiIm (ue : UeMac) {i : CsiRsIm} (h : csiRsCsiIm i = .ok c) (rest : List UInt8) :
    ue.visit (c.octets ++ rest) 0x37 = .ok ⟨2, i.header.toNat, none, .next⟩ := by
  unfold csiRsCsiIm at h
  split at h
  · cases h
  · cases h
    have hshort : longOf (octet [(6, 0x37), (2, 0)]) = false := by decide
    simp [visit, variableCes, fixed, getMacLen, hshort]

def received (ue : UeMac) (d : Sdu) : Option Sdu :=
  if d.1 = 0 then if 0 < d.2.length % 65536 then some (d.1, d.2.take (d.2.length % 65536)) else none
  else if ue.isLcidSuspended d.1 then none
  else some (d.1, d.2.take (d.2.length % 65536))

theorem dataInd_long (lcid : Nat) (sdu rest : List UInt8) :
    dataInd ((long lcid sdu).octets ++ rest) lcid ⟨true, 3, sdu.length % 65536⟩ =
      .ok ⟨3, sdu.length % 65536, some (lcid, sdu.take (sdu.length % 65536)), .next⟩ := by
  have hle : sdu.length % 65536 ≤ sdu.length := Nat.mod_le _ _
  have hroom : 3 + sdu.length % 65536 ≤ sdu.length + rest.length + 1 + 1 + 1 := by omega
  simp [dataInd, long, hroom, take_append_of_le_length hle]

theorem visit_sdu (ue : UeMac) (d : Sdu) (hlt : d.1 < nrMaxNumLcid) (rest : List UInt8) :
    ue.visit ((long d.1 d.2).octets ++ rest) d.1 = .ok ⟨3, d.2.length % 65536, ue.received d, .next⟩ := by
  obtain ⟨lcid, sdu⟩ := d
  have hlcid : lcid < 32 := hlt
  have hmac := getMacLen_long lcid sdu rest
  have hind := dataInd_long lcid sdu rest
  by_cases h0 : lcid = 0
  · subst lcid
    have hnz : (((long 0 sdu).octets ++ rest).take (3 + sdu.length % 65536)).all (· == 0) = false := by
      rw [Nat.add_comm]
      simp [long, octet_long_ne_zero]
    by_cases hlen : 0 < sdu.length % 65536 <;>
      simp only [visit, visitCcch, hmac, hnz, hind, received, hlen, ↓reduceIte, Bool.false_eq_true]
  · have hvar : lcid ∉ variableCes := by
      simp only [variableCes, mem_cons, not_mem_nil, or_false]
      omega
    have hce : lcid ≠ 0x3D ∧ lcid ≠ 0x3E ∧ lcid ≠ 0x3F := by omega
    have hle : lcid ≤ 32 := Nat.le_of_lt hlcid
    cases hs : ue.isLcidSuspended lcid <;> simp [visit, h0, hvar, hce, hle, visitSdu, hmac, hind, received, hs]

theorem visit_ind {pdu : List UInt8} {v : Visit} (h : ue.visit pdu lcid = .ok v) :
    v.ind = none ∨ lcid ≤ 32 := by
  by_cases hle : lcid ≤ 32
  · exact .inr hle
  · left
    have h0 : lcid ≠ 0 := by omega
    simp only [visit, h0, hle, ↓reduceIte, visitTa, visitContRes] at h
    grind

theorem walk_next {subheader len : Nat}
    {ind : Option Sdu} (hc : c.Headed) (hne : c.lcid ≠ 0x3E)
    (hv : ue.visit (c.octets ++ tail) c.lcid = .ok ⟨subheader, len, ind, .next⟩)
    (hlen : subheader + len = c.octets.length) : ue.walk (fuel + 1) (c.octets ++ tail) r =
      if ind.isSome ∧ maxNumDataInd ≤ (r.dataInd ++ ind.toList).length then .error .devAssert else ue.walk fuel tail
        ⟨r.steps ++ [(c.lcid, c.octets.length)], r.dataInd ++ ind.toList⟩ := by
  obtain ⟨b, ce, hoctets, hlcid⟩ := hc
  have hdrop : (b :: (ce ++ tail)).drop (subheader + len) = tail := by
    simp [hlen, hoctets]
  have hroom : ¬ (ce ++ tail).length + 1 < subheader + len := by
    simp [hlen, hoctets]
  rw [hoctets, cons_append] at hv
  have hafter : ue.after c.lcid = ue := if_neg fun h => hne h.1
  simp only [hoctets, cons_append, walk, hlcid, hv, ok_bind, hroom, ↓reduceIte, hdrop, hafter]
  rw [hlen, hoctets]

theorem walk_done {subheader len : Nat}
    (hc : c.Headed) (hv : ue.visit (c.octets ++ tail) c.lcid = .ok ⟨subheader, len, none, .done⟩) :
    ue.walk (fuel + 1) (c.octets ++ tail) r = .ok ⟨r.steps ++ [(c.lcid, subheader + len)], r.dataInd⟩ := by
  obtain ⟨b, ce, hoctets, hlcid⟩ := hc
  rw [hoctets, cons_append] at hv
  simp [hoctets, walk, hlcid, hv]

structure Extends (r r' : Parsed) (new : List (Nat × Nat)) : Prop where
  steps : r'.steps = r.steps ++ new
  dataInd : r'.dataInd.length ≤ r.dataInd.length + new.countP fun s => s.1 ≤ 32

theorem walk_extends {pdu : List UInt8} {r' : Parsed} (h : ue.walk fuel pdu r = .ok r') : ∃ new, Extends r r' new := by
  induction fuel generalizing ue pdu r with
  | zero => cases h
  | succ fuel ih =>
    cases pdu with
    | nil =>
      cases h
      exact ⟨[], by simp, by simp⟩
    | cons b rest =>
      obtain ⟨v, hv, h⟩ := bind_eq_ok.mp h
      dsimp only at h
      have hind : v.ind.toList.length ≤ [(lcidOf b, v.subheader + v.len)].countP fun s => s.1 ≤ 32 := by
        rcases visit_ind hv with hnone | hle
        · simp [hnone]
        · cases v.ind <;> simp [hle]
      have hstep : Extends r ⟨r.steps ++ [(lcidOf b, v.subheader + v.len)], r.dataInd ++ v.ind.toList⟩
          [(lcidOf b, v.subheader + v.len)] :=
        ⟨rfl, by simpa using hind⟩
      split at h
      · cases h
      · split at h
        · cases h
          exact ⟨_, hstep.steps, by simp⟩
        · cases h
          exact ⟨_, hstep⟩
        · split at h
          · cases h
            exact ⟨_, hstep⟩
          · obtain ⟨new, hnew⟩ := ih h
            refine ⟨(lcidOf b, v.subheader + v.len) :: new, by rw [hnew.steps]; simp, ?_⟩
            have := hnew.dataInd
            have := hstep.dataInd
            rw [← singleton_append, countP_append]
            omega

theorem walk_first {r' : Parsed} {v : Visit} (hc : c.Headed) (hv : ue.visit (c.octets ++ tail) c.lcid = .ok v)
    (h : ue.walk (fuel + 1) (c.octets ++ tail) r = .ok r') :
    ∃ new, r'.steps = r.steps ++ (c.lcid, v.subheader + v.len) :: new := by
  obtain ⟨b, ce, hoctets, hlcid⟩ := hc
  rw [hoctets, ← hlcid] at hv
  rw [hoctets] at h
  obtain ⟨v', hv', h⟩ := bind_eq_ok.mp h
  obtain rfl := Except.ok.inj (hv.symm.trans hv')
  rw [← hlcid]
  dsimp only at h
  split at h
  · cases h
  · split at h
    · cases h
      exact ⟨[], rfl⟩
    · cases h
      exact ⟨[], rfl⟩
    · split at h
      · cases h
        exact ⟨[], rfl⟩
      · obtain ⟨new, hnew⟩ := walk_extends h
        exact ⟨new, by rw [hnew.steps]; simp⟩

end UeMac

def ceSteps (ces : List SubPdu) : List (Nat × Nat) := ces.map fun c => (c.lcid, c.octets.length)

def sduSteps (sdus : List Sdu) : List (Nat × Nat) := sdus.map fun d => (d.1, 3 + d.2.length)

def fillingSteps (filling : List UInt8) : List (Nat × Nat) := if filling = [] then [] else [(0x3F, 1)]

def UeMac.Takes (ue : UeMac) (d : Sdu) : Prop :=
  d.2.length < 65536 ∧ (d.1 ≠ 0 → ue.isLcidSuspended d.1 = false)

namespace UeMac

variable {ue : UeMac}

theorem received_eq_some (hne : d.2 ≠ []) (h : ue.Takes d) : ue.received d = some d := by
  have hmod : d.2.length % 65536 = d.2.length := Nat.mod_eq_of_lt h.1
  unfold received
  rw [hmod, take_length]
  split
  · simp [hne]
  · next h0 => simp [h.2 h0]

theorem walk_ces (hces : ∀ c ∈ ces, ue.StepsOver c) (hfuel : (cesOctets ces ++ tail).length < fuel) (r : Parsed) :
    ∃ fuel', tail.length < fuel' ∧ ue.walk fuel (cesOctets ces ++ tail) r =
      ue.walk fuel' tail ⟨r.steps ++ ceSteps ces, r.dataInd⟩ := by
  induction ces generalizing fuel r with
  | nil => exact ⟨fuel, hfuel, by simp [cesOctets, ceSteps]⟩
  | cons c ces ih =>
    obtain ⟨hc, hrest⟩ := forall_mem_cons.mp hces
    obtain ⟨subheader, len, hv, hlen⟩ := hc.visit (cesOctets ces ++ tail)
    obtain _ | fuel := fuel
    · cases hfuel
    have hoctets : cesOctets (c :: ces) ++ tail = c.octets ++ (cesOctets ces ++ tail) := by
      simp [cesOctets]
    rw [hoctets] at hfuel ⊢
    obtain ⟨b, ce, hb, _⟩ := hc.headed
    have hless : (cesOctets ces ++ tail).length < fuel := by
      simp only [hb, length_append, length_cons] at hfuel ⊢
      omega
    obtain ⟨fuel', hfuel', hwalk⟩ :=
      ih hrest hless ⟨r.steps ++ [(c.lcid, c.octets.length)], r.dataInd⟩
    refine ⟨fuel', hfuel', ?_⟩
    rw [walk_next hc.headed hc.notContRes hv hlen]
    simpa [ceSteps] using hwalk

def IsFilling (filling : List UInt8) : Prop := ∀ b ∈ filling.head?, lcidOf b = 0x3F

theorem walk_filling (ue : UeMac) {filling : List UInt8} (h : IsFilling filling)
    (hfuel : filling.length < fuel) (r : Parsed) :
    ue.walk fuel filling r = .ok ⟨r.steps ++ fillingSteps filling, r.dataInd⟩ := by
  obtain _ | fuel := fuel
  · cases hfuel
  cases filling with
  | nil => simp [walk, fillingSteps]
  | cons b rest =>
    have hb : lcidOf b = 0x3F := h b (by simp)
    simp [walk, hb, visit, variableCes, fillingSteps]

theorem headed_sdu (h : d.1 < nrMaxNumLcid) : (long d.1 d.2).Headed :=
  headed_long (Nat.lt_trans h (by decide)) d.2

theorem sdu_ne_contRes (h : d.1 < nrMaxNumLcid) : (long d.1 d.2).lcid ≠ 0x3E :=
  Nat.ne_of_lt (Nat.lt_trans h (by decide))

theorem countP_fillingSteps (filling : List UInt8) : (fillingSteps filling).countP (fun s => s.1 ≤ 32) = 0 := by
  unfold fillingSteps
  split <;> rfl

theorem countP_sduSteps {sdus : List Sdu} (h : ∀ d ∈ sdus, d.1 < nrMaxNumLcid) :
    (sduSteps sdus).countP (fun s => s.1 ≤ 32) = sdus.length := by
  rw [sduSteps, countP_map]
  refine countP_eq_length.mpr fun d hd => ?_
  have := h d hd
  simp [nrMaxNumLcid] at this ⊢
  omega

theorem walk_taken (hd : d.1 < nrMaxNumLcid) (hne : d.2 ≠ []) (h : ue.Takes d) :
    ue.walk (fuel + 1) ((long d.1 d.2).octets ++ tail) r =
      if maxNumDataInd ≤ r.dataInd.length + 1 then .error .devAssert
      else ue.walk fuel tail ⟨r.steps ++ [(d.1, 3 + d.2.length)], r.dataInd ++ [d]⟩ := by
  have hv := ue.visit_sdu d hd tail
  rw [received_eq_some hne h, Nat.mod_eq_of_lt h.1] at hv
  rw [walk_next (headed_sdu hd) (sdu_ne_contRes hd) hv (length_long _ _).symm]
  simp only [Option.isSome_some, true_and, Option.toList_some, length_append, length_singleton, length_long]
  rfl

theorem takes_of_walk {sdus : List Sdu} (hlt : ∀ e ∈ d :: sdus, e.1 < nrMaxNumLcid) {fill : List (Nat × Nat)}
    (hfill : fill.countP (fun s => s.1 ≤ 32) = 0) (h : ue.walk (fuel + 1) ((long d.1 d.2).octets ++ tail) r =
      .ok ⟨r.steps ++ (sduSteps (d :: sdus) ++ fill), r.dataInd ++ d :: sdus⟩) : ue.Takes d := by
  obtain ⟨hd, hrest⟩ := forall_mem_cons.mp hlt
  have hhead := headed_sdu hd
  have hv := ue.visit_sdu d hd tail
  -- the step has the length that the gNB means, so the length has 16 bits
  have hlen : d.2.length < 65536 := by
    obtain ⟨new, hnew⟩ := walk_first hhead hv h
    simp [sduSteps] at hnew
    omega
  refine ⟨hlen, fun h0 => ?_⟩
  -- a channel that is suspended leaves the walk one SDU short
  by_contra hs
  have hnone : ue.received d = none := by simp [received, h0, hs]
  have hmod : d.2.length % 65536 = d.2.length := Nat.mod_eq_of_lt hlen
  rw [hnone, hmod] at hv
  rw [walk_next hhead (sdu_ne_contRes hd) hv (length_long _ _).symm] at h
  simp only [Option.isSome_none, Bool.false_eq_true, false_and, ↓reduceIte] at h
  obtain ⟨new, hnew⟩ := walk_extends h
  have hsteps : new = sduSteps sdus ++ fill := by
    have hsteps := hnew.steps
    simp only [sduSteps, map_cons, append_assoc, cons_append,
      nil_append, append_cancel_left_eq, List.cons.injEq] at hsteps
    exact hsteps.2.symm
  have hcount := hnew.dataInd
  rw [hsteps, countP_append, countP_sduSteps hrest, hfill, length_append, length_append,
    length_cons, Option.toList_none, length_nil] at hcount
  omega

theorem walk_sdus_iff (ue : UeMac) {sdus : List Sdu} (hlt : ∀ d ∈ sdus, d.1 < nrMaxNumLcid)
    (hne : ∀ d ∈ sdus, d.2 ≠ []) {filling : List UInt8} (hfilling : IsFilling filling)
    (hr : r.dataInd.length < maxNumDataInd) (hfuel : (sdusOctets sdus ++ filling).length < fuel) :
    ue.walk fuel (sdusOctets sdus ++ filling) r =
        .ok ⟨r.steps ++ (sduSteps sdus ++ fillingSteps filling), r.dataInd ++ sdus⟩ ↔
      (∀ d ∈ sdus, ue.Takes d) ∧ r.dataInd.length + sdus.length < maxNumDataInd := by
  induction sdus generalizing fuel r with
  | nil =>
    have hwalk := ue.walk_filling hfilling hfuel r
    simpa [sdusOctets, sduSteps, hr] using hwalk
  | cons d sdus ih =>
    obtain ⟨hd, hltrest⟩ := forall_mem_cons.mp hlt
    obtain ⟨hdne, hne⟩ := forall_mem_cons.mp hne
    obtain _ | fuel := fuel
    · cases hfuel
    have hoctets : sdusOctets (d :: sdus) ++ filling =
        (long d.1 d.2).octets ++ (sdusOctets sdus ++ filling) := by
      simp [sdusOctets]
    have hless : (sdusOctets sdus ++ filling).length < fuel := by
      simp only [hoctets, length_append, length_long] at hfuel ⊢
      omega
    rw [hoctets]
    by_cases htakes : ue.Takes d
    · rw [walk_taken hd hdne htakes]
      by_cases hmany : maxNumDataInd ≤ r.dataInd.length + 1
      · simp only [hmany, ↓reduceIte, reduceCtorEq, length_cons, false_iff, not_and]
        omega
      · have := ih hltrest hne (r := ⟨r.steps ++ [(d.1, 3 + d.2.length)], r.dataInd ++ [d]⟩) (by simp; omega) hless
        have hcount : r.dataInd.length + 1 + sdus.length = r.dataInd.length + (sdus.length + 1) := by
          omega
        simpa [hmany, htakes, sduSteps, hcount] using this
    · refine iff_of_false (fun h => htakes ?_) fun h => htakes (h.1 d mem_cons_self)
      exact takes_of_walk hlt (countP_fillingSteps filling) h

section ControlElements

variable {tagId fuel : Nat} {tail : List UInt8} {r : Parsed} {more : List (Nat × Nat)} {ind : List Sdu}

theorem taCommand_eq {ta : Int} (h : taCommand tagId ta = .ok c) : ∃ b, c = .fixed 0x3D [b] := by
  unfold taCommand at h
  split at h
  · cases h
    exact ⟨_, rfl⟩
  · cases h

theorem walk_ta_iff {ta : Int} (h : taCommand tagId ta = .ok c) (hmore : more ≠ []) :
    ue.walk (fuel + 1) (c.octets ++ tail) r = .ok ⟨r.steps ++ (ceSteps [c] ++ more), ind⟩ ↔
      tagId % 4 = ue.tagId ∧ ue.walk fuel tail ⟨r.steps ++ ceSteps [c], r.dataInd⟩ =
        .ok ⟨r.steps ++ ceSteps [c] ++ more, ind⟩ := by
  have hv := ue.visit_ta h tail
  obtain ⟨b, rfl⟩ := taCommand_eq h
  have hhead : (fixed 0x3D [b]).Headed := headed_fixed (by decide) _
  by_cases htag : tagId % 4 = ue.tagId
  · rw [if_pos htag] at hv
    rw [walk_next hhead (by decide : 0x3D ≠ 0x3E) hv rfl]
    simp [ceSteps, htag]
  · rw [if_neg htag] at hv
    rw [walk_done hhead hv]
    simp [ceSteps, htag, hmore.symm]

theorem csiRsCsiIm_eq {i : CsiRsIm} (h : csiRsCsiIm i = .ok c) : c = .fixed 0x37 (i.header :: i.body) := by
  unfold csiRsCsiIm at h
  split at h
  · cases h
  · exact (Except.ok.inj h).symm

theorem walk_csiIm_iff {i : CsiRsIm} (h : csiRsCsiIm i = .ok c) :
    ue.walk (fuel + 1) (c.octets ++ tail) r = .ok ⟨r.steps ++ (ceSteps [c] ++ more), ind⟩ ↔
      i.header.toNat = i.body.length ∧ ue.walk fuel tail ⟨r.steps ++ ceSteps [c], r.dataInd⟩ =
        .ok ⟨r.steps ++ ceSteps [c] ++ more, ind⟩ := by
  have hv := ue.visit_csiIm h tail
  obtain rfl := csiRsCsiIm_eq h
  have hhead : (fixed 0x37 (i.header :: i.body)).Headed := headed_fixed (by decide) _
  by_cases hlen : i.header.toNat = i.body.length
  · rw [walk_next hhead (by decide : 0x37 ≠ 0x3E) hv (by simp [fixed, hlen]; omega)]
    simp [ceSteps, hlen]
  · refine iff_of_false (fun hwalk => hlen ?_) fun hwalk => hlen hwalk.1
    obtain ⟨new, hnew⟩ := walk_first hhead hv hwalk
    simp [ceSteps, fixed] at hnew
    omega

end ControlElements

end UeMac

section Write

theorem ifScheduled_cases {α : Type} {ce : α → Except Fault SubPdu} {o : Option α}
    (h : ifScheduled ce o = .ok ces) : o = none ∧ ces = [] ∨ ∃ a c, o = some a ∧ ce a = .ok c ∧ ces = [c] := by
  cases o with
  | none =>
    cases h
    exact .inl ⟨rfl, rfl⟩
  | some a =>
    obtain ⟨c, hc, hces⟩ := bind_eq_ok.mp h
    cases hces
    exact .inr ⟨a, c, rfl, hc, rfl⟩

theorem stepsOver_tciPdschAperiodicCsi {ue : UeMac} {s : StateSelection}
    (hlcid : lcid ∈ variableCes) (h : tciPdschAperiodicCsi lcid s = .ok c) : ue.StepsOver c := by
  simp only [tciPdschAperiodicCsi] at h
  split at h
  · next hle =>
    cases h
    refine UeMac.stepsOver_short hlcid ?_
    simp only [maxStates] at hle
    simp only [length_cons, length_map, length_range]
    omega
  · cases h

theorem writeCeDlschPdu_cases {tagId : Nat} {c : CeControl} (h : writeCeDlschPdu tagId c false none = .ok ces) :
    ∃ ta mid im, ces = ta ++ (mid ++ im) ∧ (∀ (ue : UeMac), ∀ x ∈ mid, ue.StepsOver x) ∧
      ifScheduled (taCommand tagId) c.taUpdate = .ok ta ∧ ifScheduled csiRsCsiIm c.csiIm = .ok im := by
  obtain ⟨ta, hta, h⟩ := bind_eq_ok.mp h
  obtain ⟨pdsch, hpdsch, h⟩ := bind_eq_ok.mp h
  obtain ⟨aperiodic, haperiodic, h⟩ := bind_eq_ok.mp h
  obtain ⟨im, him, h⟩ := bind_eq_ok.mp h
  cases h
  refine ⟨ta, (c.tciStateInd.map tciPdcch).toList ++ (c.spCsiReportingPucch.map pucchCsiReporting).toList
    ++ pdsch ++ aperiodic ++ (c.spZpCsiRs.map spZpCsiRsResSet).toList, im, by simp, ?_, hta, him⟩
  intro ue x hx
  simp only [mem_append, Option.mem_toList, Option.map_eq_some_iff] at hx
  rcases hx with (((⟨t, _, rfl⟩ | ⟨s, _, rfl⟩) | hx) | hx) | ⟨z, _, rfl⟩
  · exact UeMac.stepsOver_fixed (by decide) (by decide) rfl
  · exact UeMac.stepsOver_fixed (by decide) (by decide) rfl
  · obtain ⟨_, rfl⟩ | ⟨a, y, _, hy, rfl⟩ := ifScheduled_cases hpdsch
    · cases hx
    · cases mem_singleton.mp hx
      exact stepsOver_tciPdschAperiodicCsi (by decide) hy
  · obtain ⟨_, rfl⟩ | ⟨a, y, _, hy, rfl⟩ := ifScheduled_cases haperiodic
    · cases hx
    · cases mem_singleton.mp hx
      exact stepsOver_tciPdschAperiodicCsi (by decide) hy
  · exact UeMac.stepsOver_fixed (by decide) (by decide) rfl

theorem isFilling_padding (n : Nat) : UeMac.IsFilling (padding n) := by
  cases n with
  | zero => simp [UeMac.IsFilling, padding]
  | succ n =>
    intro b hb
    cases hb
    decide

theorem padding_ne_nil {n : Nat} (h : 0 < n) : padding n ≠ [] := by
  obtain _ | n := n
  · cases h
  simp [padding]

theorem DlGrant.fillEmpty_spec (g : DlGrant) {n : Nat} (h : 0 < n) :
    UeMac.IsFilling (g.fillEmpty n) ∧ g.fillEmpty n ≠ [] := by
  unfold DlGrant.fillEmpty
  split
  · refine ⟨fun b hb => ?_, by simp [long]⟩
    cases hb
    decide
  · exact ⟨isFilling_padding n, padding_ne_nil h⟩

end Write

namespace UeMac

variable {ue : UeMac}

theorem walk_ifScheduled (ue : UeMac) {α : Type} {ce : α → Except Fault SubPdu} {good : α → Prop} {o : Option α}
    (h : ifScheduled ce o = .ok ces) (r : Parsed)
    (more : List (Nat × Nat)) (ind : List Sdu) (hone : ∀ a c fuel, ce a = .ok c → c.octets ≠ [] ∧
      (ue.walk (fuel + 1) (c.octets ++ tail) r = .ok ⟨r.steps ++ (ceSteps [c] ++ more), ind⟩ ↔
        good a ∧ ue.walk fuel tail ⟨r.steps ++ ceSteps [c], r.dataInd⟩ = .ok ⟨r.steps ++ ceSteps [c] ++ more, ind⟩))
    (hfuel : (cesOctets ces ++ tail).length < fuel) : ∃ fuel', tail.length < fuel' ∧
      (ue.walk fuel (cesOctets ces ++ tail) r = .ok ⟨r.steps ++ (ceSteps ces ++ more), ind⟩ ↔
        (∀ a, o = some a → good a) ∧ ue.walk fuel' tail ⟨r.steps ++ ceSteps ces, r.dataInd⟩ =
          .ok ⟨r.steps ++ ceSteps ces ++ more, ind⟩) := by
  obtain ⟨rfl, rfl⟩ | ⟨a, c, rfl, hc, rfl⟩ := ifScheduled_cases h
  · exact ⟨fuel, hfuel, by simp [cesOctets, ceSteps]⟩
  · obtain ⟨fuel, rfl⟩ := Nat.exists_eq_add_one_of_ne_zero (Nat.ne_zero_of_lt hfuel)
    obtain ⟨hne, hiff⟩ := hone a c fuel hc
    have hpos : 0 < c.octets.length := length_pos_iff.mpr hne
    have hoctets : cesOctets [c] = c.octets := by simp [cesOctets]
    rw [hoctets] at hfuel ⊢
    refine ⟨fuel, by rw [length_append] at hfuel; omega, ?_⟩
    simpa using hiff

end UeMac

end OaiNr.Mac
