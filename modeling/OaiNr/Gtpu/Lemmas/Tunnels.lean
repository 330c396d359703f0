import OaiNr.Lib.Fallible
import OaiNr.Lib.Table
import OaiNr.Gtpu.Tunnels

/-!
# The tunnel tables, call by call
-/

namespace OaiNr.Gtpu

open Option Tables

open Table (lookup_insert lookup_erase)

variable {s s' : Tables} {T : Tunnels} {u b u' b' : Nat} {tunnel tunnel' : Tunnel}
  (h : Represents s T)

section Tables

theorem bearer_insert (te2ue : AList fun _ : Nat => UeidData) (ue2te : AList fun _ : Nat => Bearers)
    (bearers : Bearers) : (mk te2ue (ue2te.insert u bearers)).bearer u' b' =
      if u' = u then bearers.lookup b' else (mk te2ue ue2te).bearer u' b' := by
  rw [bearer, lookup_insert]
  split <;> rfl

theorem bearer_erase (te2ue : AList fun _ : Nat => UeidData) (ue2te : AList fun _ : Nat => Bearers) :
    (mk te2ue (ue2te.erase u)).bearer u' b' = if u' = u then none else (mk te2ue ue2te).bearer u' b' := by
  rw [bearer, lookup_erase]
  split <;> rfl

end Tables

section Represents

theorem Represents.empty : Represents .empty fun _ _ => none :=
  ⟨fun _ _ => rfl, fun _ _ => ⟨nofun, fun ⟨_, _, _, h, _⟩ => nomatch h⟩⟩

include h

theorem Represents.lookup_teid (htunnel : T u b = some tunnel) :
    s.te2ue.lookup tunnel.bearer.teidIncoming.toNat = some (tunnel.entry u b) :=
  (h.te2ue _ _).mpr ⟨u, b, tunnel, htunnel, rfl, rfl⟩

theorem Represents.teid_inj (htunnel : T u b = some tunnel) (htunnel' : T u' b' = some tunnel')
    (hteid : tunnel.bearer.teidIncoming.toNat = tunnel'.bearer.teidIncoming.toNat) : u = u' ∧ b = b' := by
  have hlookup := h.lookup_teid htunnel
  rw [hteid, h.lookup_teid htunnel'] at hlookup
  have hentry := (Option.some.inj hlookup).symm
  exact ⟨congrArg UeidData.ueId hentry, congrArg UeidData.pduSessionId hentry⟩

theorem Represents.bearer_eq_none : s.bearer u b = none ↔ T u b = none := by
  rw [h.ue2te, map_eq_none_iff]

theorem Represents.lookup_bearers {bearers : Bearers} (hue : s.ue2te.lookup u = some bearers)
    (b : Nat) : bearers.lookup b = (T u b).map Tunnel.bearer := by
  rw [← h.ue2te, bearer, hue]
  rfl

end Represents

section Delete

variable {gone : Nat → Nat → Prop} [∀ u b, Decidable (gone u b)]

theorem remove_of_none (hnone : ∀ u b, gone u b → T u b = none) : (fun u b => if gone u b then none else T u b) = T := by
  funext u b
  split
  next hgone => rw [hnone u b hgone]
  next => rfl

include h

/-- Tunnels are deleted when both tables lose them. -/
theorem Represents.remove (hue2te : ∀ u b, s'.bearer u b = if gone u b then none else s.bearer u b)
    (hte2ue : ∀ teid entry, s'.te2ue.lookup teid = some entry ↔ s.te2ue.lookup teid = some entry ∧
      ∀ u b tunnel, gone u b → T u b = some tunnel → tunnel.bearer.teidIncoming.toNat ≠ teid) :
    Represents s' fun u b => if gone u b then none else T u b := by
  constructor
  · intro u b
    rw [hue2te]
    split
    next => rfl
    next => exact h.ue2te u b
  · intro teid entry
    rw [hte2ue, h.te2ue]
    constructor
    · rintro ⟨⟨u, b, tunnel, htunnel, rfl, rfl⟩, hother⟩
      refine ⟨u, b, tunnel, ?_, rfl, rfl⟩
      rw [if_neg fun hgone => hother u b tunnel hgone htunnel rfl, htunnel]
    · rintro ⟨u, b, tunnel, htunnel, rfl, rfl⟩
      split at htunnel
      next => cases htunnel
      next hstays =>
        refine ⟨⟨u, b, tunnel, htunnel, rfl, rfl⟩, fun u' b' tunnel' hgone htunnel' hteid => hstays ?_⟩
        obtain ⟨rfl, rfl⟩ := h.teid_inj htunnel htunnel' hteid.symm
        exact hgone

theorem newGtpuDeleteOneTunnel_represents (rbId : Int) :
    Represents (s.newGtpuDeleteOneTunnel u rbId) (T.deleteOne u (key rbId)) := by
  unfold Tunnels.deleteOne
  have hnone : s.bearer u (key rbId) = none →
      Represents s fun u' b' => if u' = u ∧ b' = key rbId then none else T u' b' := by
    intro hnone
    rw [remove_of_none]
    · exact h
    · rintro _ _ ⟨rfl, rfl⟩
      exact h.bearer_eq_none.mp hnone
  rw [newGtpuDeleteOneTunnel]
  cases hue : s.ue2te.lookup u with
  | none => exact hnone (by rw [bearer, hue]; rfl)
  | some bearers =>
    cases hbearer : bearers.lookup (key rbId) with
    | none =>
      simp only [hbearer]
      exact hnone (by rw [bearer, hue]; exact hbearer)
    | some bearer =>
      simp only [hbearer]
      obtain ⟨tunnel, htunnel, rfl⟩ := map_eq_some_iff.mp ((h.lookup_bearers hue _).symm.trans hbearer)
      refine h.remove (fun u' b' => ?_) fun teid entry => ?_
      · rw [bearer_insert, lookup_erase]
        by_cases hu : u' = u
        · rw [if_pos hu, h.lookup_bearers hue, ← h.ue2te]
          simp only [hu, true_and]
        · rw [if_neg hu, if_neg fun h => hu h.1]
          rfl
      · rw [lookup_erase, ite_none_left_eq_some, and_comm]
        refine and_congr_right fun _ => ⟨?_, fun hother hteid => hother u _ tunnel ⟨rfl, rfl⟩ htunnel hteid.symm⟩
        rintro hteid _ _ tunnel' ⟨rfl, rfl⟩ htunnel'
        cases htunnel.symm.trans htunnel'
        exact Ne.symm hteid

theorem newGtpuDeleteAllTunnels_represents :
    Represents (s.newGtpuDeleteAllTunnels u) (T.deleteAll u) := by
  unfold Tunnels.deleteAll
  rw [newGtpuDeleteAllTunnels]
  cases hue : s.ue2te.lookup u with
  | none =>
    rw [remove_of_none]
    · exact h
    · rintro _ b rfl
      exact h.bearer_eq_none.mp (by rw [bearer, hue]; rfl)
  | some bearers =>
    refine h.remove (fun u' b' => bearer_erase ..) fun teid entry => ?_
    rw [Table.lookup_foldl_erase, ite_none_left_eq_some, and_comm, Table.exists_entry_iff
      (P := fun _ (bearer : TunnelBearer) => bearer.teidIncoming.toNat = teid)]
    -- the TEIDs of the entries are those of the UE's tunnels
    simp only [h.lookup_bearers hue, map_eq_some_iff]
    refine and_congr_right fun _ => ⟨?_, ?_⟩
    · rintro hteids _ b tunnel rfl htunnel hteid
      exact hteids ⟨b, tunnel.bearer, ⟨tunnel, htunnel, rfl⟩, hteid⟩
    · rintro hother ⟨b, -, ⟨tunnel, htunnel, rfl⟩, hteid⟩
      exact hother u b tunnel rfl htunnel hteid

end Delete

section Create

variable {req : Tables.CreateTunnel} {draws : List (Fin (2 ^ 31) × Fin (2 ^ 31))} {teid : UInt32}

theorem freshTeid_notMem {te2ue : AList fun _ : Nat => UeidData} (h : freshTeid te2ue draws = some teid) :
    te2ue.lookup teid.toNat = none := by
  induction draws with
  | nil => cases h
  | cons r draws ih =>
    rw [freshTeid] at h
    split at h
    next => exact ih h
    next hnot =>
      cases h
      exact AList.lookup_eq_none.mpr hnot

def createdEntry (req : Tables.CreateTunnel) : UeidData :=
  ⟨req.ueId, (req.incomingBearerId % 2 ^ 16).toNat, req.callBack, req.outgoingTeid, req.callBackSdap,
    (req.outgoingBearerId % 2 ^ 8).toNat⟩

def createdTunnel (req : Tables.CreateTunnel) (teid : UInt32) : Tunnel :=
  ⟨⟨teid, req.outgoingTeid⟩, (req.incomingBearerId % 2 ^ 16).toNat, req.callBack, req.callBackSdap⟩

theorem newGtpuCreateTunnel_eq (hcreate : s.newGtpuCreateTunnel req draws = .ok (s', teid)) :
    s.te2ue.lookup teid.toNat = none ∧ s'.te2ue = s.te2ue.insert teid.toNat (createdEntry req) ∧
      (s.bearer req.ueId (key req.outgoingBearerId) = none → ∀ u b, s'.bearer u b =
        if u = req.ueId ∧ b = key req.outgoingBearerId then some ⟨teid, req.outgoingTeid⟩ else s.bearer u b) := by
  rw [newGtpuCreateTunnel] at hcreate
  dsimp only at hcreate
  split at hcreate
  next => cases hcreate
  next teid' hfresh =>
    split at hcreate
    next => cases hcreate
    next =>
      cases hcreate
      refine ⟨freshTeid_notMem hfresh, rfl, fun hnone u b => ?_⟩
      simp only [hnone, isSome_none, Bool.false_eq_true, if_false]
      rw [bearer_insert]
      have hs : (mk (s.te2ue.insert teid.toNat (createdEntry req)) s.ue2te).bearer u b = s.bearer u b := rfl
      by_cases hu : u = req.ueId
      · subst hu
        rw [if_pos rfl, lookup_insert]
        by_cases hb : b = key req.outgoingBearerId
        · rw [if_pos hb, if_pos ⟨rfl, hb⟩]
        · rw [if_neg hb, if_neg fun h => hb h.2, bearer]
          show (Option.getD (s.ue2te.lookup req.ueId) ∅).lookup b = _
          cases s.ue2te.lookup req.ueId <;> rfl
      · rw [if_neg hu, if_neg fun h => hu h.1]
        exact hs

theorem entry_createdTunnel (teid : UInt32) (hkey : key req.outgoingBearerId < 256) :
    createdEntry req = (createdTunnel req teid).entry req.ueId (key req.outgoingBearerId) := by
  have hid : (req.outgoingBearerId % 2 ^ 8).toNat = key req.outgoingBearerId := by
    rw [key] at hkey ⊢
    omega
  rw [createdEntry, hid]
  rfl

theorem newGtpuCreateTunnel_represents_iff (h : Represents s T)
    (hcreate : s.newGtpuCreateTunnel req draws = .ok (s', teid)) :
    Represents s' (T.create req.ueId (key req.outgoingBearerId) (createdTunnel req teid)) ↔
      key req.outgoingBearerId < 256 ∧ s.bearer req.ueId (key req.outgoingBearerId) = none := by
  obtain ⟨hfresh, hte2ue, hue2te⟩ := newGtpuCreateTunnel_eq hcreate
  constructor
  · intro h'
    have hnew : T.create req.ueId (key req.outgoingBearerId) (createdTunnel req teid) req.ueId
        (key req.outgoingBearerId) = some (createdTunnel req teid) := if_pos ⟨rfl, rfl⟩
    constructor
    · -- the entry of the new TEID has the bearer id as an octet
      have hentry := h'.lookup_teid hnew
      rw [hte2ue] at hentry
      have hid : (req.outgoingBearerId % 2 ^ 8).toNat = key req.outgoingBearerId :=
        congrArg UeidData.pduSessionId (Option.some.inj ((AList.lookup_insert _).symm.trans hentry))
      omega
    · -- the TEID of a tunnel that was there still has its entry
      rw [h.bearer_eq_none]
      cases hold : T req.ueId (key req.outgoingBearerId) with
      | none => rfl
      | some tunnel =>
        have hentry := h.lookup_teid hold
        have hne : tunnel.bearer.teidIncoming.toNat ≠ teid.toNat := by
          intro heq
          rw [heq, hfresh] at hentry
          cases hentry
        obtain ⟨u, b, tunnel', htunnel', hteid, hsame⟩ := (h'.te2ue tunnel.bearer.teidIncoming.toNat _).mp
          (by rw [hte2ue, AList.lookup_insert_ne hne]; exact hentry)
        have hu : req.ueId = u := congrArg UeidData.ueId hsame
        have hb : key req.outgoingBearerId = b := congrArg UeidData.pduSessionId hsame
        rw [← hu, ← hb, hnew] at htunnel'
        cases htunnel'
        exact absurd hteid.symm hne
  · rintro ⟨hkey, hnone⟩
    have hue2te := hue2te hnone
    constructor
    · intro u b
      rw [hue2te, Tunnels.create]
      split
      next => rfl
      next => exact h.ue2te u b
    · intro teid' entry
      rw [hte2ue, lookup_insert, entry_createdTunnel teid hkey]
      constructor
      · intro hentry
        split at hentry
        next heq =>
          cases hentry
          exact ⟨req.ueId, _, createdTunnel req teid, if_pos ⟨rfl, rfl⟩, heq.symm, rfl⟩
        next =>
          obtain ⟨u, b, tunnel, htunnel, rfl, rfl⟩ := (h.te2ue _ _).mp hentry
          refine ⟨u, b, tunnel, ?_, rfl, rfl⟩
          rw [Tunnels.create, if_neg, htunnel]
          rintro ⟨rfl, rfl⟩
          rw [h.bearer_eq_none.mp hnone] at htunnel
          cases htunnel
      · rintro ⟨u, b, tunnel, htunnel, rfl, rfl⟩
        rw [Tunnels.create] at htunnel
        split at htunnel
        next heq =>
          cases htunnel
          rw [heq.1, heq.2]
          exact if_pos rfl
        next =>
          have hentry := h.lookup_teid htunnel
          rw [if_neg, hentry]
          intro heq
          rw [heq, hfresh] at hentry
          cases hentry

end Create

section UpdateLoop

variable {oldUeId newUeId rounds i : Nat} {te2ue : AList fun _ : Nat => UeidData} {bearers : Bearers}

def UeidData.renamed (oldUeId newUeId : Nat) (entry : UeidData) : UeidData :=
  if entry.ueId = oldUeId then { entry with ueId := newUeId } else entry

theorem UeidData.renamed_renamed (entry : UeidData) :
    (entry.renamed oldUeId newUeId).renamed oldUeId newUeId = entry.renamed oldUeId newUeId := by
  unfold UeidData.renamed
  split
  next => split <;> rfl
  next => rfl

def TeidFrom (bearers : Bearers) (i teid : Nat) : Prop :=
  ∃ b bearer, i ≤ b ∧ bearers.lookup b = some bearer ∧ bearer.teidIncoming.toNat = teid

open Classical in
theorem updateLoop_numbered (hnumbered : ∀ j, j ∈ bearers ↔ j < bearers.keys.length)
    (hlt : bearers.keys.length < 2 ^ 32) (hi : i ≤ bearers.keys.length) (hrounds : bearers.keys.length - i < rounds)
    (hentries : ∀ b bearer, bearers.lookup b = some bearer → (te2ue.lookup bearer.teidIncoming.toNat).isSome) :
    ∃ te2ue', updateLoop oldUeId newUeId rounds i te2ue bearers = .ok (te2ue', bearers) ∧
      ∀ teid, te2ue'.lookup teid = (te2ue.lookup teid).map fun entry =>
        if TeidFrom bearers i teid then entry.renamed oldUeId newUeId else entry := by
  induction rounds generalizing i te2ue with
  | zero => omega
  | succ rounds ih =>
    by_cases hend : bearers.keys.length ≤ i
    · refine ⟨te2ue, by rw [updateLoop, if_pos hend], fun teid => ?_⟩
      have hnone : ¬ TeidFrom bearers i teid := by
        rintro ⟨b, bearer, hb, hbearer, -⟩
        have hmem : b ∈ bearers := AList.lookup_isSome.mp (by rw [hbearer]; rfl)
        have := (hnumbered b).mp hmem
        omega
      simp only [if_neg hnone, map_id_fun', id_eq]
    · have hmem : i ∈ bearers := (hnumbered i).mpr (Nat.not_le.mp hend)
      obtain ⟨bearer, hbearer⟩ := isSome_iff_exists.mp (AList.lookup_isSome.mpr hmem)
      obtain ⟨entry, hentry⟩ := isSome_iff_exists.mp (hentries i bearer hbearer)
      have hnext : (i + 1) % 2 ^ 32 = i + 1 := Nat.mod_eq_of_lt (by omega)
      have hlookup : ∀ teid, (te2ue.insert bearer.teidIncoming.toNat (entry.renamed oldUeId newUeId)).lookup teid =
          (te2ue.lookup teid).map fun entry =>
            if teid = bearer.teidIncoming.toNat then entry.renamed oldUeId newUeId else entry := by
        intro teid
        rw [lookup_insert]
        by_cases heq : teid = bearer.teidIncoming.toNat
        · rw [if_pos heq, heq, hentry]
          simp
        · simp [if_neg heq]
      have hentries' : ∀ b bearer', bearers.lookup b = some bearer' →
          ((te2ue.insert bearer.teidIncoming.toNat (entry.renamed oldUeId newUeId)).lookup
            bearer'.teidIncoming.toNat).isSome := by
        intro b bearer' hbearer'
        rw [hlookup, isSome_map]
        exact hentries b bearer' hbearer'
      obtain ⟨te2ue', hloop, hte2ue'⟩ := ih (i := i + 1) (by omega) (by omega) hentries'
      refine ⟨te2ue', ?_, fun teid => ?_⟩
      · rw [updateLoop, if_neg hend, hbearer, hnext]
        simp only [getD_some, hentry, if_pos hmem]
        exact hloop
      · rw [hte2ue', hlookup, map_map]
        congr 1
        funext entry'
        have hiff : TeidFrom bearers i teid ↔ teid = bearer.teidIncoming.toNat ∨ TeidFrom bearers (i + 1) teid := by
          constructor
          · rintro ⟨b, bearer', hb, hbearer', hteid⟩
            by_cases hbi : b = i
            · subst hbi
              cases hbearer.symm.trans hbearer'
              exact .inl hteid.symm
            · exact .inr ⟨b, bearer', by omega, hbearer', hteid⟩
          · rintro (rfl | ⟨b, bearer', hb, hbearer', hteid⟩)
            · exact ⟨i, bearer, Nat.le_refl i, hbearer, rfl⟩
            · exact ⟨b, bearer', by omega, hbearer', hteid⟩
        by_cases heq : teid = bearer.teidIncoming.toNat
        · simp only [Function.comp_apply, hiff, if_pos heq, if_pos (Or.inl heq : _ ∨ TeidFrom bearers (i + 1) teid),
            UeidData.renamed_renamed, ite_self]
        · simp only [Function.comp_apply, if_neg heq]
          exact if_congr (hiff.trans (or_iff_right heq)).symm rfl rfl

/-- The loop reaches every number below the size, and leaves the entries of other UEs alone. -/
theorem updateLoop_ok {r : (AList fun _ : Nat => UeidData) × Bearers}
    (hloop : updateLoop oldUeId newUeId rounds i te2ue bearers = .ok r) (hi : ∀ j, j < i → j ∈ bearers) :
    (∀ j, j < bearers.keys.length → j ∈ r.2) ∧ ∀ teid entry, te2ue.lookup teid = some entry → entry.ueId ≠ oldUeId →
      r.1.lookup teid = some entry := by
  induction rounds generalizing i te2ue bearers with
  | zero => cases hloop
  | succ rounds ih =>
    rw [updateLoop] at hloop
    split at hloop
    next hend =>
      cases hloop
      exact ⟨fun j hj => hi j (by omega), fun _ _ hentry _ => hentry⟩
    next hend =>
      have hmem (k : Nat) (hk : k < (i + 1) % 2 ^ 32) : k ∈ if i ∈ bearers then bearers else bearers.insert i .default := by
        have hk' : k < i ∨ k = i := Nat.lt_or_eq_of_le (Nat.le_of_lt_succ (Nat.lt_of_lt_of_le hk (Nat.mod_le _ _)))
        split
        next hmem => exact hk'.elim (hi k) (fun heq => heq ▸ hmem)
        next => exact (AList.mem_insert _).mpr (hk'.symm.imp_right (hi k))
      obtain ⟨hcovers, hkeeps⟩ := ih hloop hmem
      refine ⟨fun j hj => hcovers j ?_, fun teid entry hentry hne => hkeeps teid entry ?_ hne⟩
      · split
        next => exact hj
        next hnot =>
          rw [AList.keys_insert, List.erase_of_not_mem hnot, List.length_cons]
          omega
      · rw [lookup_insert]
        split
        next heq => rw [← heq, hentry, getD_some, if_neg hne]
        next => exact hentry

end UpdateLoop

section Update

variable {oldUeId newUeId : Nat} {bearers : Bearers}

theorem keys_eq_nil_iff (h : Represents s T) (hue : s.ue2te.lookup oldUeId = some bearers) :
    bearers.keys = [] ↔ ∀ b, T oldUeId b = none := by
  rw [List.eq_nil_iff_forall_not_mem]
  refine forall_congr' fun b => ?_
  rw [← AList.mem_keys, ← AList.lookup_eq_none, h.lookup_bearers hue, map_eq_none_iff]

theorem rename_of_none (hnone : ∀ b, T oldUeId b = none) : T.rename oldUeId newUeId = T := by
  refine if_neg ?_
  rintro ⟨b, hb⟩
  rw [hnone b] at hb
  cases hb

theorem rename_of_some (hsome : T oldUeId b = some tunnel) :
    T.rename oldUeId newUeId = fun u b => if u = newUeId then T oldUeId b else if u = oldUeId then none else T u b :=
  if_pos ⟨b, by rw [hsome]; rfl⟩

theorem rename_eq (hnew : ∀ b, T newUeId b = none) :
    T.rename oldUeId newUeId = fun u b => if u = newUeId then T oldUeId b else if u = oldUeId then none else T u b := by
  by_cases hold : ∀ b, T oldUeId b = none
  · rw [rename_of_none hold]
    funext u b
    split
    next hu => rw [hu, hnew, hold]
    next =>
      split
      next hu => rw [hu, hold]
      next => rfl
  · obtain ⟨b, hb⟩ := not_forall.mp hold
    obtain ⟨tunnel, htunnel⟩ := ne_none_iff_exists'.mp hb
    exact rename_of_some htunnel

theorem renamed_entry (tunnel : Tunnel) (u b : Nat) :
    (tunnel.entry u b).renamed oldUeId newUeId = tunnel.entry (if u = oldUeId then newUeId else u) b := by
  unfold UeidData.renamed
  show (if u = oldUeId then _ else _) = _
  split <;> rfl

theorem gtpv1uUpdateUeId_represents (h : Represents s T) (hue : s.ue2te.lookup oldUeId = some bearers)
    (hnumbered : ∀ j, j ∈ bearers ↔ j < bearers.keys.length) (hlt : bearers.keys.length < 2 ^ 32)
    (hne : newUeId ≠ oldUeId) (hnew : ∀ b, T newUeId b = none) :
    ∃ s', s.gtpv1uUpdateUeId oldUeId newUeId = .ok s' ∧ Represents s' (T.rename oldUeId newUeId) := by
  have hentries : ∀ b bearer, bearers.lookup b = some bearer → (s.te2ue.lookup bearer.teidIncoming.toNat).isSome := by
    intro b bearer hbearer
    rw [h.lookup_bearers hue, map_eq_some_iff] at hbearer
    obtain ⟨tunnel, htunnel, rfl⟩ := hbearer
    rw [h.lookup_teid htunnel]
    rfl
  obtain ⟨te2ue', hloop, hte2ue'⟩ := @updateLoop_numbered oldUeId newUeId (2 ^ 32 + 1) 0 s.te2ue bearers hnumbered hlt
    (Nat.zero_le _) (by omega) hentries
  -- the entry of a tunnel has the new id if it had the old one
  have hentry : ∀ u b tunnel, T u b = some tunnel → te2ue'.lookup tunnel.bearer.teidIncoming.toNat =
      some (tunnel.entry (if u = oldUeId then newUeId else u) b) := by
    intro u b tunnel htunnel
    rw [hte2ue', h.lookup_teid htunnel, map_some, ← renamed_entry]
    split
    next => rfl
    next hfrom =>
      have hu : u ≠ oldUeId := by
        rintro rfl
        exact hfrom ⟨b, tunnel.bearer, Nat.zero_le b, by rw [h.lookup_bearers hue, htunnel]; rfl, rfl⟩
      rw [renamed_entry, if_neg hu]
  refine ⟨⟨te2ue', (s.ue2te.insert newUeId bearers).erase oldUeId⟩, ?_, ?_⟩
  · rw [gtpv1uUpdateUeId, hue]
    show updateLoop _ _ _ _ _ _ >>= _ = _
    rw [hloop]
    rfl
  · rw [rename_eq hnew]
    constructor
    · intro u b
      rw [bearer_erase, bearer_insert]
      by_cases hu : u = newUeId
      · rw [if_neg (hu ▸ hne), if_pos hu, if_pos hu, h.lookup_bearers hue]
      · rw [if_neg hu, if_neg hu]
        split
        next => rfl
        next => exact h.ue2te u b
    · intro teid entry
      constructor
      · intro hlookup
        obtain ⟨entry', hold, -⟩ := map_eq_some_iff.mp ((hte2ue' teid).symm.trans hlookup)
        obtain ⟨u, b, tunnel, htunnel, rfl, rfl⟩ := (h.te2ue _ _).mp hold
        cases hlookup.symm.trans (hentry u b tunnel htunnel)
        refine ⟨_, b, tunnel, ?_, rfl, rfl⟩
        by_cases hu : u = oldUeId
        · rw [if_pos hu, if_pos rfl, ← hu, htunnel]
        · have hu' : u ≠ newUeId := by
            rintro rfl
            rw [hnew] at htunnel
            cases htunnel
          rw [if_neg hu, if_neg hu', if_neg hu, htunnel]
      · rintro ⟨u, b, tunnel, htunnel, rfl, rfl⟩
        split at htunnel
        next hu => rw [hentry oldUeId b tunnel htunnel, if_pos rfl, hu]
        next =>
          split at htunnel
          next => cases htunnel
          next hu => rw [hentry u b tunnel htunnel, if_neg hu]

section Necessity

variable {r : (AList fun _ : Nat => UeidData) × Bearers}
  (h' : Represents ⟨r.1, (s.ue2te.insert newUeId r.2).erase oldUeId⟩ (T.rename oldUeId newUeId))
  (hue : s.ue2te.lookup oldUeId = some bearers)
  (hloop : updateLoop oldUeId newUeId (2 ^ 32 + 1) 0 s.te2ue bearers = .ok r)

include h h' hue hloop

theorem updateUeId_good : (∀ i, i ∈ bearers ↔ i < bearers.keys.length) ∧
      ((bearers.keys = [] ∧ newUeId = oldUeId) ∨ (newUeId ≠ oldUeId ∧ ∀ b, s.bearer newUeId b = none)) := by
  by_cases hempty : bearers.keys = []
  · have hnone := (keys_eq_nil_iff h hue).mp hempty
    refine ⟨fun i => ?_, ?_⟩
    · rw [AList.mem_keys, hempty]
      exact iff_of_false List.not_mem_nil (Nat.not_lt_zero i)
    · by_cases hne : newUeId = oldUeId
      · exact .inl ⟨hempty, hne⟩
      · refine .inr ⟨hne, fun b => ?_⟩
        rw [updateLoop, if_pos (by rw [hempty]; exact Nat.le_refl 0)] at hloop
        cases hloop
        have hbearer := h'.ue2te newUeId b
        rw [bearer_erase, if_neg hne, bearer_insert, if_pos rfl, rename_of_none hnone, h.lookup_bearers hue, hnone,
          ← h.ue2te] at hbearer
        exact hbearer.symm
  · obtain ⟨b₀, hb₀⟩ := not_forall.mp (mt (keys_eq_nil_iff h hue).mpr hempty)
    obtain ⟨tunnel₀, htunnel₀⟩ := ne_none_iff_exists'.mp hb₀
    rw [rename_of_some htunnel₀] at h'
    have hne : newUeId ≠ oldUeId := by
      -- the tunnels would be erased
      rintro rfl
      have hbearer := h'.ue2te newUeId b₀
      rw [bearer_erase, if_pos rfl, if_pos rfl, htunnel₀] at hbearer
      cases hbearer
    obtain ⟨hcovers, hkeeps⟩ := updateLoop_ok hloop fun j hj => absurd hj (Nat.not_lt_zero j)
    have hsubset : List.range bearers.keys.length ⊆ bearers.keys := by
      intro j hj
      have hbearer := h'.ue2te newUeId j
      rw [bearer_erase, if_neg hne, bearer_insert, if_pos rfl, if_pos rfl, ← h.lookup_bearers hue] at hbearer
      rw [← AList.mem_keys, ← AList.lookup_isSome, ← hbearer]
      exact AList.lookup_isSome.mpr (hcovers j (List.mem_range.mp hj))
    have hperm : (List.range bearers.keys.length).Perm bearers.keys :=
      (List.subperm_of_subset List.nodup_range hsubset).perm_of_length_le (by rw [List.length_range])
    refine ⟨fun i => ?_, .inr ⟨hne, fun b => h.bearer_eq_none.mpr ?_⟩⟩
    · rw [AList.mem_keys, ← hperm.mem_iff, List.mem_range]
    · -- the entry of a tunnel under the new id would stay, with nothing that it is for
      cases htunnel : T newUeId b with
      | none => rfl
      | some tunnel =>
        have hentry := hkeeps _ _ (h.lookup_teid htunnel) hne
        obtain ⟨u, b', tunnel', htunnel', hteid, hsame⟩ := (h'.te2ue _ _).mp hentry
        have hu : newUeId = u := congrArg UeidData.ueId hsame
        rw [if_pos hu.symm] at htunnel'
        exact absurd (h.teid_inj htunnel htunnel' hteid.symm).1 hne

end Necessity

theorem gtpv1uUpdateUeId_represents_iff (h : Represents s T) (hsmall : ∀ u b tunnel, T u b = some tunnel → b < 256)
    (hupdate : s.gtpv1uUpdateUeId oldUeId newUeId = .ok s') :
    Represents s' (T.rename oldUeId newUeId) ↔ ∀ bearers, s.ue2te.lookup oldUeId = some bearers →
      (∀ i, i ∈ bearers ↔ i < bearers.keys.length) ∧
        ((bearers.keys = [] ∧ newUeId = oldUeId) ∨ (newUeId ≠ oldUeId ∧ ∀ b, s.bearer newUeId b = none)) := by
  cases hue : s.ue2te.lookup oldUeId with
  | none =>
    rw [gtpv1uUpdateUeId, hue] at hupdate
    cases hupdate
    have hnone : ∀ b, T oldUeId b = none := fun b => h.bearer_eq_none.mp (by rw [bearer, hue]; rfl)
    rw [rename_of_none hnone]
    exact iff_of_true h nofun
  | some bearers =>
    simp only [Option.some.injEq, forall_eq']
    constructor
    · intro h'
      have hresult := hupdate
      rw [gtpv1uUpdateUeId, hue] at hresult
      obtain ⟨r, hloop, hs'⟩ := bind_eq_ok.mp hresult
      cases hs'
      exact updateUeId_good h h' hue hloop
    · rintro ⟨hnumbered, ⟨hempty, rfl⟩ | ⟨hne, hnew⟩⟩
      · have hnone := (keys_eq_nil_iff h hue).mp hempty
        rw [gtpv1uUpdateUeId, hue] at hupdate
        obtain ⟨r, hloop, hs'⟩ := bind_eq_ok.mp hupdate
        rw [updateLoop, if_pos (by rw [hempty]; exact Nat.le_refl 0)] at hloop
        cases hloop
        cases hs'
        rw [rename_of_none hnone]
        refine ⟨fun u b => ?_, h.te2ue⟩
        rw [bearer_erase, bearer_insert, ← h.ue2te]
        split
        next hu => rw [hu, h.bearer_eq_none.mpr (hnone b)]
        next => rfl
      · have hlt : bearers.keys.length < 2 ^ 32 := by
          refine Nat.lt_of_not_le fun hle => ?_
          have hmem := AList.lookup_isSome.mpr ((hnumbered 256).mpr (by omega))
          rw [h.lookup_bearers hue, isSome_map] at hmem
          obtain ⟨tunnel, htunnel⟩ := isSome_iff_exists.mp hmem
          exact absurd (hsmall oldUeId 256 tunnel htunnel) (Nat.lt_irrefl 256)
        obtain ⟨s'', hupdate', h'⟩ := gtpv1uUpdateUeId_represents h hue hnumbered hlt hne
          fun b => h.bearer_eq_none.mp (hnew b)
        cases hupdate.symm.trans hupdate'
        exact h'

end Update

end OaiNr.Gtpu
