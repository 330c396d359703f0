import OaiNr.Lib.Trace
import OaiNr.Nas.Lemmas.Receive
import OaiNr.Nas.Replay

/-!
# COUNT under one context

Under the KAMF of the context, the accepted messages have COUNTs below the one that is expected next, except a Security
Mode Command that was the last one accepted.
-/

namespace OaiNr.Nas

open List

variable {crypto : Crypto} {decoders : Decoders} {nas nas' : NrUeNas} {b b' : Buffer} {m : Received} {w w' : Watched}
  {container : Container} {handler : Handler} {mem : Nat → UInt8} {state : SecurityState} {a : Accepted}

section Octets

theorem drop_octets (b : Buffer) (k : Nat) : b.octets.drop k = b.slice k (b.len - k) := by
  refine ext_getElem ?_ fun i h₁ h₂ => ?_
  · simp [Buffer.octets, Buffer.slice]
  · simp [Buffer.octets, Buffer.slice]

theorem take_drop_octets {k n : Nat} (h : k + n ≤ b.len) : (b.octets.drop k).take n = b.slice k n := by
  rw [drop_octets, Buffer.slice, Buffer.slice, ← map_take, take_range, Nat.min_eq_left (by omega)]

end Octets

def Accepted.Verified (crypto : Crypto) (a : Accepted) : Prop := (a.octets.drop 2).take nasIntegritySize = a.mac crypto

section Handlers

theorem activateSecurityMode_ok (hhdr : nasSecurityGetSecHdr b = some 3) {mac : List UInt8}
    (hmac : nasSecurityGetMac b = some mac) (h : activateSecurityMode crypto nas mem b mac = .ok nas') :
    nas'.security.nasCountDl = nas.security.nasCountDl ∧
      ((∃ a, commandAccepted crypto nas b = some a ∧ nas'.securityContainer = some a.container) ∨
        commandAccepted crypto nas b = none ∧ nas'.securityContainer = none) := by
  rw [activateSecurityMode] at h
  rw [commandAccepted, hhdr, hmac]
  split at h
  · next hnull =>
    rw [rejectSecurityMode_ok h]
    refine ⟨rfl, .inr ⟨?_, rfl⟩⟩
    cases nas.newContainer crypto b with
    | error fault => rfl
    | ok container => exact if_neg fun h => h.2.1 hnull
  · next hnull =>
    obtain ⟨container, hnew, hrest⟩ := bind_eq_ok.mp h
    rw [hnew]
    split at hrest
    · next hne =>
      rw [rejectSecurityMode_ok hrest]
      exact ⟨rfl, .inr ⟨if_neg fun h => hne (Option.some.inj h.2.2).symm, rfl⟩⟩
    · next heq =>
      obtain ⟨⟨nas₁, octets⟩, hcomplete, rfl⟩ := map_eq_ok.mp hrest
      rw [generateSecurityModeComplete_ok hcomplete]
      exact ⟨rfl, .inl ⟨_, if_pos ⟨rfl, hnull, by rw [Decidable.of_not_not heq]⟩, rfl⟩⟩

theorem handleSecurityModeCommand_eq_reject
    (h : ¬ ∃ mac, nasSecurityGetSecHdr b = some 3 ∧ nasSecurityGetMac b = some mac) :
    handleSecurityModeCommand crypto nas mem b = rejectSecurityMode nas mem := by
  rw [handleSecurityModeCommand]
  split
  · next secHdr mac hhdr hmac =>
    refine if_pos fun h3 => h ⟨mac, ?_, hmac⟩
    rw [hhdr, h3]
  · rfl

theorem handleSecurityModeCommand_ok (h : handleSecurityModeCommand crypto nas mem b = .ok nas') :
    nas'.security.nasCountDl = nas.security.nasCountDl ∧
      ((∃ a, commandAccepted crypto nas b = some a ∧ nas'.securityContainer = some a.container) ∨
        commandAccepted crypto nas b = none ∧
          (nas'.securityContainer = none ∨ nas'.securityContainer = nas.securityContainer)) := by
  by_cases hcmd : ∃ mac, nasSecurityGetSecHdr b = some 3 ∧ nasSecurityGetMac b = some mac
  · obtain ⟨mac, hhdr, hmac⟩ := hcmd
    have hactivate : activateSecurityMode crypto nas mem b mac = .ok nas' := by
      rw [handleSecurityModeCommand, hhdr, hmac] at h
      dsimp only at h
      rw [if_neg (not_not.mpr rfl)] at h
      split at h
      · obtain ⟨nas₁, hreject, hrest⟩ := bind_eq_ok.mp h
        rwa [rejectSecurityMode_ok hreject] at hrest
      · exact h
    obtain ⟨hcount, hleft⟩ := activateSecurityMode_ok hhdr hmac hactivate
    exact ⟨hcount, hleft.imp_right fun h => ⟨h.1, .inl h.2⟩⟩
  · rw [handleSecurityModeCommand_eq_reject hcmd] at h
    rw [rejectSecurityMode_ok h]
    refine ⟨rfl, .inr ⟨?_, .inr rfl⟩⟩
    rw [commandAccepted]
    split
    · exact if_neg fun h => hcmd ⟨_, h.1, h.2.2⟩
    · rfl

theorem commandAccepted_spec (h : commandAccepted crypto nas b = some a) :
    a.Verified crypto ∧ a.command = true ∧ a.count = nas.security.nasCountDl := by
  rw [commandAccepted] at h
  split at h
  · rw [Option.ite_none_right_eq_some] at h
    obtain ⟨⟨-, -, hmac⟩, ha⟩ := h
    obtain rfl := Option.some.inj ha
    refine ⟨?_, rfl, rfl⟩
    rw [nasSecurityGetMac] at hmac
    split at hmac
    · cases hmac
    · split at hmac
      · cases hmac
      · next hlen _ =>
        rw [Accepted.Verified, take_drop_octets (by rw [nasIntegritySize]; omega), Option.some.inj hmac, Accepted.mac,
          drop_octets]
        rfl
  · cases h

end Handlers

structure Counted (crypto : Crypto) (w : Watched) : Prop where
  verified : ∀ a ∈ w.accepted, a.Verified crypto
  ordered : w.accepted.Pairwise fun a e => (a.kamf = e.kamf → a.count < e.count) ∧ (a.knasInt = e.knasInt → a.kamf = e.kamf)
  current : ∀ container, w.nas.securityContainer = some container →
    ∀ a ∈ w.accepted, a.kamf = w.contextKamf ↔ a.knasInt = container.integrityContext
  below : w.nas.securityContainer ≠ none → ∀ a ∈ w.accepted, a.kamf = w.contextKamf →
    a.count.toNat < w.nas.security.nasCountDl.toNat ∨
      w.accepted.getLast? = some a ∧ a.command = true ∧ a.count.toNat ≤ w.nas.security.nasCountDl.toNat
  bound : w.nas.security.nasCountDl.toNat ≤ 2 ^ 24

variable (h : Counted crypto w)
include h

theorem Counted.of_notAccepted {nas' : NrUeNas}
    (hcont : nas'.securityContainer = none ∨ nas'.securityContainer = w.nas.securityContainer ∧
      w.nas.security.nasCountDl.toNat ≤ nas'.security.nasCountDl.toNat)
    (hbound : nas'.security.nasCountDl.toNat ≤ 2 ^ 24) : Counted crypto { w with nas := nas' } where
  verified := h.verified
  ordered := h.ordered
  current container hc := by
    rcases hcont with hnone | ⟨hsame, -⟩
    · rw [hnone] at hc
      cases hc
    · exact h.current container (hsame ▸ hc)
  below hsome a ha hkamf := by
    rcases hcont with hnone | ⟨hsame, hle⟩
    · exact absurd hnone hsome
    · rcases h.below (hsame ▸ hsome) a ha hkamf with hlt | ⟨hlast, hcommand, hcount⟩
      · exact .inl (Nat.lt_of_lt_of_le hlt hle)
      · exact .inr ⟨hlast, hcommand, Nat.le_trans hcount hle⟩
  bound := hbound

theorem Counted.of_rxAccepted (hc : w.nas.securityContainer = some container) {count : UInt32}
    {octets : List UInt8} (hverified : Accepted.Verified crypto ⟨w.contextKamf, container, count, octets, false⟩)
    (hle : w.nas.security.nasCountDl.toNat ≤ count.toNat) (hcount : count.toNat ≤ 0xffffff)
    (hfresh : ∀ e, w.accepted.getLast? = some e → e.command = true → w.nas.security.nasCountDl = e.count →
      count ≠ w.nas.security.nasCountDl) :
    Counted crypto ⟨w.nas.setCountDl (count + 1), w.contextKamf,
      w.accepted ++ [⟨w.contextKamf, container, count, octets, false⟩]⟩ := by
  have hsome : w.nas.securityContainer ≠ none := by rw [hc]; exact Option.some_ne_none _
  have hnext : (count + 1).toNat = count.toNat + 1 := by
    rw [UInt32.toNat_add, show (1 : UInt32).toNat = 1 from rfl, Nat.mod_eq_of_lt (by omega)]
  -- under the KAMF of the context, all before have a lower COUNT
  have hlower : ∀ a ∈ w.accepted, a.kamf = w.contextKamf → a.count.toNat < count.toNat := by
    intro a ha hkamf
    rcases h.below hsome a ha hkamf with hlt | ⟨hlast, hcommand, hcount⟩
    · exact Nat.lt_of_lt_of_le hlt hle
    · refine Nat.lt_of_le_of_ne (Nat.le_trans hcount hle) fun heq => ?_
      exact hfresh a hlast hcommand (UInt32.toNat_inj.mp (by omega)) (UInt32.toNat_inj.mp (by omega))
  refine ⟨?_, ?_, ?_, ?_, ?_⟩
  · intro a ha
    rcases mem_append.mp ha with hold | hnew
    · exact h.verified a hold
    · rw [mem_singleton.mp hnew]
      exact hverified
  · refine pairwise_append.mpr ⟨h.ordered, pairwise_singleton _ _, fun a ha e he => ?_⟩
    obtain rfl := mem_singleton.mp he
    exact ⟨fun hkamf => UInt32.lt_iff_toNat_lt.mpr (hlower a ha hkamf), fun hkey => (h.current container hc a ha).mpr hkey⟩
  · intro container' hc' a ha
    obtain rfl : container = container' := Option.some.inj (hc.symm.trans hc')
    rcases mem_append.mp ha with hold | hnew
    · exact h.current container hc a hold
    · rw [mem_singleton.mp hnew]
      exact iff_of_true rfl rfl
  · intro _ a ha hkamf
    refine .inl ?_
    show a.count.toNat < (count + 1).toNat
    rw [hnext]
    rcases mem_append.mp ha with hold | hnew
    · exact Nat.lt_succ_of_lt (hlower a hold hkamf)
    · rw [mem_singleton.mp hnew]
      exact Nat.lt_succ_self _
  · show (count + 1).toNat ≤ 2 ^ 24
    omega

theorem Counted.of_command {nas' : NrUeNas} (hverified : a.Verified crypto)
    (hcommand : a.command = true) (hcont : nas'.securityContainer = some a.container)
    (hcount : nas'.security.nasCountDl = a.count) (hbound : a.count.toNat ≤ 2 ^ 24)
    (hfresh : ∀ e ∈ w.accepted, e.kamf ≠ a.kamf ∧ e.knasInt ≠ a.knasInt) :
    Counted crypto ⟨nas', a.kamf, w.accepted ++ [a]⟩ := by
  refine ⟨?_, ?_, ?_, ?_, ?_⟩
  · intro e he
    rcases mem_append.mp he with hold | hnew
    · exact h.verified e hold
    · rw [mem_singleton.mp hnew]
      exact hverified
  · refine pairwise_append.mpr ⟨h.ordered, pairwise_singleton _ _, fun e he e' he' => ?_⟩
    obtain rfl := mem_singleton.mp he'
    exact ⟨fun hkamf => absurd hkamf (hfresh e he).1, fun hkey => absurd hkey (hfresh e he).2⟩
  · intro container hc e he
    obtain rfl : a.container = container := Option.some.inj (hcont.symm.trans hc)
    rcases mem_append.mp he with hold | hnew
    · exact iff_of_false (hfresh e hold).1 (hfresh e hold).2
    · rw [mem_singleton.mp hnew]
      exact iff_of_true rfl rfl
  · intro _ e he hkamf
    rcases mem_append.mp he with hold | hnew
    · exact absurd hkamf (hfresh e hold).1
    · rw [mem_singleton.mp hnew]
      exact .inr ⟨List.getLast?_concat, hcommand, Nat.le_of_eq (congrArg UInt32.toNat hcount.symm)⟩
  · show nas'.security.nasCountDl.toNat ≤ 2 ^ 24
    rw [hcount]
    exact hbound

omit h

section Steps

theorem rxAccepted_eq_none (h : nasSecurityRxProcess crypto w.nas b = .ok (state, nas', b'))
    (hstate : state ≠ .integrityPassed) : rxAccepted crypto w b = none := by
  rw [rxAccepted, h]
  split
  · next heq =>
    cases heq
    exact absurd rfl hstate
  · rfl

include h

theorem Counted.rxProcess (hrx : nasSecurityRxProcess crypto w.nas b = .ok (state, nas', b'))
    (hfresh : (rxAccepted crypto w b).isSome → ∀ e, w.accepted.getLast? = some e → e.command = true →
      w.nas.security.nasCountDl = e.count → (b.buf 6).toNat ≠ e.count.toNat % 256) :
    Counted crypto ⟨nas', w.contextKamf, w.accepted ++ (rxAccepted crypto w b).toList⟩ := by
  have hdiscarded : state ≠ .integrityPassed →
      (nas'.securityContainer = none ∨ nas'.securityContainer = w.nas.securityContainer ∧
        w.nas.security.nasCountDl.toNat ≤ nas'.security.nasCountDl.toNat) → nas'.security.nasCountDl.toNat ≤ 2 ^ 24 →
      Counted crypto ⟨nas', w.contextKamf, w.accepted ++ (rxAccepted crypto w b).toList⟩ := by
    intro hstate hcont hbound
    rw [rxAccepted_eq_none hrx hstate, Option.toList_none, append_nil]
    exact h.of_notAccepted hcont hbound
  have hsame : state ≠ .integrityPassed → nas' = w.nas →
      Counted crypto ⟨nas', w.contextKamf, w.accepted ++ (rxAccepted crypto w b).toList⟩ := by
    rintro hstate rfl
    exact hdiscarded hstate (.inr ⟨rfl, Nat.le_refl _⟩) h.bound
  cases hc : w.nas.securityContainer with
  | none =>
    rw [rxProcess_noContext hc] at hrx
    cases hrx
    exact hsame nofun rfl
  | some container =>
    rcases buffer_cases b with hshort | ⟨hlen, hplain⟩ | ⟨hlen, hnew⟩ | ⟨hlen, h0, h3, h14⟩ | ⟨hlen, htype⟩
    · rw [rxProcess_short hc hshort] at hrx
      cases hrx
      exact hsame nofun rfl
    · rw [rxProcess_plain hc hlen hplain] at hrx
      cases hrx
      refine hsame ?_ rfl
      split <;> nofun
    · rw [rxProcess_newContext hc hlen hnew] at hrx
      cases hrx
      exact hdiscarded nofun (.inl rfl) (Nat.zero_le _)
    · rw [rxProcess_unhandled hc hlen h0 h3 h14] at hrx
      cases hrx
      exact hsame nofun rfl
    · by_cases hlen8 : b.len < 8
      · rw [rxProcess_tooShort hc htype hlen8] at hrx
        cases hrx
        exact hsame nofun rfl
      have hchecked : nasSecurityRxProcess crypto w.nas b = _ := rxProcess_checked hc htype (by omega)
      split at hchecked
      · rw [hchecked] at hrx
        cases hrx
      · next hexit =>
        have hcount : (synchronise w.nas.security.nasCountDl (b.buf 6)).toNat ≤ 0xffffff :=
          UInt32.le_iff_toNat_le.mp (UInt32.not_lt.mp hexit)
        split at hchecked
        · rw [hchecked] at hrx
          cases hrx
          exact hdiscarded nofun (.inr ⟨rfl, le_synchronise h.bound⟩) (Nat.le_trans hcount (by decide))
        · next hmac =>
          have haccepted : rxAccepted crypto w b =
              some ⟨w.contextKamf, container, synchronise w.nas.security.nasCountDl (b.buf 6), b.octets, false⟩ := by
            rw [rxAccepted, hc, hchecked]
          rw [haccepted] at hfresh ⊢
          rw [hchecked] at hrx
          cases hrx
          refine h.of_rxAccepted hc ?_ (le_synchronise h.bound) hcount fun e hlast hcommand heq hself =>
            hfresh rfl e hlast hcommand heq (heq ▸ synchronise_eq_self.mp hself)
          rw [Accepted.Verified, take_drop_octets (by rw [nasIntegritySize]; omega), Decidable.of_not_not hmac,
            Accepted.mac, drop_octets]
          rfl

theorem Counted.watch (hfresh : FreshKeys crypto w m)
    (hok : Nas.watch crypto decoders w m = .ok w') : Counted crypto w' := by
  obtain ⟨nas', hnrue, rfl⟩ := map_eq_ok.mp hok
  rw [nasNrue] at hnrue
  obtain ⟨⟨handler, nas₁, b₁⟩, hdispatch, hhandle⟩ := bind_eq_ok.mp hnrue
  have hcounted : Counted crypto ⟨nas₁, w.contextKamf, w.accepted ++ (rxAccepted crypto w m.buffer).toList⟩ := by
    rw [dispatch] at hdispatch
    obtain ⟨⟨state, nas₂, b₂⟩, hrx, heq⟩ := map_eq_ok.mp hdispatch
    cases heq
    exact h.rxProcess hrx hfresh.counted
  have hkept : commandOf crypto w.nas m = none → nas'.securityContainer = none ∨
      nas'.securityContainer = nas₁.securityContainer → nas'.security.nasCountDl = nas₁.security.nasCountDl →
      Counted crypto ⟨nas', ((commandOf crypto w.nas m).map Accepted.kamf).getD w.contextKamf,
        w.accepted ++ (rxAccepted crypto w m.buffer).toList ++ (commandOf crypto w.nas m).toList⟩ := by
    intro hnone hcont hcount
    rw [hnone, Option.toList_none, append_nil]
    refine hcounted.of_notAccepted (hcont.imp_right fun hsame => ⟨hsame, ?_⟩) ?_
    · exact Nat.le_of_eq (congrArg UInt32.toNat hcount.symm)
    · rw [hcount]
      exact hcounted.bound
  cases handler with
  | none =>
    cases hhandle
    refine hkept ?_ (.inr rfl) rfl
    rw [commandOf, hdispatch]
  | some handler =>
    dsimp only at hhandle
    by_cases hcommand : handler = .securityModeCommand
    · subst hcommand
      have hof : commandOf crypto w.nas m = commandAccepted crypto nas₁ b₁ := by
        rw [commandOf, hdispatch]
      obtain ⟨hcount, ⟨a, ha, hcont⟩ | ⟨hnone, hcont⟩⟩ := handleSecurityModeCommand_ok hhandle
      · obtain ⟨hverified, hcommand, hacount⟩ := commandAccepted_spec ha
        have hkeys := hfresh.keys a (hof.trans ha)
        rw [hof, ha]
        exact hcounted.of_command hverified hcommand hcont (hcount.trans hacount.symm) (hacount ▸ hcounted.bound) hkeys
      · exact hkept (hof.trans hnone) hcont hcount
    · obtain ⟨hcont, hcount⟩ := handle_keeps hhandle hcommand
      refine hkept ?_ (.inr hcont) hcount
      rw [commandOf, hdispatch]
      split
      · next heq =>
        cases heq
        exact absurd rfl hcommand
      · rfl

theorem Counted.run {ms : List Received} (hrun : ms.foldlM (Nas.watch crypto decoders) w = .ok w')
    (hfresh : Trace.Throughout (Nas.watch crypto decoders) (FreshKeys crypto) w ms) : Counted crypto w' := by
  induction ms generalizing w with
  | nil =>
    cases hrun
    exact h
  | cons m ms ih =>
    obtain ⟨hm, hrest⟩ := hfresh
    obtain ⟨w₁, hok, hrun⟩ := bind_eq_ok.mp (foldlM_cons (f := Nas.watch crypto decoders) ▸ hrun)
    exact ih (h.watch hm hok) hrun (hrest w₁ hok)

end Steps

end OaiNr.Nas
