import OaiNr.Nas.Authenticity
import OaiNr.Nas.Lemmas.Receive

/-!
# What forged messages do
-/

namespace OaiNr.Nas

variable {crypto : Crypto} {decoders : Decoders} {nas nas' : NrUeNas} {b : Buffer} {m : Received}
  {container : Container} {handler : Handler} (hc : nas.securityContainer = some container)
  (hnone : nas.securityContainer = none)

section Plain

theorem getMac_eq_none (h : b.buf 1 = 0) : nasSecurityGetMac b = none := by
  rw [nasSecurityGetMac, if_pos h, ite_self]

theorem getSecHdr_ne (h : b.buf 1 = 0) : nasSecurityGetSecHdr b ≠ some 3 := by
  rw [nasSecurityGetSecHdr, h]
  split <;> decide

theorem not_authentic_of_plain (h : m.buffer.buf 1 = 0) : ¬ Authentic crypto nas m := by
  rintro (⟨container, -, hmac⟩ | ⟨-, -, hhdr, -⟩)
  · rw [getMac_eq_none h] at hmac
    cases hmac
  · exact getSecHdr_ne h hhdr

theorem getMsgType_plain (hlen : 3 ≤ b.len) (h : b.buf 1 = 0) : getMsgType b = b.buf 2 := by
  rw [getMsgType, if_neg (by omega), if_pos h, if_neg (by omega)]

theorem unprotectedAllowed_iff {msgType : UInt8} : unprotectedAllowed b msgType = true ↔
      msgType ∈ [0x5b, 0x56, 0x5a, 0x58, 0x46] ∨ msgType ∈ [0x44, 0x4d] ∧ b.buf 4 ≠ 76 := by
  rw [unprotectedAllowed]
  by_cases h₁ : msgType ∈ [0x5b, 0x56, 0x5a, 0x58, 0x46]
  · simp only [h₁, if_true, true_or]
  · by_cases h₂ : msgType ∈ [0x44, 0x4d]
    · simp only [h₁, h₂, if_false, if_true, decide_eq_true_eq, false_or, true_and]
    · simp only [h₁, h₂, if_false, Bool.false_eq_true, false_or, false_and]

theorem handler_of_unprotectedAllowed {msgType : UInt8} {indication : Indication}
    (h : unprotectedAllowed b msgType = true) (hlookup : (handlers indication).lookup msgType = some handler) :
    handler ≠ .securityModeCommand ∧ handler ≠ .registrationAccept := by
  have hmem : msgType ∈ [0x5b, 0x56, 0x5a, 0x58, 0x46] ++ [0x44, 0x4d] := by
    rw [List.mem_append]
    exact (unprotectedAllowed_iff.mp h).imp_right And.left
  simp only [List.cons_append, List.nil_append, List.mem_cons, List.not_mem_nil, or_false] at hmem
  constructor
  all_goals
    rintro rfl
    rcases hmem with rfl | rfl | rfl | rfl | rfl | rfl | rfl <;> cases indication <;> exact absurd hlookup (by decide)

end Plain

section Handlers

variable {mem : Nat → UInt8}

include hnone

theorem handleSecurityModeCommand_of_not_verifies
    (htype : getMsgType b = 0x5d) (hnot : ¬ CommandVerifies crypto nas b) : handleSecurityModeCommand crypto nas mem b =
      if nasSecurityGetSecHdr b = some 3 ∧ (nasSecurityGetMac b).isSome then
        if (selectedAlgorithms b).2 = 0 then .ok (nas.deriveNasKeys crypto b).deleteContext
        else (nas.newContainer crypto b).map fun _ => (nas.deriveNasKeys crypto b).deleteContext else .ok nas := by
  rw [handleSecurityModeCommand]
  cases hhdr : nasSecurityGetSecHdr b with
  | none => simp [rejectSecurityMode_noContext hnone]
  | some secHdr =>
    cases hmac : nasSecurityGetMac b with
    | none => simp [rejectSecurityMode_noContext hnone]
    | some mac =>
      by_cases h3 : secHdr = 3
      · subst h3
        have hactivate : activateSecurityMode crypto nas mem b mac =
            if (selectedAlgorithms b).2 = 0 then .ok (nas.deriveNasKeys crypto b).deleteContext
            else (nas.newContainer crypto b).map fun _ => (nas.deriveNasKeys crypto b).deleteContext := by
          rw [activateSecurityMode]
          refine ite_congr rfl (fun _ => rejectSecurityMode_noContext rfl) fun hnull => ?_
          cases hnew : nas.newContainer crypto b with
          | error fault => rfl
          | ok container =>
            -- the message authentication code does not verify, or the command would
            have hne : nasSecurityComputeMac crypto container nas.security.nasCountDl b ≠ mac := by
              intro heq
              refine hnot ⟨htype, hhdr, hnull, container, hnew, ?_⟩
              rw [hmac, commandCount, hnone, ← heq]
              rfl
            rw [ok_bind, if_pos hne]
            exact rejectSecurityMode_noContext rfl
        simp only [ne_eq, not_true_eq_false, if_false, rejectSecurityMode_noContext hnone, ok_bind, ite_self, hactivate,
          Option.isSome_some, and_self, if_true]
      · simp [h3, rejectSecurityMode_noContext hnone]

omit hnone

end Handlers

section Unaffected

theorem mem_handlers {indication : Indication} {msgType : UInt8}
    (h : (handlers indication).lookup msgType = some handler) : (msgType, handler) ∈ handlers indication := by
  obtain ⟨l₁, l₂, hl, -⟩ := List.lookup_eq_some_iff.mp h
  rw [hl]
  exact List.mem_append_right _ List.mem_cons_self

theorem lookup_eq_securityModeCommand {indication : Indication} {msgType : UInt8}
    (h : (handlers indication).lookup msgType = some .securityModeCommand) :
    indication = .downlinkDataInd ∧ msgType = 0x5d := by
  have hmem := mem_handlers h
  cases indication with
  | connEstabliCnf => simp [handlers] at hmem
  | downlinkDataInd => exact ⟨rfl, by simpa [handlers] using hmem⟩

theorem handle_noContext {mem : Nat → UInt8} (hnone : nas.securityContainer = none)
    (hcommand : handler = .securityModeCommand → getMsgType b = 0x5d ∧ ¬ CommandVerifies crypto nas b)
    (h : handle crypto decoders mem handler nas b = .ok nas') : nas'.securityContainer = none := by
  by_cases hhandler : handler = .securityModeCommand
  · obtain ⟨htype, hnot⟩ := hcommand hhandler
    subst hhandler
    rw [handle, handleSecurityModeCommand_of_not_verifies hnone htype hnot] at h
    split at h
    · split at h
      · cases h
        rfl
      · obtain ⟨container, -, rfl⟩ := map_eq_ok.mp h
        rfl
    · cases h
      exact hnone
  · rw [(handle_keeps h hhandler).1, hnone]

include hc

theorem securityContainer_of_newContext (hlen : 3 ≤ m.buffer.len)
    (hnew : m.buffer.buf 1 = 3) (hnot : ¬ (m.indication = .downlinkDataInd ∧ CommandVerifies crypto nas m.buffer))
    (h : nasNrue crypto decoders nas m = .ok nas') : nas'.securityContainer = none := by
  rw [(nasNrue_of_handedOn decoders rfl (rxProcess_newContext hc hlen hnew)).2] at h
  cases hlookup : (handlers m.indication).lookup (getMsgType m.buffer) with
  | none =>
    rw [hlookup] at h
    cases h
    rfl
  | some handler =>
    rw [hlookup] at h
    refine handle_noContext rfl ?_ h
    rintro rfl
    obtain ⟨hind, htype⟩ := lookup_eq_securityModeCommand hlookup
    refine ⟨htype, fun ⟨_, hhdr, hnull, newContainer, hok, hmac⟩ => hnot ⟨hind, htype, hhdr, hnull, newContainer, hok, ?_⟩⟩
    rw [hmac, commandCount, commandCount, hc]
    rfl

omit hc

end Unaffected

section Authenticated

theorem authenticated_of_authentic (h : Authentic crypto nas m) : Authenticated crypto decoders nas m :=
  fun _ => ⟨fun _ _ _ _ _ => .inr h, fun _ _ => .inr h⟩

theorem authenticated_of_discards {state : SecurityState}
    (h : nasSecurityRxProcess crypto nas m.buffer = .ok (state, nas', b)) (hd : state.discards = true)
    (hcont : nas'.securityContainer = nas.securityContainer) : Authenticated crypto decoders nas m := by
  refine fun _ => ⟨fun handler nas₁ b₁ hdispatch => ?_, fun nas₁ hok => .inl ?_⟩
  · rw [dispatch_of_rxProcess h, if_pos hd] at hdispatch
    cases hdispatch
  · rw [nasNrue_of_discards h hd] at hok
    cases hok
    exact hcont

theorem authenticated_of_fault {fault : Fault} (h : nasSecurityRxProcess crypto nas m.buffer = .error fault) :
    Authenticated crypto decoders nas m := by
  refine fun _ => ⟨fun handler nas₁ b₁ hdispatch => ?_, fun nas₁ hok => ?_⟩
  · rw [dispatch, h] at hdispatch
    cases hdispatch
  · rw [nasNrue, dispatch, h] at hok
    cases hok

include hc

theorem authenticated_of_checked (htype : Checked m.buffer) :
    Authenticated crypto decoders nas m := by
  by_cases hlen : m.buffer.len < 8
  · exact authenticated_of_discards (rxProcess_tooShort hc htype hlen) rfl rfl
  · have hrx : nasSecurityRxProcess crypto nas m.buffer = _ := rxProcess_checked hc htype (by omega)
    split at hrx
    · exact authenticated_of_fault hrx
    · split at hrx
      · exact authenticated_of_discards hrx rfl rfl
      · next hmac =>
        refine authenticated_of_authentic (.inl ⟨container, hc, ?_⟩)
        rw [nasSecurityGetMac, if_neg hlen, if_neg htype.1, Decidable.of_not_not hmac]

theorem authentic_of_newContext (hlen : 3 ≤ m.buffer.len)
    (hnew : m.buffer.buf 1 = 3) (h : Authenticated crypto decoders nas m) : Authentic crypto nas m := by
  have hsome : nas.securityContainer ≠ none := by rw [hc]; exact Option.some_ne_none _
  obtain ⟨hreach, hkeep⟩ := h hsome
  refine Classical.byContradiction fun hnot => ?_
  have hcommand : ¬ (m.indication = .downlinkDataInd ∧ CommandVerifies crypto nas m.buffer) := fun h => hnot (.inr h)
  have hgone : ∀ nas', nasNrue crypto decoders nas m ≠ .ok nas' := by
    intro nas' hok
    have hcont := (hkeep nas' hok).resolve_right hnot
    rw [securityContainer_of_newContext hc hlen hnew hcommand hok] at hcont
    exact hsome hcont.symm
  obtain ⟨hdispatch, hnrue⟩ := nasNrue_of_handedOn decoders rfl (rxProcess_newContext hc hlen hnew)
  cases hlookup : (handlers m.indication).lookup (getMsgType m.buffer) with
  | none =>
    rw [hlookup] at hnrue
    exact hgone _ hnrue
  | some handler =>
    rw [hlookup] at hdispatch hnrue
    by_cases hchanges : handler.ChangesState
    · rcases hreach handler _ _ hdispatch hchanges with hallowed | hauthentic
      · have h0 := hallowed.1
        rw [hnew] at h0
        exact absurd h0 (by decide)
      · exact hnot hauthentic
    · rw [Handler.ChangesState, not_and_or, not_not, not_not] at hchanges
      rcases hchanges with rfl | rfl <;> exact hgone _ hnrue

omit hc

theorem not_reject_of_allowed (t : UInt8) (h : t ∈ ([0x5b, 0x56, 0x5a, 0x58, 0x46] : List UInt8)) :
    t ∉ ([0x44, 0x4d] : List UInt8) := by
  simp only [List.mem_cons, List.not_mem_nil, or_false] at h
  rcases h with rfl | rfl | rfl | rfl | rfl <;> decide

theorem lookup_reject_connEstabliCnf (t : UInt8) (h : t ∈ ([0x44, 0x4d] : List UInt8)) :
    (handlers .connEstabliCnf).lookup t = none := by
  simp only [List.mem_cons, List.not_mem_nil, or_false] at h
  rcases h with rfl | rfl <;> rfl

theorem lookup_reject_downlinkDataInd (t : UInt8) (h : t ∈ ([0x44, 0x4d] : List UInt8)) :
    ∃ handler, (handlers .downlinkDataInd).lookup t = some handler ∧ handler.ChangesState := by
  simp only [List.mem_cons, List.not_mem_nil, or_false] at h
  rcases h with rfl | rfl
  · exact ⟨.registrationReject, rfl, nofun, nofun⟩
  · exact ⟨.serviceReject, rfl, nofun, nofun⟩

theorem authenticated_iff_of_plain (hc : nas.securityContainer = some container) (hlen : 3 ≤ m.buffer.len)
    (hplain : m.buffer.buf 1 = 0) : Authenticated crypto decoders nas m ↔
      ¬ (m.indication = .downlinkDataInd ∧ 3 < m.buffer.len ∧ m.buffer.buf 1 = 0 ∧ m.buffer.buf 2 ∈ [0x44, 0x4d] ∧
        m.buffer.buf 3 = 76 ∧ m.buffer.buf 4 ≠ 76) := by
  have hsome : nas.securityContainer ≠ none := by rw [hc]; exact Option.some_ne_none _
  have hrx : nasSecurityRxProcess crypto nas m.buffer = _ := rxProcess_plain hc hlen hplain
  rw [getMsgType_plain hlen hplain] at hrx
  by_cases hallowed : unprotectedAllowed m.buffer (m.buffer.buf 2) = true
  · rw [if_pos hallowed] at hrx
    obtain ⟨hdispatch, hnrue⟩ := nasNrue_of_handedOn decoders rfl hrx
    rw [getMsgType_plain hlen hplain] at hdispatch hnrue
    have hkeep : ∀ nas', nasNrue crypto decoders nas m = .ok nas' → nas'.securityContainer = nas.securityContainer := by
      intro nas' hok
      rw [hnrue] at hok
      cases hlookup : (handlers m.indication).lookup (m.buffer.buf 2) with
      | none =>
        rw [hlookup] at hok
        cases hok
        rfl
      | some handler =>
        rw [hlookup] at hok
        exact (handle_keeps hok (handler_of_unprotectedAllowed hallowed hlookup).1).1
    have hreach : Authenticated crypto decoders nas m ↔
        ∀ handler, (handlers m.indication).lookup (m.buffer.buf 2) = some handler → handler.ChangesState →
          AllowedUnprotected m.buffer := by
      constructor
      · intro h handler hlookup hchanges
        rw [hlookup] at hdispatch
        exact ((h hsome).1 handler _ _ hdispatch hchanges).resolve_right (not_authentic_of_plain hplain)
      · refine fun h _ => ⟨fun handler nas₁ b₁ hok hchanges => .inl ?_, fun nas' hok => .inl (hkeep nas' hok)⟩
        rw [hdispatch, Except.ok.injEq, Prod.mk.injEq] at hok
        exact h handler hok.1 hchanges
    rw [hreach]
    rcases unprotectedAllowed_iff.mp hallowed with hmem | ⟨hmem, hcause⟩
    · refine iff_of_true (fun _ _ _ => ⟨hplain, .inl hmem⟩) ?_
      rintro ⟨-, -, -, hreject, -⟩
      exact not_reject_of_allowed _ hmem hreject
    · cases hind : m.indication with
      | connEstabliCnf =>
        refine iff_of_true (fun handler hlookup => ?_) fun h => nomatch h.1
        rw [lookup_reject_connEstabliCnf _ hmem] at hlookup
        cases hlookup
      | downlinkDataInd =>
        obtain ⟨handler, hlookup, hchanges⟩ := lookup_reject_downlinkDataInd _ hmem
        constructor
        · rintro h ⟨-, hlen, -, -, hcag, -⟩
          rcases (h handler hlookup hchanges).2 with hfirst | ⟨-, hshort | hother⟩
          · exact not_reject_of_allowed _ hfirst hmem
          · omega
          · exact hother hcag
        · intro h _ _ _
          refine ⟨hplain, .inr ⟨hmem, ?_⟩⟩
          by_cases hshort : m.buffer.len ≤ 3
          · exact .inl hshort
          · exact .inr fun hcag => h ⟨rfl, by omega, hplain, hmem, hcag, hcause⟩
  · rw [if_neg hallowed] at hrx
    refine iff_of_true (authenticated_of_discards hrx rfl rfl) ?_
    rintro ⟨-, -, -, hreject, -, hcause⟩
    exact hallowed (unprotectedAllowed_iff.mpr (.inr ⟨hreject, hcause⟩))

theorem noForgedContext_of_protected (h0 : m.buffer.buf 1 ≠ 0) (h3 : m.buffer.buf 1 ≠ 3) :
    NoForgedContext crypto nas m :=
  fun _ => ⟨fun _ hnew => absurd hnew h3, fun h => h0 h.2.2.1⟩

theorem authenticated_iff : Authenticated crypto decoders nas m ↔ NoForgedContext crypto nas m := by
  cases hc : nas.securityContainer with
  | none => exact iff_of_true (fun h => absurd hc h) fun h => absurd hc h
  | some container =>
    have hsome : nas.securityContainer ≠ none := by rw [hc]; exact Option.some_ne_none _
    rcases buffer_cases m.buffer with hshort | ⟨hlen, hplain⟩ | ⟨hlen, hnew⟩ | ⟨hlen, h0, h3, h14⟩ | ⟨hlen, htype⟩
    · refine iff_of_true (authenticated_of_discards (rxProcess_short hc hshort) rfl rfl) fun _ => ⟨?_, ?_⟩
      · intro h
        omega
      · rintro ⟨-, h, -⟩
        omega
    · rw [authenticated_iff_of_plain hc hlen hplain]
      constructor
      · intro h _
        refine ⟨fun _ hnew => ?_, h⟩
        rw [hplain] at hnew
        exact absurd hnew (by decide)
      · intro h
        exact (h hsome).2
    · constructor
      · intro h _
        refine ⟨fun _ _ => authentic_of_newContext hc hlen hnew h, ?_⟩
        rintro ⟨-, -, hplain, -⟩
        rw [hnew] at hplain
        exact absurd hplain (by decide)
      · intro h
        exact authenticated_of_authentic ((h hsome).1 hlen hnew)
    · exact iff_of_true (authenticated_of_discards (rxProcess_unhandled hc hlen h0 h3 h14) rfl rfl)
        (noForgedContext_of_protected h0 h3)
    · exact iff_of_true (authenticated_of_checked hc htype) (noForgedContext_of_protected htype.1 htype.2.1)

end Authenticated

end OaiNr.Nas
