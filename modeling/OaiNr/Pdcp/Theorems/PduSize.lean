import OaiNr.Pdcp.Lemmas.RoundTrip

/-!
# The size check of the receiver

The receiver wants at least one byte behind the SDAP header.
-/

namespace OaiNr.Pdcp.Entity

variable {cr : Crypto} {s r s' : Entity} {buffer pdu : List UInt8} {pduMaxSize : Nat}

/-- A PDU built from an SDU that is not empty passes the size check of the peer, if and only if the SDU is
not a lone SDAP header. -/
theorem passes_size_check_iff (h : Matching s r) (hb : buffer ≠ [])
    (hp : s.processSdu cr buffer pduMaxSize = some (s', some pdu)) :
    ¬r.TooSmall pdu.length ↔ ¬(s.hasSdapTx = true ∧ buffer.length = 1) := by
  rcases processSdu_cases hp with ⟨-, hr⟩ | ⟨st, hr⟩
  · cases hr
  · cases hr
    have hpos := List.length_pos_iff.mpr hb
    rw [h.tooSmall_iff, sdapTxHeaderSize]
    cases s.hasSdapTx <;> simp <;> omega

def sdapUe : EntityConfig := { EntityConfig.plain .drbAm with hasSdapTx := true }

def sdapGnb : EntityConfig := { EntityConfig.plain .drbAm with isGnb := true, hasSdapRx := true }

/-- An SDU of one byte behind the SDAP header passes. -/
theorem passes_size_check_data : ∃ s r s' pdu, newNrPdcpEntity sdapUe = some s ∧
    newNrPdcpEntity sdapGnb = some r ∧ s.processSdu .plain [0x85, 0xaa] 100 = some (s', some pdu) ∧
      ¬r.TooSmall pdu.length := by
  obtain ⟨s, hs⟩ : ∃ s, newNrPdcpEntity sdapUe = some s := ⟨_, rfl⟩
  obtain ⟨r, hr⟩ : ∃ r, newNrPdcpEntity sdapGnb = some r := ⟨_, rfl⟩
  have hm : Matching s r := by
    cases hs
    cases hr
    constructor <;> rfl
  obtain ⟨s', pdu, hp⟩ : ∃ s' pdu, s.processSdu .plain [0x85, 0xaa] 100 = some (s', some pdu) := by
    cases hs
    exact ⟨_, _, rfl⟩
  have hdata : ¬(s.hasSdapTx = true ∧ [(0x85 : UInt8), 0xaa].length = 1) := fun h => absurd h.2 (by decide)
  exact ⟨s, r, s', pdu, hs, hr, hp, (passes_size_check_iff hm (List.cons_ne_nil _ _) hp).mpr hdata⟩

/-- An end marker is dropped as too small. -/
theorem end_marker_too_small : ∃ s r s' pdu, newNrPdcpEntity sdapUe = some s ∧
    newNrPdcpEntity sdapGnb = some r ∧ Matching s r ∧
      s.processSdu .plain [0x05] 100 = some (s', some pdu) ∧ pdu = [0x80, 0x00, 0x05] ∧
      r.TooSmall pdu.length ∧ (r.recvPdu .plain pdu).calls = [] ∧ (r.recvPdu .plain pdu).stats.rxpduDdPkts = 1 := by
  refine ⟨_, _, _, [0x80, 0x00, 0x05], rfl, rfl, ?_, rfl, rfl, ?_, ?_, ?_⟩
  · constructor <;> rfl
  · decide
  · decide
  · decide

end OaiNr.Pdcp.Entity
