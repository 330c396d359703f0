import OaiNr.Pdcp.Lemmas.Count
import OaiNr.Pdcp.Lemmas.Receiver

/-!
# What an operation can do
-/

namespace OaiNr.Pdcp.Entity

variable {cr : Crypto} {e e' : Entity} {buffer : List UInt8} {p : KeysAndAlgos} {op : Op}

def pduCount (e : Entity) (buffer : List UInt8) : Nat := e.rcvdCount (e.rcvdSn (e.forceDataBit buffer))

def plainPdu (cr : Crypto) (e : Entity) (buffer : List UInt8) : List UInt8 :=
  e.cipherFrom cr (e.rxInput (e.pduCount buffer)) (e.headerSize + e.sdapRxHeaderSize)
    (e.forceDataBit buffer)

def sduOf (cr : Crypto) (e : Entity) (buffer : List UInt8) : PdcpSdu :=
  { count := e.pduCount buffer
    buffer := ((e.plainPdu cr buffer).take ((e.plainPdu cr buffer).length - e.integritySize)).drop
      e.headerSize
    msgIntegrity := e.msgIntegrity (e.forceDataBit buffer) (e.pduCount buffer) }

structure Accepts (cr : Crypto) (e : Entity) (buffer : List UInt8) : Prop where
  active : e.entitySuspended = false
  size : ¬e.TooSmall buffer.length
  integrity : e.IntegrityOk cr (e.plainPdu cr buffer) (e.pduCount buffer)
  fresh : ¬e.IsDuplicate (e.pduCount buffer)

theorem length_forceDataBit (e : Entity) (buffer : List UInt8) : (e.forceDataBit buffer).length = buffer.length := by
  rw [forceDataBit]
  split
  · exact List.length_modify ..
  · rfl

theorem Accepts.recvPdu (h : e.Accepts cr buffer) : e.recvPdu cr buffer =
      (e.countRxPdu buffer.length (e.rcvdSn (e.forceDataBit buffer))).acceptSdu (e.sduOf cr buffer)
        (buffer.length - e.headerSize) := by
  have hlen : ¬buffer.length < 1 := fun hlt => h.size (by rw [TooSmall]; omega)
  have hlen' := e.length_forceDataBit buffer
  rw [Entity.recvPdu, if_neg (by simp [h.active]), if_neg hlen]
  simp only [hlen']
  refine (if_neg h.size).trans ?_
  rw [recvCounted]
  refine (if_neg (not_not.mpr h.integrity)).trans ((if_neg h.fresh).trans ?_)
  rw [hlen']
  rfl

theorem recvPdu_of_not_accepts (h : ¬e.Accepts cr buffer) : ∃ st, e.recvPdu cr buffer = { e with stats := st } := by
  rw [recvPdu]
  split
  · exact ⟨e.stats, rfl⟩
  · rename_i hactive
    split
    · exact ⟨e.stats, rfl⟩
    · have hlen' := e.length_forceDataBit buffer
      simp only [hlen']
      split
      · exact ⟨_, rfl⟩
      · rename_i hsize
        rw [recvCounted]
        split
        · exact ⟨_, rfl⟩
        · rename_i hint
          split
          · exact ⟨_, rfl⟩
          · rename_i hfresh
            exact absurd ⟨by simpa using hactive, hsize, not_not.mp hint, hfresh⟩ h

theorem Timed.recvPdu (h : Timed e) (ha : e.Accepts cr buffer) (hwrap : e.pduCount buffer + 1 < 4294967296) :
    (Timed (e.recvPdu cr buffer) ∧ (e.tCurrent ≠ 0 → (e.recvPdu cr buffer).rxList ≠ [] →
        (e.recvPdu cr buffer).tReorderingStart ≠ 0)) ∧
      ∃ d, Delivers e (sduListAdd (e.sduOf cr buffer) e.rxList) d (e.recvPdu cr buffer) := by
  have hcounted : Timed (e.countRxPdu buffer.length (e.rcvdSn (e.forceDataBit buffer))) :=
    h.of_rxState rfl
  have hnew : ¬(e.countRxPdu buffer.length (e.rcvdSn (e.forceDataBit buffer))).IsDuplicate
      (e.sduOf cr buffer).count := ha.fresh
  obtain ⟨h1, d, hd⟩ := hcounted.acceptSdu hnew hwrap (buffer.length - e.headerSize)
  rw [ha.recvPdu]
  exact ⟨h1, d, hd.calls, hd.split, hd.below, hd.deliv⟩

/-! ## The configuration -/

def config (e : Entity) : EntityType × Bool × Int × Bool × Bool × Nat × Int × Nat × Nat :=
  (e.type, e.isGnb, e.rbId, e.hasSdapRx, e.hasSdapTx, e.snSize, e.tReordering, e.snMax, e.windowSize)

theorem setIntegrity_cases (h : setIntegrity p e = some e') : ∃ i, e' = { e with integrity := i } := by
  rw [setIntegrity] at h
  split_ifs at h <;> cases h <;> exact ⟨_, rfl⟩

theorem setCiphering_cases (h : setCiphering p e = some e') : ∃ c, e' = { e with ciphering := c } := by
  rw [setCiphering] at h
  split_ifs at h <;> cases h <;> exact ⟨_, rfl⟩

theorem setSecurity_cases (h : e.setSecurity p = some e') : ∃ i c, e' = { e with integrity := i, ciphering := c } := by
  obtain ⟨e₁, h1, h2⟩ := Option.bind_eq_some_iff.mp h
  obtain ⟨i, rfl⟩ := setIntegrity_cases h1
  obtain ⟨c, rfl⟩ := setCiphering_cases h2
  exact ⟨i, c, rfl⟩

theorem resume_cases (h : e.resume p = some e') :
    ∃ i c, e' = { e with integrity := i, ciphering := c, entitySuspended := false } := by
  obtain ⟨e₁, h1, rfl⟩ := Option.map_eq_some_iff.mp h
  obtain ⟨i, c, rfl⟩ := setSecurity_cases h1
  exact ⟨i, c, rfl⟩

def setup (e : Entity) : (EntityType × Bool × Int × Bool × Bool × Nat × Int × Nat × Nat) ×
    Option (CipherAlgorithm × List UInt8) × Option (IntegrityAlgorithm × List UInt8) × Bool :=
  (e.config, e.ciphering, e.integrity, e.entitySuspended)

def txSide (e : Entity) : ((EntityType × Bool × Int × Bool × Bool × Nat × Int × Nat × Nat) ×
    Option (CipherAlgorithm × List UInt8) × Option (IntegrityAlgorithm × List UInt8) × Bool) × Nat :=
  (e.setup, e.txNext)

theorem txSide_deliverFrom (e : Entity) (count : Nat) : (e.deliverFrom count).txSide = e.txSide := rfl

theorem txSide_startTReordering (e : Entity) : e.startTReordering.txSide = e.txSide := by
  rw [startTReordering]
  split <;> rfl

theorem txSide_updateTReordering (e : Entity) : e.updateTReordering.txSide = e.txSide := by
  simp only [updateTReordering]
  split
  · exact txSide_startTReordering e.stopTReordering
  · rfl

theorem txSide_acceptSdu (e : Entity) (sdu : PdcpSdu) (size : Nat) : (e.acceptSdu sdu size).txSide = e.txSide := by
  rw [acceptSdu, txSide_updateTReordering]
  split
  · exact txSide_deliverFrom (e.storeSdu sdu size) _
  · rfl

theorem txSide_recvPdu (cr : Crypto) (e : Entity) (buffer : List UInt8) : (e.recvPdu cr buffer).txSide = e.txSide := by
  by_cases h : e.Accepts cr buffer
  · rw [h.recvPdu]
    exact txSide_acceptSdu ..
  · obtain ⟨st, h⟩ := recvPdu_of_not_accepts h
    rw [h]
    rfl

theorem txSide_checkTReordering (e : Entity) : e.checkTReordering.txSide = e.txSide := by
  rw [checkTReordering]
  split
  · rfl
  · exact (txSide_startTReordering _).trans (txSide_deliverFrom _ _)

theorem txSide_setTime (e : Entity) (now : Nat) : (e.setTime now).txSide = e.txSide :=
  txSide_checkTReordering { e with tCurrent := now % 2 ^ 64 }

theorem processSdu_cases {r : Entity × Option (List UInt8)} {pduMaxSize : Nat}
    (h : e.processSdu cr buffer pduMaxSize = some r) : (e.entitySuspended = true ∧ r = (e, none)) ∨
      ∃ st, r = ({ e with stats := st, txNext := u32 (e.txNext + 1) }, some (e.buildPdu cr buffer)) := by
  rw [processSdu] at h
  split at h
  · cases h
  · split at h
    · cases h
      exact .inl ⟨‹_›, rfl⟩
    · cases h
      exact .inr ⟨_, rfl⟩

theorem Formed.of_config (h : e.Formed) (hc : e'.config = e.config) : e'.Formed := by
  simp only [config, Prod.mk.injEq] at hc
  obtain ⟨-, -, -, -, -, hs, -, hm, hw⟩ := hc
  exact ⟨hs ▸ h.size, by rw [hm, hs]; exact h.max, by rw [hw, hs]; exact h.window⟩

theorem formed_new {c : EntityConfig} (h : newNrPdcpEntity c = some e) : e.Formed := by
  obtain ⟨i, k, rfl⟩ := setSecurity_cases h
  exact ⟨c.snValid, rfl, rfl⟩

end OaiNr.Pdcp.Entity
