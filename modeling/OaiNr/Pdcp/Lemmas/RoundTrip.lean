import OaiNr.Pdcp.Lemmas.Reception

/-!
# A PDU on the way from one entity to another
-/

namespace OaiNr.Pdcp.Entity

open List

structure Matching (s r : Entity) : Prop where
  type : r.type = s.type
  rbId : r.rbId = s.rbId
  isGnb : r.isGnb = !s.isGnb
  sdap : r.hasSdapRx = s.hasSdapTx
  snSize : r.snSize = s.snSize
  ciphering : r.ciphering = s.ciphering
  integrity : r.integrity = s.integrity

variable {cr : Crypto} {s r : Entity} {buffer : List UInt8} {count sn : Nat}

namespace Matching

variable (h : Matching s r)
include h

theorem headerSize : r.headerSize = s.headerSize := by
  rw [Entity.headerSize, Entity.headerSize, h.snSize]

theorem integritySize : r.integritySize = s.integritySize := by
  rw [Entity.integritySize, Entity.integritySize, h.integrity, h.type]

theorem sdapHeaderSize : r.sdapRxHeaderSize = s.sdapTxHeaderSize := by
  rw [sdapRxHeaderSize, sdapTxHeaderSize, h.sdap]

theorem input (count : Nat) : r.rxInput count = s.txInput count := by
  rw [rxInput, txInput, h.rbId, h.isGnb]
  cases s.isGnb <;> rfl

end Matching

/-! ## Sizes -/

theorem length_txHeader (s : Entity) (sn : Nat) : (s.txHeader sn).length = s.headerSize := by
  rw [txHeader, headerSize]
  split <;> rfl

theorem length_txMac (cr : Crypto) (s : Entity) (count : Nat) (message : List UInt8) :
    (s.txMac cr count message).length = s.integritySize := by
  rw [txMac]
  split
  · rename_i h
    rw [cr.length_integrity, integritySize, h]
    rfl
  · exact length_replicate

theorem length_cipherFrom (cr : Crypto) (s : Entity) (input : CryptoInput) (clear : Nat)
    (buffer : List UInt8) : (s.cipherFrom cr input clear buffer).length = buffer.length := by
  rw [cipherFrom]
  split
  · rfl
  · rw [length_append, cr.length_cipher, length_take, length_drop]
    omega

theorem length_buildPdu (cr : Crypto) (s : Entity) (buffer : List UInt8) :
    (s.buildPdu cr buffer).length = s.headerSize + buffer.length + s.integritySize := by
  rw [buildPdu, length_cipherFrom, length_append, length_append, length_txHeader, length_txMac]

theorem Matching.tooSmall_iff (h : Matching s r) :
    r.TooSmall (s.buildPdu cr buffer).length ↔ buffer.length ≤ s.sdapTxHeaderSize := by
  rw [TooSmall, length_buildPdu, h.headerSize, h.integritySize, h.sdapHeaderSize]
  omega

/-! ## The header -/

theorem low_bits : ∀ x < 16, ∀ dc ∈ [(0x80 : UInt8), 0], ((dc ||| UInt8.ofNat x) &&& 0xf).toNat = x := by
  decide +kernel

theorem low_two_bits : ∀ x < 4, ∀ dc ∈ [(0x80 : UInt8), 0], ((dc ||| UInt8.ofNat x) &&& 0x3).toNat = x := by
  decide +kernel

theorem dcBit_mem (s : Entity) : s.dcBit ∈ [(0x80 : UInt8), 0] := by
  rw [dcBit]
  split <;> simp

theorem toNat_ofNat_and (x : Nat) : (UInt8.ofNat (x &&& 0xff)).toNat = x % 256 := by
  have h : x &&& 0xff = x % 256 := Nat.and_two_pow_sub_one_eq_mod x 8
  rw [h, UInt8.toNat_ofNat']
  exact Nat.mod_eq_of_lt (Nat.mod_lt _ (by decide))

theorem rcvdSn_txHeader (hs : s.snSize = 12 ∨ s.snSize = 18) (hr : r.snSize = s.snSize)
    (hsn : sn < 2 ^ s.snSize) (rest : List UInt8) : r.rcvdSn (s.txHeader sn ++ rest) = sn := by
  rcases hs with hs | hs
  · have hlow : sn >>> 8 &&& 0xf < 16 := Nat.and_lt_two_pow (n := 4) _ (by decide)
    have hx : sn >>> 8 &&& 0xf = sn / 256 := by
      rw [Nat.shiftRight_eq_div_pow, show (0xf : Nat) = 2 ^ 4 - 1 from rfl, Nat.and_two_pow_sub_one_eq_mod]
      rw [hs] at hsn
      omega
    rw [txHeader, if_pos (show s.snSize = shortSnSize from hs), rcvdSn,
      if_pos (show r.snSize = shortSnSize from hr.trans hs)]
    simp only [cons_append, nil_append, getD_cons_zero, getD_cons_succ]
    rw [low_bits _ hlow _ s.dcBit_mem, toNat_ofNat_and, hx,
      ← Nat.shiftLeft_add_eq_or_of_lt (Nat.mod_lt _ (by decide)), Nat.shiftLeft_eq]
    omega
  · have hne : ¬s.snSize = shortSnSize := by rw [hs]; decide
    have hlow : sn >>> 16 &&& 0x3 < 4 := Nat.and_lt_two_pow (n := 2) _ (by decide)
    have hx : sn >>> 16 &&& 0x3 = sn / 65536 := by
      rw [Nat.shiftRight_eq_div_pow, show (0x3 : Nat) = 2 ^ 2 - 1 from rfl, Nat.and_two_pow_sub_one_eq_mod]
      rw [hs] at hsn
      omega
    rw [txHeader, if_neg hne, rcvdSn, if_neg (show ¬r.snSize = shortSnSize by rw [hr]; exact hne)]
    simp only [cons_append, nil_append, getD_cons_zero, getD_cons_succ]
    have hmid : sn / 65536 * 2 ^ 16 ||| sn / 256 % 256 * 2 ^ 8 = (sn / 65536 * 256 + sn / 256 % 256) * 2 ^ 8 := by
      have hlt : sn / 256 % 256 * 2 ^ 8 < 2 ^ 16 := by omega
      rw [← Nat.shiftLeft_eq (sn / 65536), ← Nat.shiftLeft_add_eq_or_of_lt hlt, Nat.shiftLeft_eq]
      omega
    rw [low_two_bits _ hlow _ s.dcBit_mem, toNat_ofNat_and, toNat_ofNat_and, hx, Nat.shiftLeft_eq,
      Nat.shiftLeft_eq, Nat.shiftRight_eq_div_pow, hmid, ← Nat.shiftLeft_eq,
      ← Nat.shiftLeft_add_eq_or_of_lt (Nat.mod_lt _ (by decide)), Nat.shiftLeft_eq]
    omega

theorem forceDataBit_txHeader (h : r.type = s.type) (rest : List UInt8) :
    r.forceDataBit (s.txHeader sn ++ rest) = s.txHeader sn ++ rest := by
  rw [forceDataBit]
  refine if_neg fun hc => ?_
  obtain ⟨ht, hbit⟩ := hc
  have hdrb : s.type = .drbAm ∨ s.type = .drbUm := by
    rw [h] at ht
    cases hs : s.type <;> simp_all
  have hset : ∀ x : UInt8, (0x80 ||| x) &&& 0x80 ≠ 0 := by
    intro x hx
    have := congrArg UInt8.toNat hx
    rw [UInt8.toNat_and, UInt8.toNat_or] at this
    have hb := congrArg (Nat.testBit · 7) this
    simp only [Nat.testBit_and, Nat.testBit_or] at hb
    revert hb
    simp +decide
  have hdc : s.dcBit = 0x80 := if_pos hdrb
  rw [txHeader, hdc] at hbit
  split at hbit
  · exact hset _ hbit
  · exact hset _ hbit

/-! ## Ciphering -/

theorem cipherFrom_cipherFrom (hc : r.ciphering = s.ciphering) (input : CryptoInput) {clear : Nat}
    (hle : clear ≤ buffer.length) : r.cipherFrom cr input clear (s.cipherFrom cr input clear buffer) = buffer := by
  rw [cipherFrom, cipherFrom, hc]
  cases s.ciphering with
  | none => rfl
  | some k =>
    have hlen : (buffer.take clear).length = clear := by
      rw [length_take]
      omega
    simp only
    rw [take_append_of_le_length (by omega), drop_append_of_le_length (by omega),
      take_take, Nat.min_self, drop_take, Nat.sub_self, take_zero, nil_append,
      cr.cipher_cipher, take_append_drop]

theorem cipherFrom_append {h : List UInt8} (cr : Crypto) (s : Entity) (input : CryptoInput) {clear : Nat}
    (hle : h.length ≤ clear) (rest : List UInt8) : ∃ rest', s.cipherFrom cr input clear (h ++ rest) = h ++ rest' := by
  rw [cipherFrom]
  cases s.ciphering with
  | none => exact ⟨rest, rfl⟩
  | some k =>
    simp only
    rw [take_append, take_of_length_le hle, append_assoc]
    exact ⟨_, rfl⟩

/-! ## The same keys -/

theorem setIntegrity_congr {p : KeysAndAlgos} {s' r' : Entity} (h : r.integrity = s.integrity)
    (hs : setIntegrity p s = some s') (hr : setIntegrity p r = some r') : r'.integrity = s'.integrity := by
  rw [setIntegrity] at hs hr
  split_ifs at hs hr <;> cases hs <;> cases hr <;> first | exact h | rfl

theorem setCiphering_congr {p : KeysAndAlgos} {s' r' : Entity} (h : r.ciphering = s.ciphering)
    (hs : setCiphering p s = some s') (hr : setCiphering p r = some r') : r'.ciphering = s'.ciphering := by
  rw [setCiphering] at hs hr
  split_ifs at hs hr <;> cases hs <;> cases hr <;> first | exact h | rfl

theorem setSecurity_congr {p : KeysAndAlgos} {s' r' : Entity} (hi : r.integrity = s.integrity)
    (hc : r.ciphering = s.ciphering) (hs : s.setSecurity p = some s') (hr : r.setSecurity p = some r') :
    r'.integrity = s'.integrity ∧ r'.ciphering = s'.ciphering := by
  obtain ⟨s₁, hs1, hs2⟩ := Option.bind_eq_some_iff.mp hs
  obtain ⟨r₁, hr1, hr2⟩ := Option.bind_eq_some_iff.mp hr
  have hi' := setIntegrity_congr hi hs1 hr1
  have hc₁ : r₁.ciphering = s₁.ciphering := by
    obtain ⟨i, rfl⟩ := setIntegrity_cases hs1
    obtain ⟨i', rfl⟩ := setIntegrity_cases hr1
    exact hc
  have hc' := setCiphering_congr hc₁ hs2 hr2
  obtain ⟨c, rfl⟩ := setCiphering_cases hs2
  obtain ⟨c', rfl⟩ := setCiphering_cases hr2
  exact ⟨hi', hc'⟩

/-! ## The whole way -/

structure Understands (cr : Crypto) (r : Entity) (pdu buffer : List UInt8) (count : Nat) : Prop where
  count : r.pduCount pdu = count
  size : ¬r.TooSmall pdu.length
  integrity : r.IntegrityOk cr (r.plainPdu cr pdu) (r.pduCount pdu)
  buffer : (r.sduOf cr pdu).buffer = buffer

theorem Matching.understands (h : Matching s r) (hs : s.Formed) (hr : r.Formed)
    (hcount : s.txNext < 4294967296) (hsize : s.sdapTxHeaderSize < buffer.length)
    (hge : (r.rxDeliv : Int) - r.windowSize ≤ s.txNext) (hlt : (s.txNext : Int) < r.rxDeliv + r.windowSize) :
    Understands cr r (s.buildPdu cr buffer) buffer s.txNext := by
  have hsn : s.txNext &&& s.snMax < 2 ^ s.snSize := by
    rw [hs.max, Nat.and_two_pow_sub_one_eq_mod]
    exact Nat.mod_lt _ (Nat.two_pow_pos _)
  have hclear : (s.txHeader (s.txNext &&& s.snMax)).length ≤ s.headerSize + s.sdapTxHeaderSize := by
    rw [length_txHeader]
    exact Nat.le_add_right ..
  obtain ⟨rest, hrest⟩ : ∃ rest, s.buildPdu cr buffer = s.txHeader (s.txNext &&& s.snMax) ++ rest := by
    rw [buildPdu, append_assoc]
    exact cipherFrom_append cr s _ hclear _
  have hforce : r.forceDataBit (s.buildPdu cr buffer) = s.buildPdu cr buffer := by
    rw [hrest]
    exact forceDataBit_txHeader h.type rest
  have hpdu : r.pduCount (s.buildPdu cr buffer) = s.txNext := by
    have hrcv : r.rcvdSn (s.buildPdu cr buffer) = s.txNext &&& s.snMax := by
      rw [hrest]
      exact rcvdSn_txHeader hs.size h.snSize hsn rest
    have hinf : r.Infers (s.txNext &&& s.snMax) s.txNext := by
      refine ⟨?_, hge, hlt⟩
      rw [hs.max, Nat.and_two_pow_sub_one_eq_mod, h.snSize]
      norm_cast
    have hc := hr.rcvdCount_eq (h.snSize ▸ hsn) hinf
    rw [pduCount, hforce, hrcv]
    omega
  -- the PDU as it was before ciphering
  have hplain : r.plainPdu cr (s.buildPdu cr buffer) = s.txHeader (s.txNext &&& s.snMax) ++ buffer ++
      s.txMac cr s.txNext (s.txHeader (s.txNext &&& s.snMax) ++ buffer) := by
    rw [plainPdu, hforce, hpdu, h.input, h.headerSize, h.sdapHeaderSize, buildPdu]
    refine cipherFrom_cipherFrom h.ciphering _ ?_
    rw [length_append, length_append, length_txHeader]
    omega
  have hmac := length_txMac cr s s.txNext (s.txHeader (s.txNext &&& s.snMax) ++ buffer)
  have hcut : ∀ m mac : List UInt8, mac.length = s.integritySize →
      (m ++ mac).take ((m ++ mac).length - s.integritySize) = m ∧
        (m ++ mac).drop ((m ++ mac).length - s.integritySize) = mac := by
    intro m mac hm
    rw [length_append, hm, Nat.add_sub_cancel]
    exact ⟨take_left, drop_left⟩
  refine ⟨hpdu, ?_, ?_, ?_⟩
  · rw [h.tooSmall_iff]
    omega
  · rw [IntegrityOk, hplain, hpdu, h.integritySize, (hcut _ _ hmac).1, (hcut _ _ hmac).2, h.integrity, h.input, txMac]
    cases s.integrity with
    | none => trivial
    | some k => rfl
  · simp only [sduOf]
    rw [hplain, h.integritySize, (hcut _ _ hmac).1, h.headerSize, ← length_txHeader s (s.txNext &&& s.snMax),
      drop_left]

end OaiNr.Pdcp.Entity
