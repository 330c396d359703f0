import OaiNr.Pdcp.Lemmas.Reception

/-!
# The inference of COUNT
-/

namespace OaiNr.Pdcp.Entity

structure SameRx (e e' : Entity) : Prop where
  rxList : e'.rxList = e.rxList
  rxNext : e'.rxNext = e.rxNext
  rxDeliv : e'.rxDeliv = e.rxDeliv
  rxReord : e'.rxReord = e.rxReord

/-- The PDU is not dropped before its COUNT is inferred. -/
def Counts (e : Entity) (buffer : List UInt8) : Prop := e.entitySuspended = false ∧ ¬e.TooSmall buffer.length

/-- The integrity check fails under the COUNT `count`, or an SDU with this COUNT is in the list. -/
def Refuses (cr : Crypto) (e : Entity) (buffer : List UInt8) (count : Nat) : Prop :=
  ¬e.IntegrityOk cr (e.cipherFrom cr (e.rxInput count) (e.headerSize + e.sdapRxHeaderSize) (e.forceDataBit buffer))
    count ∨ SduInList e.rxList count

/-- The COUNT that is inferred for a PDU is `n`; a PDU with a negative one is discarded. -/
structure CountExact (cr : Crypto) (e : Entity) (buffer : List UInt8) (n : Int) : Prop where
  count : e.Counts buffer → 0 ≤ n → (e.pduCount buffer : Int) = n
  discard : n < 0 → e.SameRx (e.recvPdu cr buffer)

variable {e : Entity} {sdu : PdcpSdu} {n : Int}

theorem length_rxList_acceptSdu (hne : sdu.count ≠ e.rxDeliv) (size : Nat) :
    (e.acceptSdu sdu size).rxList.length = e.rxList.length + 1 := by
  rw [acceptSdu, if_neg (show sdu.count ≠ (e.storeSdu sdu size).rxDeliv from hne), (updateTReordering_fields _).2.1]
  exact (sduListAdd_perm sdu e.rxList).length_eq

/-- For every `rx_deliv` and every PDU there is exactly one integer with the received SN in the window
around `rx_deliv`. It is treated as it should be if and only if the PDU is dropped before, or the integer is below
`2 ^ 32`, and not negative unless the PDU is refused under the COUNT to which it wraps. -/
theorem countExact_iff (h : e.Formed) (hd : e.rxDeliv < 4294967296) (cr : Crypto) (buffer : List UInt8) :
    (∃! n, e.Infers (e.rcvdSn (e.forceDataBit buffer)) n) ∧ ∀ n, e.Infers (e.rcvdSn (e.forceDataBit buffer)) n →
        (e.CountExact cr buffer n ↔ (e.Counts buffer →
          n < 4294967296 ∧ (0 ≤ n ∨ e.Refuses cr buffer (n % 4294967296).toNat))) := by
  have hs := e.rcvdSn_lt h.size (e.forceDataBit buffer)
  refine ⟨h.existsUnique_infers hs, fun n hn => ?_⟩
  have hcount : (e.pduCount buffer : Int) = n % 4294967296 := h.rcvdCount_eq hs hn
  have hwrap : (n % 4294967296).toNat = e.pduCount buffer := by omega
  have hw : e.windowSize ≤ 131072 := by
    rw [h.window]
    rcases h.size with h | h <;> rw [h] <;> decide
  have hge := hn.ge
  rw [hwrap]
  constructor
  · intro hex hc
    have hlt : n < 4294967296 := by
      by_contra hge
      have := hex.count hc (by omega)
      omega
    refine ⟨hlt, ?_⟩
    by_contra hno
    rw [not_or, Refuses, not_or, not_not] at hno
    obtain ⟨hneg, hint, hnew⟩ := hno
    -- the COUNT is far above `rx_deliv`, so the SDU stays in the list
    have hacc : e.Accepts cr buffer := ⟨hc.1, hc.2, hint, not_or.mpr ⟨by omega, hnew⟩⟩
    have hlen := congrArg List.length (hex.discard (by omega)).rxList
    rw [hacc.recvPdu, length_rxList_acceptSdu (show e.pduCount buffer ≠ e.rxDeliv by omega)] at hlen
    exact absurd hlen (Nat.succ_ne_self _)
  · intro hok
    refine ⟨fun hc hge => ?_, fun hneg => ?_⟩
    · have := (hok hc).1
      omega
    · have hnot : ¬e.Accepts cr buffer := fun ha =>
        ((hok ⟨ha.active, ha.size⟩).2.resolve_left (by omega)).elim (· ha.integrity) fun hin => ha.fresh (.inr hin)
      obtain ⟨st, hst⟩ := recvPdu_of_not_accepts hnot
      rw [hst]
      exact ⟨rfl, rfl, rfl, rfl⟩

/-- The first PDU of a bearer. -/
theorem countExact_first : ∃ e, newNrPdcpEntity (.plain .drbAm) = some e ∧
    e.CountExact .plain [0x80, 0x00, 0xaa] 0 := by
  have h : (newNrPdcpEntity (.plain .drbAm)).map (fun e => decide (e.rxDeliv = 0 ∧ e.windowSize = 2048 ∧
      e.rcvdSn (e.forceDataBit [0x80, 0x00, 0xaa]) = 0)) = some true := by decide
  obtain ⟨e, he, h⟩ := Option.map_eq_some_iff.mp h
  obtain ⟨h1, h2, h3⟩ := of_decide_eq_true h
  refine ⟨e, he, ((countExact_iff (formed_new he) (by omega) .plain _).2 0 ⟨?_, ?_, ?_⟩).mpr
    fun _ => ⟨by decide, .inl (by decide)⟩⟩
  · rw [h3]
    rfl
  · omega
  · omega

/-- The first PDU that arrives has the SN 2048, which belongs to no COUNT of a new bearer. It is stored
all the same, and `rx_next` is now almost `2 ^ 32`. -/
theorem negative_count_stored : ∃ e, newNrPdcpEntity (.plain .drbAm) = some e ∧ ∃ e', e' = e.recvPdu .plain
    [0x88, 0x00, 0xaa] ∧ e.Infers (e.rcvdSn (e.forceDataBit [0x88, 0x00, 0xaa])) (-2048) ∧
      e'.rxList.map PdcpSdu.count = [4294965248] ∧ e'.rxNext = 4294965249 ∧
      ¬e.CountExact .plain [0x88, 0x00, 0xaa] (-2048) := by
  have h : (newNrPdcpEntity (.plain .drbAm)).map (fun e => decide (e.rxDeliv = 0 ∧ e.snSize = 12 ∧
      e.windowSize = 2048 ∧ e.rcvdSn (e.forceDataBit [0x88, 0x00, 0xaa]) = 2048 ∧ e.rxList = [] ∧
      (e.recvPdu .plain [0x88, 0x00, 0xaa]).rxList.map PdcpSdu.count = [4294965248] ∧
      (e.recvPdu .plain [0x88, 0x00, 0xaa]).rxNext = 4294965249)) = some true := by decide
  obtain ⟨e, he, h⟩ := Option.map_eq_some_iff.mp h
  obtain ⟨h1, h2, h3, h4, h5, h6, h7⟩ := of_decide_eq_true h
  refine ⟨e, he, _, rfl, ⟨?_, ?_, ?_⟩, h6, h7, fun hex => ?_⟩
  · rw [h2, h4]
    rfl
  · omega
  · omega
  · rw [(hex.discard (by decide)).rxList, h5] at h6
    exact absurd h6 (by decide)

end OaiNr.Pdcp.Entity
