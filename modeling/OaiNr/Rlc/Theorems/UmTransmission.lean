import OaiNr.Rlc.Lemmas.UmFrame

/-!
# Transmission of a UM entity

The bytes in the queue leave it in order and none is lost, except where a grant of two bytes meets a whole SDU with
12-bit SNs.
-/

namespace OaiNr.Rlc.Um

open List OaiNr.Bits

variable {c : UmConfig} {e e' : Um} {x x' next : UmSegment} {rest : List UmSegment}
  {buffer out : List UInt8} {sdus pdus : List (List UInt8)}

def queued (e : Um) : List (List UInt8) := e.txList.map payload

def Emits (e : Um) (pdu : List UInt8) (e' : Um) : Prop :=
  ∃ bytes rest, e.queued = (e.pduPayload pdu ++ bytes) :: rest ∧
    e'.queued = if bytes = [] then rest else bytes :: rest

/-- A sender that takes SDUs and grants; meanwhile it may receive and its time may go on. `sdus` are the
SDUs that `recv_sdu` queued and `pdus` the PDUs that `generate_pdu` made. A grant meets `ok`. -/
inductive Sends (ok : Um → Nat → Prop) (c : UmConfig) :
    Um → List (List UInt8) → List (List UInt8) → Prop where
  | new : Sends ok c (newNrRlcEntityUm c) [] []
  | recvSdu {e e' : Um} {sdus pdus} {buffer : List UInt8} {sduId : Int} :
      Sends ok c e sdus pdus → e.recvSdu buffer sduId = .ok e' →
      Sends ok c e' (if e.txSize + buffer.length > e.txMaxsize then sdus else sdus ++ [buffer]) pdus
  | generatePdu {e e' : Um} {sdus pdus} {buffer out : List UInt8} {size : Nat} :
      Sends ok c e sdus pdus → ok e buffer.length → e.generatePdu buffer = .ok (e', out, size) →
      Sends ok c e' sdus (if size = 0 then pdus else pdus ++ [out.take size])
  | recvPdu {e e' : Um} {sdus pdus} {buffer : List UInt8} {fuel : Nat} :
      Sends ok c e sdus pdus → e.recvPdu fuel buffer = .ok e' → Sends ok c e' sdus pdus
  | setTime {e e' : Um} {sdus pdus} {now fuel : Nat} :
      Sends ok c e sdus pdus → e.setTime fuel now = .ok e' → Sends ok c e' sdus pdus

/-! ## One grant -/

theorem pduPayload_congr (h : e.snFieldLength = e'.snFieldLength) : e.pduPayload = e'.pduPayload := by
  funext pdu
  simp only [pduPayload, readSegmentHeader, h]

theorem Written.pduPayload (h : e.TxWf) (hx : x.so + x.size ≤ x.data.length)
    (hb : x.data.length ≤ 16000) (hw : Written e x buffer out) :
    e.pduPayload (out.take (e.computePduHeaderSize x + x.size)) = payload x :=
  pduPayload_eq h.txNext_toNat_lt (by omega) hw.pdu

theorem generatePdu_of_not_starved (h : e.TxWf) (hs : ¬e.Starved buffer.length) :
    e.generatePdu buffer = .ok (e, buffer, 0) ∧ e.Blocked buffer.length ∨
      ∃ e' out size, e.generatePdu buffer = .ok (e', out, size) ∧ 0 < size ∧ size ≤ buffer.length ∧
        Emits e (out.take size) e' := by
  have hpos : ∀ y, 0 < e.computePduHeaderSize y + y.size := by
    intro y
    rw [computePduHeaderSize]
    omega
  rcases generatePdu_spec h buffer with ⟨-, hb, hg⟩ | ⟨x, rest, -, hst, -⟩ |
      ⟨x, rest, out, hl, -, hw, hg⟩ | ⟨x, rest, x', next, out, hl, -, -, hc, hw, hg⟩
  · exact .inl ⟨hg, hb⟩
  · exact absurd hst hs
  · have hx := h.segment x (by rw [hl]; exact mem_cons_self)
    refine .inr ⟨_, _, _, hg, hpos x, hw.fits, [], rest.map payload, ?_, ?_⟩
    · rw [hw.pduPayload h (Nat.le_of_eq hx.covers) hx.bound, queued, hl, append_nil, map_cons]
    · rw [if_pos rfl]
      rfl
  · have hx := h.segment x (by rw [hl]; exact mem_cons_self)
    have hnext := cut_wf hc hx
    have hx' : x'.so + x'.size ≤ x'.data.length ∧ x'.data = x.data := by
      have hcov := hx.covers
      have hlt := hc.lt
      have hso : x'.so = x.so ∧ x'.data = x.data := by
        rw [hc.head]
        exact ⟨rfl, rfl⟩
      rw [hso.1, hso.2]
      exact ⟨by omega, rfl⟩
    refine .inr ⟨_, _, _, hg, hpos x', hw.fits, payload next, rest.map payload, ?_, ?_⟩
    · rw [hw.pduPayload h hx'.1 (by rw [hx'.2]; exact hx.bound), queued, hl, map_cons, payload_cut hc]
    · have hrest : next.isFirst = false := by rw [hc.next]
      rw [if_neg (payload_ne_nil (Nat.le_of_eq hnext.covers) (hnext.rest hrest).2)]
      rfl

theorem generatePdu_of_starved (h : e.TxWf) (hs : e.Starved buffer.length) :
    ∃ e', e.generatePdu buffer = .ok (e', buffer, 0) ∧ e'.txList.length + 1 = e.txList.length := by
  rcases generatePdu_spec h buffer with ⟨hn, -, -⟩ | ⟨x, rest, hl, -, hg⟩ |
      ⟨x, rest, out, -, hn, -, -⟩ | ⟨x, rest, x', next, out, -, hn, -, -, -, -⟩
  · exact absurd hs hn
  · exact ⟨_, hg, by rw [hl]; rfl⟩
  · exact absurd hs hn
  · exact absurd hs hn

/-! ## Whole runs -/

theorem Emits.flatten {pdu : List UInt8} (h : Emits e pdu e') :
    e.queued.flatten = e.pduPayload pdu ++ e'.queued.flatten := by
  obtain ⟨bytes, rest, hq, hq'⟩ := h
  rw [hq, hq', flatten_cons, append_assoc]
  split
  · rename_i hnil
    rw [hnil, nil_append]
  · rw [flatten_cons]

theorem queued_of_outsideRx (h : e'.outsideRx = e.outsideRx) : e'.queued = e.queued := by
  have hq : e'.outsideRx.queued = e.outsideRx.queued := by rw [h]
  exact hq

theorem payload_newSdu (buffer : List UInt8) (sduId : Int) : payload (newSdu buffer sduId) = buffer :=
  take_length

theorem queued_recvSdu {sduId : Int} (h : e.recvSdu buffer sduId = .ok e') :
    e'.queued = if e.txSize + buffer.length > e.txMaxsize then e.queued else e.queued ++ [buffer] := by
  obtain ⟨-, l, s, st, ⟨hfull, rfl⟩ | ⟨hfull, rfl⟩⟩ := recvSdu_cases h
  · rw [if_pos hfull]
    rfl
  · rw [if_neg hfull]
    simp [queued, acceptSdu, payload_newSdu]

theorem Sends.conserved (h : Sends (fun e grant => ¬e.Starved grant) c e sdus pdus) :
    e.TxWf ∧ (pdus.map e.pduPayload).flatten ++ e.queued.flatten = sdus.flatten := by
  induction h with
  | new => exact ⟨txWf_new c, rfl⟩
  | recvSdu _ hr ih =>
    obtain ⟨hwf, ih⟩ := ih
    refine ⟨hwf.recvSdu hr, ?_⟩
    rw [pduPayload_congr (snFieldLength_of_outsideTx (recvSdu_outside hr)), queued_recvSdu hr]
    split
    · exact ih
    · rw [flatten_append, ← append_assoc, ih, flatten_append]
  | generatePdu _ hs hg ih =>
    obtain ⟨hwf, ih⟩ := ih
    refine ⟨hwf.generatePdu hg, ?_⟩
    rcases generatePdu_of_not_starved hwf hs with ⟨hg', -⟩ | ⟨e', out, size, hg', hpos, -, hemit⟩
    · rw [hg] at hg'
      cases hg'
      exact ih
    · rw [hg] at hg'
      cases hg'
      rw [pduPayload_congr (snFieldLength_of_outsideTx (generatePdu_outside hg)),
        if_neg (Nat.pos_iff_ne_zero.mp hpos), map_append, flatten_append, append_assoc, ← ih,
        hemit.flatten]
      simp
  | recvPdu _ hr ih =>
    obtain ⟨hwf, ih⟩ := ih
    have hout := recvPdu_outside hr
    refine ⟨hwf.of_outsideRx hout, ?_⟩
    rw [pduPayload_congr (snFieldLength_of_outsideRx hout), queued_of_outsideRx hout]
    exact ih
  | setTime _ hr ih =>
    obtain ⟨hwf, ih⟩ := ih
    have hout := setTime_outside hr
    refine ⟨hwf.of_outsideRx hout, ?_⟩
    rw [pduPayload_congr (snFieldLength_of_outsideRx hout), queued_of_outsideRx hout]
    exact ih

/-- In every state that a new entity reaches, `generate_pdu` returns 0 with the entity unchanged, or makes a PDU
that fits and carries the next bytes, exactly if the grant is not starved. It returns 0 with the entity unchanged
only if the grant has no room for a byte. Without starved grants the payloads of the PDUs, and behind them the
bytes that still wait, are the queued SDUs. -/
theorem no_byte_lost (c : UmConfig) : (∀ e, Reachable c e → ∀ buffer : List UInt8, ∃ e' out size,
      e.generatePdu buffer = .ok (e', out, size) ∧ (size = 0 → e' = e → e.Blocked buffer.length) ∧
        ((size = 0 ∧ e' = e ∨ 0 < size ∧ size ≤ buffer.length ∧ Emits e (out.take size) e') ↔
          ¬e.Starved buffer.length)) ∧
    ∀ e sdus pdus, Sends (fun e grant => ¬e.Starved grant) c e sdus pdus →
      (pdus.map e.pduPayload).flatten ++ e.queued.flatten = sdus.flatten := by
  refine ⟨fun e he buffer => ?_, fun e sdus pdus h => h.conserved.2⟩
  have hwf := he.txWf
  by_cases hs : e.Starved buffer.length
  · obtain ⟨e', hg, hlen⟩ := generatePdu_of_starved hwf hs
    have hne : e' ≠ e := by
      rintro rfl
      omega
    refine ⟨e', buffer, 0, hg, fun _ h => absurd h hne, fun h => ?_, fun h => absurd hs h⟩
    rcases h with ⟨-, h⟩ | ⟨hpos, -⟩
    · exact absurd h hne
    · exact absurd hpos (Nat.lt_irrefl 0)
  · rcases generatePdu_of_not_starved hwf hs with ⟨hg, hb⟩ | ⟨e', out, size, hg, hpos, hle, hemit⟩
    · exact ⟨e, buffer, 0, hg, fun _ _ => hb, fun _ => hs, fun _ => .inl ⟨rfl, rfl⟩⟩
    · exact ⟨e', out, size, hg, fun h => absurd h (Nat.ne_of_gt hpos), fun _ => hs, fun _ => .inr ⟨hpos, hle, hemit⟩⟩

def um12 : UmConfig :=
  { rxMaxsize := 100000, txMaxsize := 100000, tReassembly := 35, snFieldLength := 12, snValid := .inr rfl }

/-- Two SDUs and three grants: a segment of the first SDU, the rest of it, and the second SDU. -/
theorem no_byte_lost_segmented : ∃ e pdus, Sends (fun e grant => ¬e.Starved grant) um12 e [[1, 2, 3, 4], [5, 6]] pdus ∧
      pdus = [[0x40, 0x00, 1, 2], [0x80, 0x00, 0x00, 0x02, 3, 4], [0x00, 5, 6]] ∧ e.queued = [] ∧
      (pdus.map e.pduPayload).flatten ++ e.queued.flatten = [[1, 2, 3, 4], [5, 6]].flatten := by
  have hs : ∀ (e : Um) (grant : Nat), grant ≠ 2 → ¬e.Starved grant :=
    fun e grant h ⟨_, _, _, _, _, h₂⟩ => h h₂
  have s₁ : Sends (fun e grant => ¬e.Starved grant) um12 _ [[1, 2, 3, 4]] [] :=
    @Sends.recvSdu _ um12 _ _ [] [] [1, 2, 3, 4] 0 .new rfl
  have s₂ : Sends (fun e grant => ¬e.Starved grant) um12 _ [[1, 2, 3, 4], [5, 6]] [] :=
    @Sends.recvSdu _ um12 _ _ _ _ [5, 6] 1 s₁ rfl
  have s₃ : Sends (fun e grant => ¬e.Starved grant) um12 _ _ [[0x40, 0x00, 1, 2]] :=
    @Sends.generatePdu _ um12 _ _ _ _ [0, 0, 0, 0] _ _ s₂ (hs _ _ (by decide)) rfl
  have s₄ : Sends (fun e grant => ¬e.Starved grant) um12 _ _ [[0x40, 0x00, 1, 2], [0x80, 0x00, 0x00, 0x02, 3, 4]] :=
    @Sends.generatePdu _ um12 _ _ _ _ [0, 0, 0, 0, 0, 0] _ _ s₃ (hs _ _ (by decide)) rfl
  have s₅ : Sends (fun e grant => ¬e.Starved grant) um12 _ _
      [[0x40, 0x00, 1, 2], [0x80, 0x00, 0x00, 0x02, 3, 4], [0x00, 5, 6]] :=
    @Sends.generatePdu _ um12 _ _ _ _ [0, 0, 0] _ _ s₄ (hs _ _ (by decide)) rfl
  exact ⟨_, _, s₅, rfl, rfl, (no_byte_lost um12).2 _ _ _ s₅⟩

/-- Behind an SDU of two bytes, a grant of two bytes returns 0 and leaves the queue empty. -/
theorem starved_grant_loses_sdu : ∃ e e', (newNrRlcEntityUm um12).recvSdu [1, 2] 0 = .ok e ∧ e.queued = [[1, 2]] ∧
      e.generatePdu [0, 0] = .ok (e', [0, 0], 0) ∧ e'.queued = [] :=
  ⟨_, _, rfl, rfl, rfl, rfl⟩

end OaiNr.Rlc.Um
