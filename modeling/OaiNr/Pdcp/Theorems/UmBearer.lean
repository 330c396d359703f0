import OaiNr.Pdcp.Theorems.EndToEnd
import OaiNr.Rlc.Theorems.UmEndToEnd

/-!
# PDCP over RLC UM
-/

namespace OaiNr.Pdcp

open List Entity Rlc
open UmLink (HasRoom umSmall)

/-- A bearer in UM: two PDCP entities, and the RLC entities that carry their PDUs -/
structure UmBearer where
  pdcp : Link
  rlc : UmLink

namespace UmBearer

variable (cr : Crypto) (c c' : EntityConfig) (d d' : UmConfig)

/-- A step of one of the entities. RLC is given PDUs that PDCP has sent, and PDCP receives one that RLC has delivered,
while its COUNT is in the window. -/
inductive Step (b : UmBearer) : UmBearer → Prop where
  | sender {l : Link} : Link.Step cr 4294967295 b.pdcp l → l.rcv = b.pdcp.rcv → Step b { b with pdcp := l }
  | rlc {acts : List UmLink.Act} {fuel : Nat} {k : UmLink} :
      b.rlc.execAll HasRoom fuel acts = some k → (∀ sdu ∈ k.sdus, sdu ∈ b.pdcp.sent.map Prod.snd) →
      Step b { b with rlc := k }
  | receive {pdu : List UInt8} :
      .deliverSdu pdu ∈ b.rlc.rcv.calls →
      (∀ count buffer, b.pdcp.sent[count]? = some (buffer, pdu) → b.pdcp.InWindow count) →
      Step b { b with pdcp := { b.pdcp with rcv := b.pdcp.rcv.recvPdu cr pdu } }
  | rcvTime (now : Nat) : Step b { b with pdcp := { b.pdcp with rcv := b.pdcp.rcv.setTime now } }
  | rcvSend {buffer : List UInt8} {pduMaxSize : Nat} {r : Entity × Option (List UInt8)} :
      b.pdcp.rcv.processSdu cr buffer pduMaxSize = some r →
      Step b { b with pdcp := { b.pdcp with rcv := r.1 } }

inductive Reaches : UmBearer → Prop where
  | new {s r : Entity} : newNrPdcpEntity c = some s → newNrPdcpEntity c' = some r →
      Reaches ⟨⟨s, r, []⟩, { snd := .newNrRlcEntityUm d, rcv := .newNrRlcEntityUm d' }⟩
  | step {b b' : UmBearer} : Reaches b → Step cr b b' → Reaches b'

def InOrder (b : UmBearer) : Prop :=
  (b.pdcp.rcv.calls.Pairwise fun x y => x.count < y.count) ∧
    ∀ x ∈ b.pdcp.rcv.calls, (b.pdcp.sent.map Prod.fst)[x.count]? = some x.buffer

/-- Each layer runs as it does alone, and what RLC was given are PDUs of PDCP. -/
structure Layered (b : UmBearer) : Prop where
  pdcp : Link.Reaches cr 4294967295 c c' b.pdcp
  rlc : UmLink.Reaches HasRoom d d' b.rlc
  submitted : ∀ sdu ∈ b.rlc.sdus, sdu ∈ b.pdcp.sent.map Prod.snd

variable {cr c c' d d'} {b : UmBearer} (hd : d'.snFieldLength = d.snFieldLength)

theorem sent_step {limit : Nat} {k k' : Link} (h : Link.Step cr limit k k') : k.sent <+: k'.sent := by
  cases h with
  | send => exact prefix_append ..
  | _ => exact prefix_rfl

include hd

theorem Layered.sent (h : Layered cr c c' d d' b) {pdu : List UInt8} (hpdu : .deliverSdu pdu ∈ b.rlc.rcv.calls) :
    ∃ (count : Nat) (buffer : _), b.pdcp.sent[count]? = some (buffer, pdu) := by
  obtain ⟨-, hrcv⟩ := h.rlc.ok hd
  rw [hrcv.calls] at hpdu
  obtain ⟨call, hcall, heq⟩ := mem_map.mp hpdu
  obtain ⟨sdu, hsdu, hdelivered, -⟩ := hrcv.genuine call hcall
  cases heq.symm.trans hdelivered
  obtain ⟨⟨buffer, _⟩, hsent, rfl⟩ := mem_map.mp (h.submitted _ hsdu)
  obtain ⟨count, hcount⟩ := mem_iff_getElem?.mp hsent
  exact ⟨count, buffer, hcount⟩

theorem Reaches.layered (h : Reaches cr c c' d d' b) : Layered cr c c' d d' b := by
  induction h with
  | new hs hr => exact ⟨.new hs hr, .new, nofun⟩
  | step _ hs ih =>
    cases hs with
    | sender hl _ =>
      exact ⟨ih.pdcp.step hl, ih.rlc, fun sdu hsdu => ((sent_step hl).map _).subset (ih.submitted sdu hsdu)⟩
    | rlc hk hsdus => exact ⟨ih.pdcp, ih.rlc.execAll hk, hsdus⟩
    | receive hpdu hwin =>
      obtain ⟨count, buffer, hcount⟩ := ih.sent hd hpdu
      exact ⟨ih.pdcp.step (.receive hcount (hwin count buffer hcount)), ih.rlc, ih.submitted⟩
    | rcvTime now => exact ⟨ih.pdcp.step (.rcvTime now), ih.rlc, ih.submitted⟩
    | rcvSend hr => exact ⟨ih.pdcp.step (.rcvSend hr), ih.rlc, ih.submitted⟩

/-- Whatever is lost, duplicated and reordered below RLC, PDCP delivers what the sender was given, in the order of the
COUNTs. -/
theorem umBearer_delivers_in_order (h : Reaches cr c c' d d' b) (hp : Paired c c') : b.InOrder := by
  have hf := (h.layered hd).pdcp.faithful hp
  exact ⟨(pairwise_append.mp hf.ordered).1, fun x hx => hf.buffer x (mem_append_left _ hx)⟩

omit hd

def umGnb : EntityConfig := { EntityConfig.plain .drbUm with isGnb := true }

/-- Two SDUs go down through PDCP and RLC. The second one arrives first, and PDCP puts them in order. -/
theorem umBearer_delivers_reordered : ∃ b, Reaches .plain (.plain .drbUm) umGnb umSmall umSmall b ∧
    b.rlc.rcv.calls = [.deliverSdu [0x80, 1, 8], .deliverSdu [0x80, 0, 7]] ∧
    b.pdcp.rcv.calls.map PdcpSdu.buffer = [[7], [8]] ∧ b.InOrder := by
  have h : ((newNrPdcpEntity (.plain .drbUm)).bind fun s => (newNrPdcpEntity umGnb).bind fun r =>
      (s.processSdu .plain [7] 100).bind fun p => (p.1.processSdu .plain [8] 100).bind fun q =>
        (UmLink.execAll HasRoom 2 { snd := .newNrRlcEntityUm umSmall, rcv := .newNrRlcEntityUm umSmall }
          [.submit [0x80, 0, 7] 0, .submit [0x80, 1, 8] 1, .grant [0, 0, 0, 0], .grant [0, 0, 0, 0],
            .receive 1, .receive 0]).map fun k =>
        let r' := r.recvPdu .plain [0x80, 1, 8]
        decide (s.sdapTxHeaderSize = 0 ∧ p.1.sdapTxHeaderSize = 0 ∧ p.2 = some [0x80, 0, 7] ∧ q.2 = some [0x80, 1, 8] ∧
          r.rxDeliv = 0 ∧ r.windowSize = 2048 ∧ r'.rxDeliv = 0 ∧ r'.windowSize = 2048 ∧
          (r'.recvPdu .plain [0x80, 0, 7]).calls.map PdcpSdu.buffer = [[7], [8]] ∧
          k.sdus = [[0x80, 0, 7], [0x80, 1, 8]] ∧
          k.rcv.calls = [.deliverSdu [0x80, 1, 8], .deliverSdu [0x80, 0, 7]])) = some true := by decide
  obtain ⟨s, hs, h⟩ := Option.bind_eq_some_iff.mp h
  obtain ⟨r, hr, h⟩ := Option.bind_eq_some_iff.mp h
  obtain ⟨⟨s', p⟩, hsend, h⟩ := Option.bind_eq_some_iff.mp h
  obtain ⟨⟨s'', q⟩, hsend', h⟩ := Option.bind_eq_some_iff.mp h
  obtain ⟨k, hk, h⟩ := Option.map_eq_some_iff.mp h
  obtain ⟨hsize, hsize', rfl, rfl, hdeliv, hwindow, hdeliv', hwindow', hcalls, hsdus, hdelivered⟩ := of_decide_eq_true h
  have hnew := @Reaches.new .plain _ _ umSmall umSmall _ _ hs hr
  have hsent := (hnew.step (.sender (.send (by simp [hsize]) (by simp) hsend) rfl)).step
    (.sender (.send (by simp [hsize']) (by simp) hsend') rfl)
  have hsecond : .deliverSdu [0x80, 1, 8] ∈ k.rcv.calls := by simp [hdelivered]
  have hfirst : .deliverSdu [0x80, 0, 7] ∈ k.rcv.calls := by simp [hdelivered]
  have hrlc := (hsent.step (.rlc hk (by simp [hsdus]))).step (.receive hsecond fun count _ hcount => by
    have hlt : count < 2 := (List.getElem?_eq_some_iff.mp hcount).1
    simp only [Link.InWindow, hdeliv, hwindow]
    omega)
  have hlast := hrlc.step (.receive hfirst fun count _ hcount => by
    have hlt : count < 2 := (List.getElem?_eq_some_iff.mp hcount).1
    simp only [Link.InWindow, hdeliv', hwindow']
    omega)
  exact ⟨_, hlast, hdelivered, hcalls, umBearer_delivers_in_order rfl hlast (by constructor <;> rfl)⟩

end UmBearer

end OaiNr.Pdcp
