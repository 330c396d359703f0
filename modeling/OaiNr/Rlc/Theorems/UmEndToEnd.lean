import OaiNr.Rlc.Lemmas.UmLink
import OaiNr.Rlc.Theorems.UmAccounting

/-!
# From one UM entity to the other
-/

namespace OaiNr.Rlc.UmLink

open List OaiNr.Bits Um

variable {k k' : UmLink} {c c' : UmConfig} {op : Op} {fuel : Nat} {buffer : List UInt8} {i : Nat} {p : Packet}

def numbers (k : UmLink) : List Nat := k.delivered.filterMap Prod.fst

def DeliversSent (k : UmLink) : Prop :=
  ∀ d ∈ k.delivered, ∃ sdu ∈ k.sdus, d.2 = .deliverSdu sdu ∧ ∀ i ∈ d.1, k.segmented[i]? = some sdu

structure RcvOk (k : UmLink) : Prop where
  length : k.rcv.snFieldLength = k.snd.snFieldLength
  tx : k.rcv.TxWf
  rx : k.rcv.RxWf
  holds : k.rcv.Holds k.segmented k.highest k.numbers
  nodup : k.numbers.Nodup
  calls : k.rcv.calls = k.delivered.map Prod.snd
  genuine : k.DeliversSent

/-! ## The sender acts -/

structure Extends (k k' : UmLink) : Prop where
  rcv : k'.rcv = k.rcv
  highest : k'.highest = k.highest
  delivered : k'.delivered = k.delivered
  length : k'.snd.snFieldLength = k.snd.snFieldLength
  sdus : ∃ more, k'.sdus = k.sdus ++ more
  segmented : ∃ more, k'.segmented = k.segmented ++ more

theorem RcvOk.extends (h : k.RcvOk) (he : Extends k k') : k'.RcvOk := by
  obtain ⟨more, hsdus⟩ := he.sdus
  obtain ⟨more', hseg⟩ := he.segmented
  have hnum : k'.numbers = k.numbers := by rw [numbers, he.delivered, numbers]
  refine ⟨?_, ?_, ?_, ?_, ?_, ?_, fun d hd => ?_⟩
  · rw [he.rcv, he.length]
    exact h.length
  · rw [he.rcv]
    exact h.tx
  · rw [he.rcv]
    exact h.rx
  · rw [he.rcv, he.highest, hnum, hseg]
    exact h.holds.mono
  · rw [hnum]
    exact h.nodup
  · rw [he.rcv, he.delivered]
    exact h.calls
  · rw [he.delivered] at hd
    obtain ⟨sdu, hsdu, hcall, hi⟩ := h.genuine d hd
    refine ⟨sdu, by rw [hsdus]; exact mem_append_left _ hsdu, hcall, fun i hmem => ?_⟩
    rw [hseg, List.getElem?_append_left (List.getElem?_eq_some_iff.mp (hi i hmem)).1]
    exact hi i hmem

theorem submit_extends {sdu : List UInt8} {sduId : Int} (hr : k.submit sdu sduId = .ok k') : Extends k k' := by
  obtain ⟨snd, hs, rfl⟩ := map_eq_ok.mp hr
  refine ⟨rfl, rfl, rfl, snFieldLength_of_outsideTx (recvSdu_outside hs), ?_, ⟨[], (append_nil _).symm⟩⟩
  simp only
  split
  · exact ⟨[], (append_nil _).symm⟩
  · exact ⟨_, rfl⟩

theorem emit_extends (k : UmLink) (x : UmSegment) (cut : Bool) (pdu : List UInt8) : Extends k (k.emit x cut pdu) := by
  simp only [emit]
  split
  · exact ⟨rfl, rfl, rfl, rfl, ⟨[], (append_nil _).symm⟩, ⟨[], (append_nil _).symm⟩⟩
  · refine ⟨rfl, rfl, rfl, rfl, ⟨[], (append_nil _).symm⟩, ?_⟩
    simp only
    split
    · exact ⟨_, rfl⟩
    · exact ⟨[], (append_nil _).symm⟩

theorem Extends.setSnd {snd : Um} (h : Extends k k') (hl : snd.snFieldLength = k.snd.snFieldLength) :
    Extends k { k' with snd } :=
  ⟨h.rcv, h.highest, h.delivered, hl, h.sdus, h.segmented⟩

theorem Extends.refl (k : UmLink) : Extends k k :=
  ⟨rfl, rfl, rfl, rfl, ⟨[], (append_nil _).symm⟩, ⟨[], (append_nil _).symm⟩⟩

theorem grant_extends (hr : k.grant buffer = .ok k') : Extends k k' := by
  obtain ⟨r, hg, rfl⟩ := map_eq_ok.mp hr
  have hlen := snFieldLength_of_outsideTx (generatePdu_outside hg)
  split
  · exact (Extends.refl k).setSnd hlen
  · split
    · exact (Extends.refl k).setSnd hlen
    · exact (emit_extends ..).setSnd hlen

/-! ## The receiver acts -/

theorem RcvOk.rcvOp (h : k.RcvOk) (ho : RcvOp op = true) {rcv : Um} (hr : k.rcv.exec fuel op = .ok rcv) :
    ({ k with rcv } : UmLink).RcvOk := by
  have hlen := exec_snFieldLength hr
  have htx := h.tx.exec hr
  have hrx := h.rx.exec h.tx.modulus hr
  have hrest : rcv.Holds k.segmented k.highest k.numbers ∧ rcv.calls = k.rcv.calls := by
    have hframe : rcv.outsideTx = k.rcv.outsideTx →
        rcv.Holds k.segmented k.highest k.numbers ∧ rcv.calls = k.rcv.calls := by
      intro he
      have hw : rcv.outsideTx.win = k.rcv.outsideTx.win := by rw [he]
      have hreas : rcv.outsideTx.rxNextReassembly = k.rcv.outsideTx.rxNextReassembly := by rw [he]
      have hl : rcv.outsideTx.rxList = k.rcv.outsideTx.rxList := by rw [he]
      have hc : rcv.outsideTx.calls = k.rcv.outsideTx.calls := by rw [he]
      exact ⟨h.holds.of_eq hw hreas hl, hc⟩
    cases op with
    | recvSdu buffer sduId => exact hframe (recvSdu_outside hr)
    | generatePdu buffer =>
      obtain ⟨r, hg, rfl⟩ := map_eq_ok.mp hr
      exact hframe (generatePdu_outside hg)
    | discardSdu sduId =>
      cases hr
      exact hframe (discardSdu_outside _ sduId)
    | setTime now => exact h.holds.setTime h.rx hr
    | recvPdu => cases ho
    | reestablishment => cases ho
  exact ⟨hlen.trans h.length, htx, hrx, hrest.1, h.nodup, hrest.2.trans h.calls, h.genuine⟩

theorem RcvOk.silent (h : k.RcvOk) {rcv : Um} {n : Nat} (hr : k.rcv.recvPdu fuel buffer = .ok rcv)
    (hh : rcv.Holds k.segmented n k.numbers) (hc : rcv.calls = k.rcv.calls) (o : Option Nat) :
    ({ k with
        rcv
        delivered := k.delivered ++ (rcv.calls.drop k.rcv.calls.length).map fun c => (o, c)
        highest := n } : UmLink).RcvOk := by
  rw [hc, drop_length, map_nil, append_nil]
  exact ⟨(snFieldLength_of_outsideRx (recvPdu_outside hr)).trans h.length,
    h.tx.of_outsideRx (recvPdu_outside hr), h.rx.recvPdu h.tx.modulus hr, hh, h.nodup, hc.trans h.calls, h.genuine⟩

theorem RcvOk.delivery (h : k.RcvOk) {rcv : Um} {n : Nat} {sdu : List UInt8} {o : Option Nat}
    (hr : k.rcv.recvPdu fuel buffer = .ok rcv) (hh : rcv.Holds k.segmented n (k.numbers ++ o.toList))
    (hc : rcv.calls = k.rcv.calls ++ [.deliverSdu sdu]) (hsdu : sdu ∈ k.sdus)
    (hi : ∀ i ∈ o, i ∉ k.numbers ∧ k.segmented[i]? = some sdu) :
    ({ k with
        rcv
        delivered := k.delivered ++ (rcv.calls.drop k.rcv.calls.length).map fun c => (o, c)
        highest := n } : UmLink).RcvOk := by
  have hlog : (rcv.calls.drop k.rcv.calls.length).map (fun c => (o, c)) = [(o, .deliverSdu sdu)] := by
    rw [hc, drop_left]
    rfl
  rw [hlog]
  have hnum : (k.delivered ++ [(o, Call.deliverSdu sdu)]).filterMap Prod.fst = k.numbers ++ o.toList := by
    rw [filterMap_append]
    cases o <;> rfl
  refine ⟨(snFieldLength_of_outsideRx (recvPdu_outside hr)).trans h.length,
    h.tx.of_outsideRx (recvPdu_outside hr), h.rx.recvPdu h.tx.modulus hr, ?_, ?_, ?_, fun d hd => ?_⟩
  · rw [numbers, hnum]
    exact hh
  · rw [numbers, hnum]
    cases o with
    | none =>
      rw [Option.toList_none, append_nil]
      exact h.nodup
    | some i =>
      refine nodup_append.mpr ⟨h.nodup, pairwise_singleton _ i, fun a ha b hb heq => ?_⟩
      rw [heq, mem_singleton.mp hb] at ha
      exact (hi i rfl).1 ha
  · rw [hc, h.calls, map_append]
    rfl
  · rcases mem_append.mp hd with hd | hd
    · exact h.genuine d hd
    · rw [mem_singleton.mp hd]
      exact ⟨sdu, hsdu, rfl, fun i hmem => (hi i hmem).2⟩

theorem receive_fields (hr : k.receive fuel p = .ok k') :
    k'.snd = k.snd ∧ k'.sdus = k.sdus ∧ k'.segmented = k.segmented ∧ k'.sent = k.sent := by
  obtain ⟨rcv, -, rfl⟩ := map_eq_ok.mp hr
  exact ⟨rfl, rfl, rfl, rfl⟩

theorem RcvOk.receiveWhole (h : k.RcvOk) (hp : Genuine k.snd.snFieldLength k.sdus k.segmented p)
    (hi : p.index = none) (hr : k.receive fuel p = .ok k') : k'.RcvOk := by
  obtain ⟨rcv, hrecv, rfl⟩ := map_eq_ok.mp hr
  cases hp with
  | segment => cases hi
  | @whole pdu sdu sn so hsdu hb =>
    have hrecv' := hrecv
    rw [← h.length] at hb
    by_cases hnil : sdu = []
    · rw [hnil] at hb
      rw [recvPdu_whole_nil fuel (hb.trans (append_nil _))] at hrecv'
      cases hrecv'
      exact h.silent hrecv (h.holds.of_eq rfl rfl rfl) rfl none
    · rw [(recvPdu_whole fuel hnil hb).2] at hrecv'
      cases hrecv'
      refine h.delivery hrecv ?_ rfl hsdu nofun
      rw [Option.toList_none, append_nil]
      exact h.holds.of_eq rfl rfl rfl

theorem RcvOk.receiveSegment (h : k.RcvOk) (hs : k.SndOk) (hp : Genuine k.snd.snFieldLength k.sdus k.segmented p)
    (hi : p.index = some i) (hw : k.InWindow i) (hr : k.receive fuel p = .ok k') :
    ({ k' with highest := if HasRoom k.rcv p.pdu then max k.highest (i + 1) else k.highest } : UmLink).RcvOk := by
  obtain ⟨rcv, hrecv, rfl⟩ := map_eq_ok.mp hr
  cases hp with
  | whole => cases hi
  | @segment pdu sdu data j so isFirst isLast hsdu hseg hdata hso hfirst hpart hb =>
    cases hi
    rw [← h.length] at hb
    have hlt : i % 2 ^ k.rcv.snFieldLength < 2 ^ k.rcv.snFieldLength := Nat.mod_lt _ (Nat.two_pow_pos _)
    have hmem := mem_of_getElem? hsdu
    have hsn : ((i % 2 ^ k.rcv.snFieldLength : Nat) : Int) = i % k.rcv.snModulus := by
      rw [h.tx.modulus]
      exact Int.natCast_emod i (2 ^ k.rcv.snFieldLength)
    have hso' : (if isFirst then 0 else (so : Int)) = so := by
      split
      · rw [hfirst.mp ‹_›]
        rfl
      · rfl
    have hseg' := (recvPdu_segment fuel hseg hlt hso hb).symm.trans hrecv
    rw [hsn, hso'] at hseg'
    have hroom : HasRoom k.rcv pdu ↔ k.rcv.rxSize + data.length ≤ k.rcv.rxMaxsize := by
      rw [HasRoom, pduPayload_eq hlt hso hb]
    have hn : ((if HasRoom k.rcv pdu then max k.highest (i + 1) else k.highest : Nat) : Int) =
        if k.rcv.rxSize + data.length ≤ k.rcv.rxMaxsize then max (k.highest : Int) (i + 1) else k.highest := by
      simp only [hroom]
      split
      · omega
      · rfl
    have hcount : (k.rcv.countRxPdu pdu.length).RxWf :=
      ⟨⟨h.rx.sized, h.rx.ordered, h.rx.inWindow, h.rx.highest, h.rx.reassembly, h.rx.reassembly_le,
        h.rx.trigger⟩, h.rx.timer⟩
    have hholds : (k.rcv.countRxPdu pdu.length).Holds k.segmented k.highest k.numbers :=
      h.holds.of_eq rfl rfl rfl
    have hso0 : isFirst = false → (so : Int) ≠ 0 := by
      intro hf h0
      rw [hfirst.mpr (by omega)] at hf
      cases hf
    rcases hholds.recvSegment hcount hw.1 hw.2 hsdu (hs.segmented sdu hmem).2 hdata (hpart _) hseg hso0 hseg' hn
      with ⟨hh, hc⟩ | ⟨hnot, hh, hc⟩
    · exact h.silent hrecv hh hc (some i)
    · refine h.delivery hrecv hh hc (hs.segmented sdu hmem).1 fun j hj => ?_
      cases hj
      exact ⟨hnot, hsdu⟩

/-! ## Whole runs -/

theorem RcvOk.new (hc : c'.snFieldLength = c.snFieldLength) :
    ({ snd := newNrRlcEntityUm c, rcv := newNrRlcEntityUm c' } : UmLink).RcvOk := by
  refine ⟨hc, txWf_new c', rxWf_new c', ⟨?_, fun sn _ hne => absurd rfl hne, fun j hj => ?_⟩, .nil, rfl, ?_⟩
  · exact (Int.zero_emod _).symm
  · cases hj
  · exact fun d hd => by cases hd

theorem exec_ok {a : Act} (hs : k.SndOk) (h : k.RcvOk) (hr : k.exec HasRoom fuel a = some k') :
    k'.SndOk ∧ k'.RcvOk := by
  cases a with
  | submit sdu sduId =>
    have hr := toOption_eq_some.mp hr
    exact ⟨hs.submit hr, h.extends (submit_extends hr)⟩
  | grant buffer =>
    have hr := toOption_eq_some.mp hr
    exact ⟨hs.grant hr, h.extends (grant_extends hr)⟩
  | receive place =>
    simp only [exec] at hr
    split at hr
    · cases hr
    rename_i p hp
    have hgen := hs.sent p (mem_of_getElem? hp)
    split at hr
    · have hr := toOption_eq_some.mp hr
      obtain ⟨hsnd, hsdus, hseg, hsent⟩ := receive_fields hr
      exact ⟨hs.of_eq hsnd hsdus hseg hsent, h.receiveWhole hgen ‹_› hr⟩
    · split at hr
      · obtain ⟨k₁, hk, rfl⟩ := map_eq_ok.mp (toOption_eq_some.mp hr)
        obtain ⟨hsnd, hsdus, hseg, hsent⟩ := receive_fields hk
        exact ⟨hs.of_eq hsnd hsdus hseg hsent, h.receiveSegment hs hgen ‹_› ‹_› hk⟩
      · cases hr
  | snd op =>
    simp only [exec] at hr
    split at hr
    · obtain ⟨snd, he, rfl⟩ := map_eq_ok.mp (toOption_eq_some.mp hr)
      have hext := (Extends.refl k).setSnd (exec_snFieldLength he)
      exact ⟨hs.sndOp ‹_› he, h.extends hext⟩
    · cases hr
  | rcv op =>
    simp only [exec] at hr
    split at hr
    · obtain ⟨rcv, he, rfl⟩ := map_eq_ok.mp (toOption_eq_some.mp hr)
      exact ⟨hs.of_eq rfl rfl rfl rfl, h.rcvOp ‹_› he⟩
    · cases hr

theorem Reaches.ok (hc : c'.snFieldLength = c.snFieldLength) (h : Reaches HasRoom c c' k) : k.SndOk ∧ k.RcvOk := by
  induction h with
  | new => exact ⟨.new c c', .new hc⟩
  | step _ hr ih => exact exec_ok ih.1 ih.2 hr

/-- In every state that two new entities with the same SN length reach, whatever is lost, duplicated and
reordered on the way: each SDU delivered was submitted at the sender, a segmented one is delivered as the SDU
with its number, and no number is delivered twice. Segments are received while the number of their SDU
is within a window of one more than the highest number received with room in the buffer. -/
theorem delivered_once (c c' : UmConfig) (hc : c'.snFieldLength = c.snFieldLength) (k : UmLink)
    (h : Reaches HasRoom c c' k) : k.rcv.calls = k.delivered.map Prod.snd ∧ k.DeliversSent ∧ k.numbers.Nodup := by
  obtain ⟨-, hr⟩ := Reaches.ok hc h
  exact ⟨hr.calls, hr.genuine, hr.nodup⟩

theorem Reaches.execAll {counts : Um → List UInt8 → Prop} [∀ e pdu, Decidable (counts e pdu)] {as : List Act}
    (h : Reaches counts c c' k) (hr : k.execAll counts fuel as = some k') : Reaches counts c c' k' := by
  induction as generalizing k with
  | nil =>
    cases hr
    exact h
  | cons a as ih =>
    obtain ⟨k₁, h₁, hr⟩ := Option.bind_eq_some_iff.mp hr
    exact ih (.step h h₁) hr

def umSmall : UmConfig := { um6 with rxMaxsize := 10, txMaxsize := 100 }

/-- An SDU is sent in two segments. They arrive in the wrong order, and then once more. -/
theorem delivered_once_reordered :
    ∃ k, Reaches HasRoom umSmall umSmall k ∧ k.delivered = [(some 0, .deliverSdu [1, 2, 3, 4])] ∧
      k.rcv.calls = k.delivered.map Prod.snd ∧ k.DeliversSent ∧ k.numbers.Nodup := by
  have hrun : (({ snd := newNrRlcEntityUm umSmall, rcv := newNrRlcEntityUm umSmall } : UmLink).execAll HasRoom 2
      [.submit [1, 2, 3, 4] 0, .grant [0, 0, 0], .grant [0, 0, 0, 0, 0, 0], .receive 1, .receive 0, .receive 0,
        .receive 1]).map (fun k => k.delivered) = some [(some 0, .deliverSdu [1, 2, 3, 4])] := by
    decide
  obtain ⟨k, hk, hd⟩ := Option.map_eq_some_iff.mp hrun
  have hreach := Reaches.new.execAll hk
  exact ⟨k, hreach, hd, delivered_once umSmall umSmall rfl k hreach⟩

/-- The actions of a sender that cuts SDUs of nine bytes in two, the SDU with the number 64 with other bytes
than those before it. -/
def cutAll : List Act :=
  (List.range 65).flatMap fun j =>
    [.submit (List.replicate 9 (if j = 64 then 1 else 0)) 0, .grant (List.replicate 9 0),
      .grant (List.replicate 4 0)]

/-- If a PDU counts that the receiver has dropped for want of room, then the window of the numbers gets ahead
of the receiver's window: the last segment of the SDU with the number 64 completes that with the number 0. -/
theorem mixed_after_dropped_segments : ∃ k, Reaches (fun _ _ => True) umSmall umSmall k ∧
      ∃ sdu, (some 64, .deliverSdu sdu) ∈ k.delivered ∧ sdu ∉ k.sdus := by
  have hrun : (({ snd := newNrRlcEntityUm umSmall, rcv := newNrRlcEntityUm umSmall } : UmLink).execAll
      (fun _ _ => True) 2 (cutAll ++ [.receive 0, .receive 62, .receive 126, .receive 129])).map
        (fun k => (k.delivered, decide ([0, 0, 0, 0, 0, 0, 0, 0, 1] ∈ k.sdus))) =
      some ([(some 64, .deliverSdu [0, 0, 0, 0, 0, 0, 0, 0, 1])], false) := by
    decide +kernel
  obtain ⟨k, hk, hd⟩ := Option.map_eq_some_iff.mp hrun
  obtain ⟨hdel, hmem⟩ := Prod.mk.inj hd
  refine ⟨k, Reaches.new.execAll hk, _, ?_, of_decide_eq_false hmem⟩
  rw [hdel]
  exact mem_singleton.mpr rfl

end OaiNr.Rlc.UmLink
