import OaiNr.Pdcp.Lemmas.RoundTrip
import OaiNr.Pdcp.Link

/-!
# PDCP from end to end
-/

namespace OaiNr.Pdcp

open List Entity

namespace Link

variable {cr : Crypto} {c c' : EntityConfig} {k k' : Link} {limit : Nat}
  {buffer pdu : List UInt8} {s r : Entity} {count : Nat}

def BuiltFor (cr : Crypto) (r : Entity) (buffer pdu : List UInt8) (count : Nat) : Prop :=
  ∃ s : Entity, s.Formed ∧ Matching s r ∧ s.txNext = count ∧ s.sdapTxHeaderSize < buffer.length ∧
    pdu = s.buildPdu cr buffer

structure Joined (cr : Crypto) (k : Link) : Prop where
  snd : k.snd.Formed
  rcv : k.rcv.Formed
  matching : Matching k.snd k.rcv
  active : k.rcv.entitySuspended = false
  txNext : k.snd.txNext = u32 k.sent.length
  sent : ∀ count buffer pdu, k.sent[count]? = some (buffer, pdu) →
    count < 4294967296 → BuiltFor cr k.rcv buffer pdu count

structure Faithful (k : Link) : Prop where
  timed : Timed k.rcv
  ordered : Ordered (k.rcv.calls ++ k.rcv.rxList)
  below : ∀ x ∈ k.rcv.calls, x.count < k.rcv.rxDeliv
  buffer : ∀ x ∈ k.rcv.calls ++ k.rcv.rxList, (k.sent.map Prod.fst)[x.count]? = some x.buffer

/-! ## The two ends -/

theorem formed_of_setup {e e' : Entity} (h : e.Formed) (hs : e'.setup = e.setup) : e'.Formed :=
  h.of_config (congrArg Prod.fst hs)

theorem matching_of_setup {s' r' : Entity} (h : Matching s r) (hs : s'.setup = s.setup)
    (hr : r'.setup = r.setup) : Matching s' r' := by
  simp only [setup, config, Prod.mk.injEq] at hs hr
  obtain ⟨⟨s1, s2, s3, s4, s5, s6, -⟩, s7, s8, -⟩ := hs
  obtain ⟨⟨r1, r2, r3, r4, r5, r6, -⟩, r7, r8, -⟩ := hr
  exact ⟨by rw [r1, s1, h.type], by rw [r3, s3, h.rbId], by rw [r2, s2, h.isGnb],
    by rw [r4, s5, h.sdap], by rw [r6, s6, h.snSize], by rw [r7, s7, h.ciphering],
    by rw [r8, s8, h.integrity]⟩

theorem BuiltFor.of_setup {r' : Entity}
    (h : BuiltFor cr r buffer pdu count) (hr : r'.setup = r.setup) : BuiltFor cr r' buffer pdu count := by
  obtain ⟨s, hs, hm, hrest⟩ := h
  exact ⟨s, hs, matching_of_setup hm rfl hr, hrest⟩

theorem Joined.of_setup (h : Joined cr k) (hs : k'.snd.setup = k.snd.setup)
    (hr : k'.rcv.setup = k.rcv.setup) (ht : k'.snd.txNext = k.snd.txNext) (hsent : k'.sent = k.sent) :
    Joined cr k' := by
  refine ⟨formed_of_setup h.snd hs, formed_of_setup h.rcv hr, matching_of_setup h.matching hs hr, ?_, ?_,
    fun count buffer pdu hc hlt => ?_⟩
  · have := congrArg (fun v => v.2.2.2) hr
    exact this.trans h.active
  · rw [ht, hsent]
    exact h.txNext
  · rw [hsent] at hc
    exact (h.sent count buffer pdu hc hlt).of_setup hr

theorem Joined.of_txSide (h : Joined cr k) (hs : s.txSide = k.snd.txSide) :
    Joined cr { k with snd := s } :=
  h.of_setup (congrArg Prod.fst hs) rfl (congrArg Prod.snd hs) rfl

theorem Joined.send (h : Joined cr k) {pduMaxSize : Nat}
    (hsize : k.snd.sdapTxHeaderSize < buffer.length) (hp : k.snd.processSdu cr buffer pduMaxSize = some (s, some pdu)) :
    Joined cr { k with snd := s, sent := k.sent ++ [(buffer, pdu)] } := by
  rcases processSdu_cases hp with ⟨-, hr⟩ | ⟨st, hr⟩
  · cases hr
  · cases hr
    refine ⟨formed_of_setup h.snd rfl, h.rcv, matching_of_setup h.matching rfl rfl, h.active, ?_,
      fun count b p hc hlt => ?_⟩
    · show u32 (k.snd.txNext + 1) = u32 (k.sent ++ [(buffer, _)]).length
      rw [h.txNext, length_append, u32, u32, u32]
      simp
    · rcases Nat.lt_or_ge count k.sent.length with hi | hi
      · rw [List.getElem?_append_left hi] at hc
        exact h.sent count b p hc hlt
      · rw [List.getElem?_append_right hi, List.getElem?_singleton] at hc
        split at hc
        · rename_i heq
          cases hc
          have hcount : count = k.sent.length := by omega
          refine ⟨k.snd, h.snd, h.matching, ?_, hsize, rfl⟩
          rw [h.txNext, ← hcount]
          exact Nat.mod_eq_of_lt hlt
        · cases hc

theorem Joined.step (h : Joined cr k) (hs : Step cr limit k k') : Joined cr k' := by
  cases hs with
  | send hsize _ hp => exact h.send hsize hp
  | receive => exact h.of_setup rfl (congrArg Prod.fst (txSide_recvPdu ..)) rfl rfl
  | rcvTime now => exact h.of_setup rfl (congrArg Prod.fst (txSide_setTime ..)) rfl rfl
  | rcvSend hp =>
    rcases processSdu_cases hp with ⟨-, rfl⟩ | ⟨st, rfl⟩
    · exact h
    · exact h.of_setup rfl rfl rfl rfl
  | sndReceive buffer => exact h.of_txSide (txSide_recvPdu ..)
  | sndTime now => exact h.of_txSide (txSide_setTime ..)

theorem matching_new (hp : Paired c c') (hs : newNrPdcpEntity c = some s)
    (hr : newNrPdcpEntity c' = some r) : Matching s r := by
  rw [newNrPdcpEntity, hp.security] at hr
  rw [newNrPdcpEntity] at hs
  obtain ⟨hi, hc⟩ := setSecurity_congr (by rfl) (by rfl) hs hr
  obtain ⟨i, k, rfl⟩ := setSecurity_cases hs
  obtain ⟨i', k', rfl⟩ := setSecurity_cases hr
  exact ⟨hp.type, hp.rbId, hp.isGnb, hp.sdap, hp.snSize, hc, hi⟩

theorem Reaches.joined (h : Reaches cr limit c c' k) (hp : Paired c c') : Joined cr k := by
  induction h with
  | @new s r hs hr =>
    refine ⟨formed_new hs, formed_new hr, matching_new hp hs hr, ?_, ?_,
      fun count buffer pdu hc => by simp at hc⟩
    · obtain ⟨i, k, rfl⟩ := setSecurity_cases hr
      rfl
    · obtain ⟨i, k, rfl⟩ := setSecurity_cases hs
      rfl
  | step _ hs ih => exact ih.step hs

theorem Reaches.length_le (h : Reaches cr limit c c' k) : k.sent.length ≤ limit := by
  induction h with
  | new => exact Nat.zero_le _
  | step _ hs ih =>
    cases hs with
    | send _ hlt _ =>
      rw [length_append]
      exact hlt
    | receive | rcvTime | rcvSend | sndReceive | sndTime => exact ih

/-! ## What is delivered -/

theorem Faithful.of_rxState (h : Faithful k) (hr : k'.rcv.rxState = k.rcv.rxState)
    (hc : k'.rcv.calls = k.rcv.calls) (hsent : k.sent <+: k'.sent) : Faithful k' := by
  have hlist : k'.rcv.rxList = k.rcv.rxList := congrArg Prod.fst hr
  have hdeliv : k'.rcv.rxDeliv = k.rcv.rxDeliv := congrArg (fun v => v.2.2.1) hr
  refine ⟨h.timed.of_rxState hr, by rw [hc, hlist]; exact h.ordered, by rw [hc, hdeliv]; exact h.below,
    fun x hx => ?_⟩
  rw [hc, hlist] at hx
  obtain ⟨more, hmore⟩ := hsent
  have hbuf := h.buffer x hx
  rw [← hmore, map_append, List.getElem?_append_left (List.getElem?_eq_some_iff.mp hbuf).1]
  exact hbuf

theorem Faithful.of_delivers (h : Faithful k) {l d : List PdcpSdu} (hr : Timed r)
    (hd : Delivers k.rcv l d r) (hl : Ordered l) (hge : ∀ x ∈ l, k.rcv.rxDeliv ≤ x.count)
    (hbuf : ∀ x ∈ l, (k.sent.map Prod.fst)[x.count]? = some x.buffer) : Faithful { k with rcv := r } := by
  have hsplit : r.calls ++ r.rxList = k.rcv.calls ++ l := by
    rw [hd.calls, append_assoc, hd.split]
  obtain ⟨hcalls, -, -⟩ := pairwise_append.mp h.ordered
  refine ⟨hr, ?_, fun x hx => ?_, fun x hx => ?_⟩
  · show Ordered (r.calls ++ r.rxList)
    rw [hsplit]
    exact pairwise_append.mpr ⟨hcalls, hl, fun x hx y hy => Nat.lt_of_lt_of_le (h.below x hx) (hge y hy)⟩
  · rw [hd.calls] at hx
    rcases mem_append.mp hx with hx | hx
    · exact Nat.lt_of_lt_of_le (h.below x hx) hd.deliv
    · exact hd.below x hx
  · rw [hsplit] at hx
    rcases mem_append.mp hx with hx | hx
    · exact h.buffer x (mem_append_left _ hx)
    · exact hbuf x hx

theorem Joined.understands (h : Joined cr k) (hsent : k.sent[count]? = some (buffer, pdu)) (hwin : k.InWindow count)
    (hlt : count < 4294967296) : Understands cr k.rcv pdu buffer count := by
  obtain ⟨s, hs, hm, htx, hsize, rfl⟩ := h.sent count buffer pdu hsent hlt
  rw [← htx] at hwin hlt ⊢
  exact hm.understands hs h.rcv hlt hsize hwin.1 hwin.2

theorem Faithful.receive (h : Faithful k) (hj : Joined cr k)
    (hsent : k.sent[count]? = some (buffer, pdu)) (hwin : k.InWindow count)
    (hlt : count + 1 < 4294967296) : Faithful { k with rcv := k.rcv.recvPdu cr pdu } := by
  by_cases ha : k.rcv.Accepts cr pdu
  · have hu := hj.understands hsent hwin (by omega)
    have hcount : (k.rcv.sduOf cr pdu).count = count := hu.count
    have hfresh := ha.fresh
    rw [IsDuplicate, not_or] at hfresh
    obtain ⟨⟨htimed, -⟩, d, hd⟩ := h.timed.recvPdu ha (by rw [hu.count]; exact hlt)
    have hmem : ∀ x ∈ sduListAdd (k.rcv.sduOf cr pdu) k.rcv.rxList,
        x = k.rcv.sduOf cr pdu ∨ x ∈ k.rcv.rxList := fun x hx =>
      mem_cons.mp ((sduListAdd_perm _ _).mem_iff.mp hx)
    refine h.of_delivers htimed hd
      (sduListAdd_ordered h.timed.ordered hfresh.2) (fun x hx => ?_) (fun x hx => ?_)
    · rcases hmem x hx with rfl | hx
      · exact Nat.not_lt.mp hfresh.1
      · exact Nat.le_of_lt (h.timed.gt x hx)
    · rcases hmem x hx with rfl | hx
      · rw [hcount, hu.buffer, List.getElem?_map, hsent]
        rfl
      · exact h.buffer x (mem_append_right _ hx)
  · obtain ⟨st, hst⟩ := recvPdu_of_not_accepts ha
    rw [hst]
    exact h.of_rxState rfl rfl (prefix_refl _)

theorem Faithful.rcvTime (h : Faithful k) (now : Nat) : Faithful { k with rcv := k.rcv.setTime now } := by
  have hnow : Timed { k.rcv with tCurrent := now % 2 ^ 64 } := h.timed.of_rxState rfl
  obtain ⟨⟨htimed, -⟩, d, hd⟩ := hnow.checkTReordering
  exact h.of_delivers htimed { hd with } h.timed.ordered
    (fun x hx => Nat.le_of_lt (h.timed.gt x hx)) fun x hx => h.buffer x (mem_append_right _ hx)

theorem Faithful.step (h : Faithful k) (hj : Joined cr k) (hlen : k.sent.length ≤ 4294967295)
    (hs : Step cr 4294967295 k k') : Faithful k' := by
  cases hs with
  | send => exact h.of_rxState rfl rfl (prefix_append _ _)
  | @receive buffer pdu count hsent hwin =>
    have := (List.getElem?_eq_some_iff.mp hsent).1
    exact h.receive hj hsent hwin (by omega)
  | rcvTime now => exact h.rcvTime now
  | rcvSend hp =>
    rcases processSdu_cases hp with ⟨-, rfl⟩ | ⟨st, rfl⟩
    · exact h
    · exact h.of_rxState rfl rfl (prefix_refl _)
  | sndReceive | sndTime => exact h.of_rxState rfl rfl (prefix_refl _)

theorem Reaches.faithful (h : Reaches cr 4294967295 c c' k) (hp : Paired c c') : Faithful k := by
  induction h with
  | @new s r hs hr =>
    obtain ⟨i, k, rfl⟩ := setSecurity_cases hr
    have hpos : 0 < 4294967296 := by decide
    exact ⟨⟨⟨List.Pairwise.nil, by simp, by simp, Nat.le_refl _, hpos⟩, fun h => absurd rfl h⟩,
      List.Pairwise.nil, by simp, by simp⟩
  | step h hs ih => exact ih.step (h.joined hp) h.length_le hs

/-- Over a channel that loses, duplicates and reorders PDUs, the receiver delivers what the sender was
given, in strictly increasing order of the COUNTs. -/
theorem delivered_in_order (h : Reaches cr 4294967295 c c' k) (hp : Paired c c') :
    (k.rcv.calls.Pairwise fun x y => x.count < y.count) ∧
      ∀ x ∈ k.rcv.calls, (k.sent.map Prod.fst)[x.count]? = some x.buffer := by
  have hf := h.faithful hp
  exact ⟨(pairwise_append.mp hf.ordered).1, fun x hx => hf.buffer x (mem_append_left _ hx)⟩

def plainGnb : EntityConfig := { EntityConfig.plain .drbAm with isGnb := true }

theorem paired_plain : Paired (.plain .drbAm) plainGnb := by
  constructor <;> rfl

/-- Two PDUs that overtake each other are delivered in order. -/
theorem delivered_in_order_swapped : ∃ k, Reaches .plain 4294967295 (.plain .drbAm) plainGnb k ∧
    k.rcv.calls.map PdcpSdu.count = [0, 1] ∧ (k.rcv.calls.Pairwise fun x y => x.count < y.count) ∧
      ∀ x ∈ k.rcv.calls, (k.sent.map Prod.fst)[x.count]? = some x.buffer := by
  have h : ((newNrPdcpEntity (.plain .drbAm)).bind fun s => (newNrPdcpEntity plainGnb).bind fun r =>
      (s.processSdu .plain [1] 100).bind fun p => (p.1.processSdu .plain [2] 100).map fun q =>
        decide (s.sdapTxHeaderSize = 0 ∧ p.1.sdapTxHeaderSize = 0 ∧ p.2 = some [0x80, 0, 1] ∧
          q.2 = some [0x80, 1, 2] ∧ r.rxDeliv = 0 ∧ r.windowSize = 2048 ∧
          (r.recvPdu .plain [0x80, 1, 2]).rxDeliv = 0 ∧
          (r.recvPdu .plain [0x80, 1, 2]).windowSize = 2048 ∧
          ((r.recvPdu .plain [0x80, 1, 2]).recvPdu .plain [0x80, 0, 1]).calls.map PdcpSdu.count =
            [0, 1])) = some true := by decide
  obtain ⟨s, hs, h⟩ := Option.bind_eq_some_iff.mp h
  obtain ⟨r, hr, h⟩ := Option.bind_eq_some_iff.mp h
  obtain ⟨⟨s₁, p₁⟩, hp, h⟩ := Option.bind_eq_some_iff.mp h
  obtain ⟨⟨s₂, p₂⟩, hq, h⟩ := Option.map_eq_some_iff.mp h
  obtain ⟨h1, h2, rfl, rfl, h5, h6, h7, h8, h9⟩ := of_decide_eq_true h
  have hlen : ∀ x : UInt8, 0 < [x].length := fun x => Nat.one_pos
  have hsent : Reaches .plain 4294967295 (.plain .drbAm) plainGnb
      { snd := s₂, rcv := r, sent := [([1], [0x80, 0, 1]), ([2], [0x80, 1, 2])] } :=
    ((Reaches.new hs hr).step (.send (h1 ▸ hlen 1) (by simp) hp)).step
      (.send (h2 ▸ hlen 2) (by simp) hq)
  have hlast : Reaches .plain 4294967295 (.plain .drbAm) plainGnb
      { snd := s₂, rcv := r.recvPdu .plain [0x80, 1, 2]
        sent := [([1], [0x80, 0, 1]), ([2], [0x80, 1, 2])] } :=
    hsent.step (@Step.receive _ _ _ [2] _ 1 rfl (by simp only [InWindow, h5, h6]; decide))
  have hfirst : Reaches .plain 4294967295 (.plain .drbAm) plainGnb
      { snd := s₂, rcv := (r.recvPdu .plain [0x80, 1, 2]).recvPdu .plain [0x80, 0, 1]
        sent := [([1], [0x80, 0, 1]), ([2], [0x80, 1, 2])] } :=
    hlast.step (@Step.receive _ _ _ [1] _ 0 rfl (by simp only [InWindow, h7, h8]; decide))
  exact ⟨_, hfirst, h9, delivered_in_order hfirst paired_plain⟩

/-! ## The last COUNT -/

structure CaughtUp (k : Link) (n : Nat) : Prop where
  sent : k.sent.length = n
  sdap : k.snd.hasSdapTx = false
  active : k.snd.entitySuspended = false
  deliv : k.rcv.rxDeliv = u32 n
  next : k.rcv.rxNext = u32 n
  list : k.rcv.rxList = []
  timer : k.rcv.tReorderingStart = 0
  calls : k.rcv.calls.length = n

theorem acceptSdu_awaited (e : Entity) (sdu : PdcpSdu) (size : Nat) (hl : e.rxList = [])
    (hd : e.rxDeliv = sdu.count) (hn : e.rxNext = sdu.count) (ht : e.tReorderingStart = 0) :
    (e.acceptSdu sdu size).rxState = ([], u32 (sdu.count + 1), u32 (sdu.count + 1), e.rxReord, 0) ∧
      (e.acceptSdu sdu size).calls = e.calls ++ [sdu] := by
  simp [acceptSdu, storeSdu, deliverFrom, deliver, updateTReordering, stopTReordering, startTReordering,
    rxState, hl, hd, hn, ht, sduListAdd, takeRun]

theorem Joined.receive_awaited (h : Joined cr k)
    (hsent : k.sent[count]? = some (buffer, pdu)) (hlt : count < 4294967296) (hl : k.rcv.rxList = [])
    (hd : k.rcv.rxDeliv = count) (hn : k.rcv.rxNext = count) (ht : k.rcv.tReorderingStart = 0) : k.InWindow count ∧
      (k.rcv.recvPdu cr pdu).rxState = ([], u32 (count + 1), u32 (count + 1), k.rcv.rxReord, 0) ∧
      ∃ x, x.count = count ∧ (k.rcv.recvPdu cr pdu).calls = k.rcv.calls ++ [x] := by
  have hwin : k.InWindow count := by
    have := h.rcv.window
    have := Nat.two_pow_pos (k.rcv.snSize - 1)
    rw [InWindow, hd]
    omega
  have hu := h.understands hsent hwin hlt
  have hfresh : ¬k.rcv.IsDuplicate (k.rcv.pduCount pdu) := by
    rw [hu.count, IsDuplicate, hl, hd]
    rintro (hlt | ⟨x, hx, -⟩)
    · exact Nat.lt_irrefl _ hlt
    · cases hx
  have ha : k.rcv.Accepts cr pdu := ⟨h.active, hu.size, hu.integrity, hfresh⟩
  have hcount : (k.rcv.sduOf cr pdu).count = count := hu.count
  have hacc := acceptSdu_awaited
    (k.rcv.countRxPdu pdu.length (k.rcv.rcvdSn (k.rcv.forceDataBit pdu))) (k.rcv.sduOf cr pdu)
    (pdu.length - k.rcv.headerSize) hl (hd.trans hcount.symm)
    (hn.trans hcount.symm) ht
  rw [hcount] at hacc
  rw [ha.recvPdu]
  exact ⟨hwin, hacc.1, _, hcount, hacc.2⟩

theorem CaughtUp.succ {n : Nat} (h : CaughtUp k n) (hn : n < 4294967296) (hp : Paired c c')
    (hr : Reaches cr 4294967296 c c' k) : ∃ k', Reaches cr 4294967296 c c' k' ∧ CaughtUp k' (n + 1) := by
  -- one SDU is sent
  obtain ⟨s, pdu, hproc, hs⟩ : ∃ s pdu, k.snd.processSdu cr [1] 100 = some (s, some pdu) ∧
      s.hasSdapTx = false ∧ s.entitySuspended = false := by
    have hmax : ¬100 < nrMaxPdcpPduSize [(1 : UInt8)].length := by decide
    rw [processSdu, if_neg hmax, if_neg (by simp [h.active])]
    exact ⟨_, _, rfl, h.sdap, h.active⟩
  have hsize : k.snd.sdapTxHeaderSize < [(1 : UInt8)].length := by
    simp [sdapTxHeaderSize, h.sdap]
  have hsend : Step cr 4294967296 k { k with snd := s, sent := k.sent ++ [([1], pdu)] } :=
    .send hsize (by rw [h.sent]; exact hn) hproc
  have hr' := hr.step hsend
  -- its PDU is received
  have hu : u32 n = n := Nat.mod_eq_of_lt hn
  have hget : (k.sent ++ [([1], pdu)])[n]? = some ([1], pdu) := by
    rw [← h.sent]
    exact List.getElem?_concat_length
  obtain ⟨hwin, hst, x, hx, hcalls⟩ := (hr'.joined hp).receive_awaited hget hn h.list
    (h.deliv.trans hu) (h.next.trans hu) h.timer
  refine ⟨_, hr'.step (.receive hget hwin), ?_⟩
  simp only [rxState, Prod.mk.injEq] at hst
  obtain ⟨h1, h2, h3, -, h5⟩ := hst
  refine ⟨by simp [h.sent], hs.1, hs.2, h3, h2, h1, h5, ?_⟩
  show (k.rcv.recvPdu cr pdu).calls.length = n + 1
  have hcalls' : (k.rcv.recvPdu cr pdu).calls = k.rcv.calls ++ [x] := hcalls
  rw [hcalls', length_append, h.calls]
  rfl

theorem exists_caughtUp (cr : Crypto) {n : Nat} (hn : n ≤ 4294967296) :
    ∃ k, Reaches cr 4294967296 (.plain .drbAm) plainGnb k ∧ CaughtUp k n := by
  induction n with
  | zero => exact ⟨_, .new rfl rfl, by constructor <;> rfl⟩
  | succ n ih =>
    obtain ⟨k, hr, h⟩ := ih (Nat.le_of_succ_le hn)
    exact h.succ hn paired_plain hr

/-- With the last COUNT the receiver starts again at 0, and delivers the first SDU a second time. -/
theorem first_delivered_again : ∃ k, Reaches .plain 4294967296 (.plain .drbAm) plainGnb k ∧
    ¬k.rcv.calls.Pairwise fun x y => x.count < y.count := by
  obtain ⟨k, hr, h⟩ := exists_caughtUp .plain (Nat.le_refl 4294967296)
  have hlen := h.sent
  obtain ⟨⟨buffer, pdu⟩, hget⟩ : ∃ p, k.sent[0]? = some p :=
    ⟨_, List.getElem?_eq_getElem (by omega)⟩
  have hu : u32 4294967296 = 0 := by decide
  obtain ⟨hwin, -, x, hx, hcalls⟩ := (hr.joined paired_plain).receive_awaited hget (by decide) h.list
    (h.deliv.trans hu) (h.next.trans hu) h.timer
  refine ⟨_, hr.step (.receive hget hwin), fun hpair => ?_⟩
  have hpair' : (k.rcv.calls ++ [x]).Pairwise fun x y => x.count < y.count := hcalls ▸ hpair
  obtain ⟨y, hy⟩ := exists_mem_of_ne_nil k.rcv.calls fun hnil => by
    have := h.calls
    rw [hnil] at this
    cases this
  have := (pairwise_append.mp hpair').2.2 y hy x (mem_singleton_self x)
  omega

end Link

end OaiNr.Pdcp
