import OaiNr.Rlc.Lemmas.RxRun
import OaiNr.Rlc.Lemmas.TxInv
import OaiNr.Rlc.Lemmas.UmWindow
import OaiNr.Rlc.Reconfigure

/-!
# The SN length and what depends on it

The modulus, the window and the ring of an entity are set up for the SN length at its creation.
-/

namespace OaiNr.Rlc

namespace Am

variable {e e' : Am} {fuel : Nat} {m m' : Missing} {cur : Pdu} {rest l : List Pdu} {b : Bool} {sn : Int}

/-- The missing ranges that `generate_status` may report, from the PDUs `l` on. -/
inductive Reports (e : Am) : List Pdu → Bool → Missing → Prop where
  | here {fuel : Nat} {cur : Pdu} {rest : List Pdu} {checkHead : Bool} {m : Missing} :
      e.nextMissing fuel cur rest checkHead = .ok m → m.snStart ≠ -1 → Reports e (cur :: rest) checkHead m
  | next {fuel : Nat} {cur : Pdu} {rest : List Pdu} {checkHead : Bool} {m m' : Missing} :
      e.nextMissing fuel cur rest checkHead = .ok m → m.snStart ≠ -1 → Reports e m.next false m' →
      Reports e (cur :: rest) checkHead m'

/-- The NACK_SNs of a range, which `generate_missing` cuts into blocks. -/
inductive NackSn (e : Am) (m : Missing) : Int → Prop where
  | first : NackSn e m m.snStart
  | next {sn count : Int} : NackSn e m sn → NackSn e m ((sn + count) % e.snModulus)

/-- The SNs that `generate_pdu` may put into a header: the SN of a new PDU, of a retransmission, and
NACK_SN and ACK_SN of a status report. -/
inductive Encodes (e : Am) : Int → Prop where
  | tx {x : Segment} {rest : List Segment} : e.txList = x :: rest → ¬e.IsWindowStalling →
      Encodes e (((e.takeTx x rest).assignSn x).snOf x)
  | retx {x : Segment} : x ∈ e.retransmitList → Encodes e (e.snOf x)
  | nack {fuel : Nat} {cur : List Pdu} {m : Missing} {sn : Int} : e.getFirstRxPdu fuel = .ok cur →
      e.Reports cur true m → e.NackSn m sn → Encodes e sn
  | ack {lastNack : Int} : Encodes e ((lastNack + 1) % e.snModulus)

/-- The blocks of a status report are written from `w` on, with NACK_SNs that fit. -/
inductive Puts (e : Am) : StatusWriter → StatusWriter → Prop where
  | done (w : StatusWriter) : Puts e w w
  | nack {w w' : StatusWriter} {sn soStart snEnd soEnd snCount : Int} : 0 ≤ sn ∧ sn < 2 ^ e.snFieldLength →
      Puts e (e.putNack w sn soStart snEnd soEnd snCount) w' → Puts e w w'
  | soEnd {w w' : StatusWriter} : Puts e (forceSoEnd w) w' → Puts e w w'

def WritesStatus (e : Am) (out : List UInt8) : Prop :=
  ∃ buffer w ackSn, e.Puts ⟨(Encoder.init buffer).putBits 0 (8 * 3), 2, if e.snFieldLength = 18 then 1 else 7, none⟩ w ∧
    (0 ≤ ackSn ∧ ackSn < 2 ^ e.snFieldLength) ∧ out = e.putAckSn ackSn w.encoder.buffer

def WritesData (e : Am) (out : List UInt8) (size : Nat) : Prop :=
  ∃ (e₁ e₂ : Am) (x : Segment) (buffer : List UInt8) (p : Bool), e₁.snFieldLength = e.snFieldLength ∧
    (0 ≤ e₁.snOf x ∧ e₁.snOf x < 2 ^ e.snFieldLength) ∧ e₁.serializeSdu x buffer p = .ok (e₂, out, size)

/-- Modulus, window and slots go with the SN length, and the SNs of the PDU that `generate_pdu` returns, a status report or
a data PDU, fit into their fields. -/
structure Consistent (e : Am) : Prop where
  modulus : e.snModulus = 2 ^ e.snFieldLength
  window : e.windowSize = e.snModulus / 2
  slots : e.rx.size = e.windowSize
  fits : ∀ sn, e.Encodes sn → 0 ≤ sn ∧ sn < 2 ^ e.snFieldLength
  written : ∀ fuel buffer r, e.generatePdu fuel buffer = .ok r → r.2.2 = 0 ∨ e.WritesStatus r.2.1 ∨ e.WritesData r.2.1 r.2.2

/-! ## The SNs of a status report -/

variable (h : e.rxState.Core)
include h

theorem mem_getPduFromSn {p : Pdu} (hp : p ∈ e.rx.getPduFromSn sn) : e.SnOk p.sn := by
  have hsize : e.rx.size = e.windowSize := h.size
  have hpos : 0 < e.windowSize := h.window_pos
  have hk := Serial.emod_nonneg_lt (hsize ▸ hpos) (sn - e.rx.snStart)
  have hat : e.rx.getPduFromSn sn = e.rx.at ((sn - e.rx.snStart) % e.rx.size) := by
    have hdiv := Int.emod_add_mul_ediv (sn - e.rx.snStart) e.rx.size
    rw [RxManager.getPduFromSn_eq]
    conv_lhs => rw [← hdiv, RxManager.at_add_mul]
  rw [hat] at hp
  rw [((h.slot _ hk.1 (lt_of_lt_of_eq hk.2 hsize)).pdu p hp).sn_eq]
  exact Serial.emod_nonneg_lt h.modulus_pos _

theorem scanRxPdu_mem {lastSn : Int} (hr : e.scanRxPdu fuel lastSn sn = .ok l) :
    ∀ p ∈ l, e.SnOk p.sn := by
  obtain ⟨a, -, rfl⟩ := map_eq_ok.mp hr
  exact fun p hp => mem_getPduFromSn h hp

theorem getNextRxPdu_mem (hrest : ∀ p ∈ rest, e.SnOk p.sn)
    (hr : e.getNextRxPdu fuel cur rest = .ok l) : ∀ p ∈ l, e.SnOk p.sn := by
  rw [getNextRxPdu] at hr
  split at hr
  · cases hr
    exact hrest
  split at hr
  · cases hr
    simp
  · exact scanRxPdu_mem h hr

omit h

def MissingOk (e : Am) (m : Missing) : Prop :=
  (m.snStart ≠ -1 → e.SnOk m.snStart) ∧ ∀ p ∈ m.next, e.SnOk p.sn

theorem missingOk_none (e : Am) : e.MissingOk noMissing := ⟨fun h => absurd rfl h, by simp [noMissing]⟩

theorem missingOk_setEnd (hsn : e.SnOk sn) (hl : ∀ p ∈ cur :: rest, e.SnOk p.sn) (so : Int) :
    e.MissingOk (e.setEndDifferentSdu sn so cur rest) := by
  have hend : ∀ snEnd soEnd, e.MissingOk (if e.snCompareRx e.rxHighestStatus snEnd ≤ 0 then
      { snStart := sn, soStart := so, snEnd := (e.rxHighestStatus - 1 + e.snModulus) % e.snModulus
        soEnd := 0xffff, next := [] }
      else { snStart := sn, soStart := so, snEnd, soEnd, next := cur :: rest }) := by
    intro snEnd soEnd
    split
    · exact ⟨fun _ => hsn, by simp⟩
    · exact ⟨fun _ => hsn, hl⟩
  exact hend _ _

include h

theorem snOk_emod (a : Int) : e.SnOk (a % e.snModulus) :=
  Serial.emod_nonneg_lt h.modulus_pos a

theorem snOk_ite (hsn : e.SnOk sn) (b : Bool) :
    e.SnOk (if b then (sn + 1) % e.snModulus else sn) := by
  split
  · exact snOk_emod h _
  · exact hsn

theorem missingOk_afterLast (hcur : e.SnOk cur.sn) (maxSo : Int) (b : Bool) :
    e.MissingOk (e.missingAfterLast cur maxSo b) := by
  have hrange : ∀ snStart soStart, e.SnOk snStart →
      e.MissingOk (if e.snCompareRx e.rxHighestStatus snStart ≤ 0 then noMissing
        else { snStart, soStart, snEnd := (e.rxHighestStatus - 1 + e.snModulus) % e.snModulus
               soEnd := 0xffff, next := [] }) := by
    intro snStart soStart hsn
    split
    · exact missingOk_none e
    · exact ⟨fun _ => hsn, by simp⟩
  exact hrange _ _ (snOk_ite h hcur (cur.data.isNone || b))

theorem missingOk_before (hsn : e.SnOk sn) (hl : ∀ p ∈ cur :: rest, e.SnOk p.sn)
    (maxSo : Int) (b : Bool) : e.MissingOk (e.missingBefore sn maxSo b cur rest) := by
  have hrange : ∀ snStart soStart, e.SnOk snStart →
      e.MissingOk (if e.snCompareRx e.rxHighestStatus snStart ≤ 0 then noMissing
        else e.setEndDifferentSdu snStart soStart cur rest) := by
    intro snStart soStart hstart
    split
    · exact missingOk_none e
    · exact missingOk_setEnd hstart hl _
  rw [missingBefore]
  split
  · split
    · exact missingOk_none e
    · exact ⟨fun _ => hsn, hl⟩
  · exact hrange _ _ (snOk_ite h hsn b)

theorem nextMissingLoop_ok {turns : Nat} {maxSo : Int} (hl : ∀ p ∈ cur :: rest, e.SnOk p.sn)
    (hr : e.nextMissingLoop fuel turns cur rest maxSo b = .ok m) : e.MissingOk m := by
  induction turns generalizing cur rest maxSo b with
  | zero => cases hr
  | succ turns ih =>
    have hcur := hl cur List.mem_cons_self
    simp only [nextMissingLoop] at hr
    cases hn : e.getNextRxPdu fuel cur rest with
    | error f => simp [hn] at hr
    | ok next =>
      have hnext := getNextRxPdu_mem h (fun p hp => hl p (List.mem_cons_of_mem _ hp)) hn
      simp only [hn] at hr
      cases next with
      | nil =>
        cases hr
        exact missingOk_afterLast h hcur _ _
      | cons cur' rest' =>
        simp only at hr
        split at hr
        · exact ih hnext hr
        split at hr
        · exact ih hnext hr
        · cases hr
          exact missingOk_before h hcur hnext _ _

theorem nextMissing_ok (hl : ∀ p ∈ cur :: rest, e.SnOk p.sn)
    (hr : e.nextMissing fuel cur rest b = .ok m) : e.MissingOk m := by
  rw [nextMissing] at hr
  split at hr
  · split at hr
    · cases hr
      exact missingOk_none e
    · cases hr
      exact missingOk_setEnd ⟨h.rxNext_nonneg, h.rxNext_lt⟩ hl 0
  · exact nextMissingLoop_ok h hl hr

theorem Reports.snOk (hr : e.Reports l b m) (hl : ∀ p ∈ l, e.SnOk p.sn) : e.SnOk m.snStart := by
  induction hr with
  | here hm hne => exact (nextMissing_ok h hl hm).1 hne
  | next hm _ _ ih => exact ih (nextMissing_ok h hl hm).2

theorem NackSn.snOk (hm : e.SnOk m.snStart) (hsn : e.NackSn m sn) : e.SnOk sn := by
  cases hsn with
  | first => exact hm
  | next _ => exact snOk_emod h _

omit h

theorem Encodes.snOk (htx : TxInv e) (hrx : e.rxState.Core) (h : e.Encodes sn) : e.SnOk sn := by
  cases h with
  | @tx x rest _ hstall =>
    have hn := (htx.numbered.takeTx x rest).assignSn (htx.numbered.lt_of_not_stalling hstall) x
    have hok := (hn.1.sdus x.sdu).resolve_left hn.2
    have hmod : ((e.takeTx x rest).assignSn x).snModulus = e.snModulus := by
      rw [assignSn]
      split <;> rfl
    rw [SnOk, hmod] at hok
    exact hok
  | retx hx => exact htx.numbered.snOk (List.mem_append_right _ hx)
  | nack hfirst hrep hsn => exact hsn.snOk hrx (hrep.snOk hrx (scanRxPdu_mem hrx hfirst))
  | ack => exact snOk_emod hrx _

/-! ## The SNs that are written -/

section Written

variable {w w' w'' : StatusWriter} {x : Segment} {buffer : List UInt8} {r : Am × List UInt8 × Nat} {turns : Nat}
  {lastNack : Int}

theorem Puts.trans (h : Puts e w w') (h' : Puts e w' w'') : Puts e w w'' := by
  induction h with
  | done => exact h'
  | nack hsn _ ih => exact .nack hsn (ih h')
  | soEnd _ ih => exact .soEnd (ih h')

theorem putInWaitList_heap (h : e.putInWaitList x = .ok e') :
    e'.heap = e.heap ∧ e'.snFieldLength = e.snFieldLength := by
  rcases putInWaitList_ok h with ⟨-, h⟩ | ⟨last, -, -, -, rfl⟩
  · rcases waitListAppend_ok h with ⟨-, rfl⟩ | ⟨last, -, -, -, rfl⟩ <;> exact ⟨rfl, rfl⟩
  · exact ⟨rfl, rfl⟩

theorem takeForcePoll_heap (e : Am) (p : Bool) :
    (e.takeForcePoll p).1.heap = e.heap ∧ (e.takeForcePoll p).1.snFieldLength = e.snFieldLength := by
  rw [takeForcePoll]
  split <;> exact ⟨rfl, rfl⟩

variable (hfits : ∀ sn, e.Encodes sn → 0 ≤ sn ∧ sn < 2 ^ e.snFieldLength)

theorem generateMissingLoop_puts (hm : ∀ sn, e.NackSn m sn → 0 ≤ sn ∧ sn < 2 ^ e.snFieldLength) {snCount : Int}
    (hsn : e.NackSn m sn) : Puts e w (e.generateMissingLoop m turns snCount sn lastNack w).1 := by
  induction turns generalizing snCount sn lastNack w with
  | zero => exact .done w
  | succ turns ih =>
    unfold generateMissingLoop
    split
    · exact .done w
    · dsimp only
      generalize (if min snCount 255 = snCount then m.snEnd else _) = snEnd
      split_ifs
      all_goals first | exact .done w | exact .nack (hm sn hsn) (ih hsn.next)

theorem generateStatusLoop_puts {out : Int × StatusWriter}
    (hl : ∀ m sn, e.Reports l b m → e.NackSn m sn → 0 ≤ sn ∧ sn < 2 ^ e.snFieldLength)
    (hr : e.generateStatusLoop fuel turns l b lastNack w = .ok out) : Puts e w out.2 := by
  induction turns generalizing l b lastNack w with
  | zero =>
    cases l <;> cases hr
    exact .done w
  | succ turns ih =>
    cases l with
    | nil =>
      cases hr
      exact .done w
    | cons cur rest =>
      simp only [generateStatusLoop] at hr
      split at hr
      · cases hr
      next m hmissing =>
      split at hr
      · cases hr
        exact .done w
      next hne =>
      have hputs : Puts e w (e.generateMissing m w).1 :=
        generateMissingLoop_puts (fun sn => hl m sn (.here hmissing hne)) .first
      cases hfull : (e.generateMissing m w).2.1 with
      | true =>
        simp only [hfull, ↓reduceIte] at hr
        exact hputs.trans (.soEnd (ih (fun _ _ (hm : e.Reports [] false _) => nomatch hm) hr))
      | false =>
        simp only [hfull, Bool.false_eq_true, ↓reduceIte] at hr
        exact hputs.trans (ih (fun m' sn hm => hl m' sn (.next hmissing hne hm)) hr)

include hfits

theorem generateStatus_writes (hr : e.generateStatus fuel buffer = .ok r) : r.2.2 = 0 ∨ e.WritesStatus r.2.1 := by
  rw [generateStatus] at hr
  split at hr
  · cases hr
    exact .inl rfl
  · obtain ⟨cur, hcur, hr⟩ := bind_eq_ok.mp hr
    obtain ⟨⟨lastNack, w⟩, hloop, hr⟩ := bind_eq_ok.mp hr
    have hputs := generateStatusLoop_puts (fun m sn hm hsn => hfits sn (.nack hcur hm hsn)) hloop
    dsimp only at hr
    split at hr
    · cases hr
    · cases hr
      exact .inr ⟨buffer, w, _, hputs, hfits _ .ack, rfl⟩

theorem generateRetxPdu_writes (hr : e.generateRetxPdu buffer = .ok r) : r.2.2 = 0 ∨ e.WritesData r.2.1 r.2.2 := by
  rcases generateRetxPdu_cases hr with rfl | ⟨x, rest, _, e₁, r₁, hlist, -, rfl, hput, hs, rfl⟩
  · exact .inl rfl
  · obtain ⟨hheap, hlen⟩ := putInWaitList_heap hput
    obtain ⟨hheap', hlen'⟩ := takeForcePoll_heap e₁ e₁.CheckPollAfterPduAssembly
    have hsn := segmentRetx_snOf (e.takeRetx x rest) x buffer.length
    refine .inr ⟨_, _, _, _, _, ?_, ?_, hs⟩
    · rw [hlen', hlen, segmentRetx]
      split <;> rfl
    · rw [snOf, hheap', hheap, ← snOf, hsn]
      exact hfits _ (.retx (hlist ▸ List.mem_cons_self))

theorem generateTxPdu_writes (hr : e.generateTxPdu buffer = .ok r) : r.2.2 = 0 ∨ e.WritesData r.2.1 r.2.2 := by
  rcases generateTxPdu_cases hr with rfl | ⟨x, rest, t, e₁, p, r₁, hstall, hlist, -, ht, hput, hp, hs, rfl⟩
  · exact .inl rfl
  · obtain ⟨hheap, hlen⟩ := putInWaitList_heap hput
    obtain ⟨hheap', hlen'⟩ := takeForcePoll_heap p.1 p.2
    have hpoll : p.1.heap = e₁.heap ∧ p.1.snFieldLength = e₁.snFieldLength := by
      rw [hp]
      exact ⟨rfl, rfl⟩
    have hsn := segmentTx_snOf ((e.takeTx x rest).assignSn x) x buffer.length
    rw [← ht] at hsn
    refine .inr ⟨_, _, _, _, _, ?_, ?_, hs⟩
    · rw [hlen', hpoll.2, hlen, ht, segmentTx, assignSn]
      split <;> split <;> rfl
    · rw [snOf, hheap', hpoll.1, hheap, ← snOf, hsn]
      exact hfits _ (.tx hlist hstall)

end Written

end Am

namespace Um

variable {e : Um} {t : Int} {k : Option Nat}

/-- Modulus and window go with the SN length, and the SN of a segment, `tx_next`, fits into its field. -/
structure Consistent (e : Um) : Prop where
  modulus : e.snModulus = 2 ^ e.snFieldLength
  window : e.windowSize = e.snModulus / 2
  fits : 0 ≤ e.txNext ∧ e.txNext < 2 ^ e.snFieldLength

theorem consistent_of_wf (htx : e.TxWf) (hrx : e.RxWf) : Consistent e := by
  have hm : e.snModulus = 2 * e.windowSize := hrx.sized.modulus
  exact ⟨htx.modulus, by omega, htx.txNext_nonneg, htx.modulus ▸ htx.txNext_lt⟩

theorem TxWf.reconfigure (h : e.TxWf) (hk : k.getD e.snFieldLength = e.snFieldLength) : (e.reconfigure t k).TxWf := by
  have hlen : (e.reconfigure t k).snFieldLength = e.snFieldLength := hk
  refine ⟨?_, ?_, h.txNext_nonneg, h.txNext_lt, h.segment, h.tail⟩
  · rw [SnValid, hlen]
    exact h.valid
  · rw [hlen]
    exact h.modulus

theorem RxWf.reconfigure (h : e.RxWf) : (e.reconfigure t k).RxWf :=
  { h with }

end Um

namespace Am

variable {e : Am} {c : AmConfig} {t₁ t₂ t₃ p₁ p₂ r : Int} {k : Option Nat}

theorem Encodes.fits (htx : TxInv e) (hrx : RxGood c e) (sn : Int) (h : e.Encodes sn) :
    0 ≤ sn ∧ sn < 2 ^ e.snFieldLength := by
  rw [← hrx.snModulus]
  exact h.snOk htx hrx.inv.toCore

theorem generatePdu_writes (htx : TxInv e) (hrx : RxGood c e) {fuel : Nat} {buffer : List UInt8}
    {r : Am × List UInt8 × Nat} (hr : e.generatePdu fuel buffer = .ok r) :
    r.2.2 = 0 ∨ e.WritesStatus r.2.1 ∨ e.WritesData r.2.1 r.2.2 := by
  obtain ⟨r₁, h₁, hr⟩ := generatePdu_cases hr
  have hfirst : r₁.2.2 = 0 ∨ e.WritesStatus r₁.2.1 := by
    rcases h₁ with rfl | h₁
    · exact .inl rfl
    · exact generateStatus_writes (Encodes.fits htx hrx) h₁
  rcases hr with ⟨hne, rfl⟩ | ⟨-, r₂, h₂, hr⟩
  · exact .inr (.inl (hfirst.resolve_left hne))
  · have hsame : TxInv r₁.1 ∧ RxGood c r₁.1 ∧ r₁.1.snFieldLength = e.snFieldLength := by
      rcases h₁ with rfl | h₁
      · exact ⟨htx, hrx, rfl⟩
      · obtain ⟨hout, -, heq⟩ := generateStatus_ok h₁
        refine ⟨(txInv_rule fun _ _ => True).of_eq htx (eq_withMisc_of_outsideRx hout), ?_, by rw [heq]⟩
        rw [heq]
        exact ⟨hrx.config, hrx.inv⟩
    obtain ⟨htx₁, hrx₁, hlen₁⟩ := hsame
    have hdata : ∀ {out size}, size = 0 ∨ r₁.1.WritesData out size →
        size = 0 ∨ e.WritesStatus out ∨ e.WritesData out size := by
      rintro out size (h | h)
      · exact .inl h
      · rw [WritesData, hlen₁] at h
        exact .inr (.inr h)
    have hfits := Encodes.fits htx₁ hrx₁
    rcases h₂ with rfl | h₂
    · rcases hr with ⟨hne, rfl⟩ | ⟨-, hr⟩
      · exact absurd rfl hne
      · exact hdata (generateTxPdu_writes hfits hr)
    · rcases hr with ⟨-, rfl⟩ | ⟨hz, hr⟩
      · exact hdata (generateRetxPdu_writes hfits h₂)
      · rw [generateRetxPdu_of_size_zero htx₁.numbered.length h₂ hz] at hr
        exact hdata (generateTxPdu_writes hfits hr)

theorem consistent_of_inv (htx : TxInv e) (hrx : RxGood c e) : Consistent e := by
  have hm : e.snModulus = 2 * e.windowSize := hrx.inv.modulus
  exact ⟨hrx.snModulus, by omega, hrx.inv.size, Encodes.fits htx hrx, fun _ _ _ => generatePdu_writes htx hrx⟩

theorem RxGood.reconfigure (h : RxGood c e) (hk : k.getD e.snFieldLength = e.snFieldLength) :
    RxGood c (e.reconfigure t₁ t₂ t₃ p₁ p₂ r k) := by
  refine ⟨?_, h.inv⟩
  have hconf : (e.reconfigure t₁ t₂ t₃ p₁ p₂ r k).snConfig = e.snConfig := by
    simp only [snConfig, Am.reconfigure, hk]
  exact hconf.trans h.config

theorem TxInv.reconfigure (h : TxInv e) (hk : k.getD e.snFieldLength = e.snFieldLength) :
    TxInv (e.reconfigure t₁ t₂ t₃ p₁ p₂ r k) := by
  refine ⟨⟨h.linked.nodup, h.linked.alloc, h.linked.txEnd, h.linked.waitEnd⟩,
    h.numbered.of_window ?_ (fun _ => rfl) h.numbered.sent⟩
  simp only [txWindow, Am.reconfigure, hk]

end Am

namespace RlcEntity

variable {rb rb' : RlcEntity} {s : Step} {fuel : Nat}

def snFieldLength : RlcEntity → Nat
  | .am e => e.snFieldLength
  | .um e => e.snFieldLength

def snModulus : RlcEntity → Int
  | .am e => e.snModulus
  | .um e => e.snModulus

def Consistent : RlcEntity → Prop
  | .am e => e.Consistent
  | .um e => e.Consistent

def givenLength : Option RlcConfig → Option Nat
  | none => some 12
  | some (.am c) => c.dlSnFieldLength
  | some (.umBiDirectional c) => c.dlSnFieldLength
  | some .umUniDirectional => none

def KeepsLength (rb : RlcEntity) : Step → Prop
  | .op _ => True
  | .reconfigure config => ∀ k ∈ givenLength config, k = rb.snFieldLength

def RunInv : RlcEntity → Prop
  | .am e => Am.TxInv e ∧ ∃ c, Am.RxGood c e
  | .um e => e.TxWf ∧ e.RxWf

theorem RunInv.consistent (h : RunInv rb) : rb.Consistent := by
  cases rb with
  | am e =>
    obtain ⟨htx, c, hrx⟩ := h
    exact Am.consistent_of_inv htx hrx
  | um e => exact Um.consistent_of_wf h.1 h.2

theorem Consistent.modulus (h : rb.Consistent) : rb.snModulus = 2 ^ rb.snFieldLength := by
  cases rb with
  | am e => exact Am.Consistent.modulus h
  | um e => exact Um.Consistent.modulus h

theorem RunInv.op {op : Op} (h : RunInv rb) (hr : rb.exec fuel (.op op) = .ok rb') : RunInv rb' := by
  cases rb with
  | am e =>
    obtain ⟨htx, c, hrx⟩ := h
    obtain ⟨e', he, rfl⟩ := map_eq_ok.mp hr
    exact ⟨(Am.txInv_rule fun _ _ => True).exec trivial htx he, c, Am.exec_good hrx he⟩
  | um e =>
    obtain ⟨e', he, rfl⟩ := map_eq_ok.mp hr
    exact ⟨h.1.exec he, h.2.exec h.1.modulus he⟩

theorem snFieldLengthOf_ok {dl ul o : Option Nat} (h : snFieldLengthOf dl ul = .ok o) : o = dl := by
  cases dl <;> cases ul <;> simp only [snFieldLengthOf, reduceCtorEq, Except.ok.injEq] at h
  · exact h.symm
  · split at h
    · cases h
      rfl
    · cases h

theorem reconfigure_ok {config : Option RlcConfig} (hr : rb.nrRlcReconfigureEntity config = .ok rb') :
    rb'.snFieldLength = (givenLength config).getD rb.snFieldLength ∧ rb'.snModulus = rb.snModulus ∧
      ((givenLength config).getD rb.snFieldLength = rb.snFieldLength → RunInv rb → RunInv rb') := by
  match rb, config, hr with
  | .am e, some (.am c), hr =>
    obtain ⟨o, ho, hr⟩ := bind_eq_ok.mp hr
    obtain rfl := snFieldLengthOf_ok ho
    cases hr
    exact ⟨rfl, rfl, fun hk h => ⟨h.1.reconfigure hk, h.2.imp fun _ hc => hc.reconfigure hk⟩⟩
  | .um e, some (.umBiDirectional c), hr =>
    obtain ⟨o, ho, hr⟩ := bind_eq_ok.mp hr
    obtain rfl := snFieldLengthOf_ok ho
    cases hr
    exact ⟨rfl, rfl, fun hk h => ⟨h.1.reconfigure hk, h.2.reconfigure⟩⟩
  | .am e, none, hr =>
    cases hr
    exact ⟨rfl, rfl, fun hk h => ⟨h.1.reconfigure hk, h.2.imp fun _ hc => hc.reconfigure hk⟩⟩

theorem keepsLength_reconfigure {config : Option RlcConfig} :
    rb.KeepsLength (.reconfigure config) ↔ (givenLength config).getD rb.snFieldLength = rb.snFieldLength := by
  rw [KeepsLength]
  cases givenLength config <;> simp

theorem exec_consistent (h : RunInv rb) (hr : rb.exec fuel s = .ok rb') :
    (rb.KeepsLength s → RunInv rb') ∧ (rb'.Consistent → rb.KeepsLength s) := by
  cases s with
  | op op => exact ⟨fun _ => h.op hr, fun _ => trivial⟩
  | reconfigure config =>
    have hr : rb.nrRlcReconfigureEntity config = .ok rb' := by
      cases rb <;> exact hr
    obtain ⟨hlen, hmod, hinv⟩ := reconfigure_ok hr
    rw [keepsLength_reconfigure]
    refine ⟨fun hk => hinv hk h, fun hc => ?_⟩
    -- the modulus is the old power of two
    have hpow : (2 : Int) ^ rb'.snFieldLength = 2 ^ rb.snFieldLength := by
      rw [← hc.modulus, hmod, h.consistent.modulus]
    rw [← hlen]
    exact Nat.pow_right_injective (Nat.le_refl 2) (by exact_mod_cast hpow)

theorem Reaches.runInv (h : Reaches KeepsLength rb) : RunInv rb := by
  induction h with
  | newAm c => exact ⟨Am.newNrRlcEntityAm_txInv c, c, Am.newNrRlcEntityAm_good c⟩
  | newUm c => exact ⟨Um.txWf_new c, Um.rxWf_new c⟩
  | step _ hok hr ih => exact (exec_consistent ih hr).1 hok

/-- If no reconfiguration changes the SN length, modulus, window and ring go with it in every state, and
every SN fits into its field. From such a state, a step that changes the SN length ends this. -/
theorem sn_length_consistent (rb : RlcEntity) (h : Reaches KeepsLength rb) :
    rb.Consistent ∧ ∀ s rb' fuel, rb.exec fuel s = .ok rb' → (rb'.Consistent ↔ rb.KeepsLength s) := by
  refine ⟨h.runInv.consistent, fun s rb' fuel hr => ?_⟩
  obtain ⟨hkeep, hcons⟩ := exec_consistent h.runInv hr
  exact ⟨hcons, fun hk => (hkeep hk).consistent⟩

def amConfig (k : Nat) : RlcConfig :=
  .am { dlTReassembly := 35, dlTStatusProhibit := 0, dlSnFieldLength := some k, ulTPollRetransmit := 45
        ulPollPdu := -1, ulPollByte := -1, ulMaxRetxThreshold := 8, ulSnFieldLength := some k }

/-- A 12-bit entity sends an SDU and is reconfigured with the same SN length. -/
theorem sn_length_consistent_same :
    ∃ e, Reaches KeepsLength (.am e) ∧ e.txNext = 1 ∧ e.snModulus = 4096 ∧ e.Consistent := by
  have hrun : ((Am.newNrRlcEntityAm .test1).recvSdu [7] 0 >>= fun e =>
      (e.exec 1 (.generatePdu [0, 0, 0])).map fun e => (e.txNext, e.snModulus, e.snFieldLength)) =
        .ok (1, 4096, 12) := by decide
  obtain ⟨e₁, h₁, hrun⟩ := bind_eq_ok.mp hrun
  obtain ⟨e₂, h₂, hfields⟩ := map_eq_ok.mp hrun
  simp only [Prod.mk.injEq] at hfields
  obtain ⟨hnext, hmod, hlen⟩ := hfields
  have r₁ : Reaches KeepsLength (.am e₁) := @Reaches.step _ _ _ (.op (.recvSdu [7] 0)) 1
    (.newAm .test1) trivial (map_eq_ok.mpr ⟨e₁, h₁, rfl⟩)
  have r₂ : Reaches KeepsLength (.am e₂) := @Reaches.step _ _ _ (.op (.generatePdu [0, 0, 0])) 1
    r₁ trivial (map_eq_ok.mpr ⟨e₂, h₂, rfl⟩)
  have r₃ : Reaches KeepsLength (.am (e₂.reconfigure 45 35 0 (-1) (-1) 8 (some 12))) :=
    @Reaches.step _ _ _ (.reconfigure (some (amConfig 12))) 1 r₂
      (fun k hk => by cases hk; exact hlen.symm) rfl
  exact ⟨_, r₃, hnext, hmod, (sn_length_consistent _ r₃).1⟩

/-- A new 12-bit entity that is reconfigured to 18 bits has the modulus and the ring of 12 bits. -/
theorem modulus_after_reconfigure :
    ∃ e, (RlcEntity.am (Am.newNrRlcEntityAm .test1)).exec 0 (.reconfigure (some (amConfig 18))) = .ok (.am e) ∧
      e.snFieldLength = 18 ∧ e.snModulus = 4096 ∧ e.windowSize = 2048 ∧ e.rx.size = 2048 ∧
      e.snModulus ≠ 2 ^ e.snFieldLength :=
  ⟨_, rfl, rfl, rfl, rfl, rfl, by decide⟩

end RlcEntity

end OaiNr.Rlc
