import OaiNr.Rlc.AmRx

/-!
# Status reporting (`nr_rlc_entity_am.c`, TX functions - status reporting)

A pointer to a stored PDU is the list that starts there, `[]` for `NULL`: its head is the PDU and
its tail is what `next` leads to.
-/

namespace OaiNr.Rlc

/-- A range of missing bytes (`missing_data_t`). `snStart` is `-1` when there is nothing more to
report. -/
structure Missing where
  snStart : Int
  soStart : Int
  snEnd : Int
  soEnd : Int
  next : List Pdu
  deriving Repr, DecidableEq

/-- The buffer of the status PDU under construction, the place of the last E1 bit, and the place
of the last SOend if the last NACK has one. -/
structure StatusWriter where
  encoder : Encoder
  e1Byte : Nat
  e1Bit : Nat
  soEndAddress : Option Nat
  deriving Repr, DecidableEq

namespace Am

/-! ## Walking over the stored PDUs -/

/-- The loop shared by `get_first_rx_pdu` and `get_next_rx_pdu`: up to `last_sn` or to the first
SN with a PDU. -/
def scanRxPdu (fuel : Nat) (e : Am) (lastSn sn : Int) : Except Fault (List Pdu) :=
  (withFuel (Loop.run (fun sn => sn ≠ lastSn ∧ e.rx.getPduFromSn sn = [])
    (fun sn => (sn + 1) % e.snModulus) fuel sn)).map e.rx.getPduFromSn

def getFirstRxPdu (fuel : Nat) (e : Am) : Except Fault (List Pdu) :=
  e.scanRxPdu fuel e.rxHighestStatus e.rxNext

def getNextRxPdu (fuel : Nat) (e : Am) (cur : Pdu) (rest : List Pdu) : Except Fault (List Pdu) :=
  if rest ≠ [] then .ok rest
  else if cur.sn = e.rxHighestStatus then .ok []
  else e.scanRxPdu fuel e.rxHighestStatus ((cur.sn + 1) % e.snModulus)

/-! ## Missing ranges -/

def noMissing : Missing := { snStart := -1, soStart := 0, snEnd := 0, soEnd := 0, next := [] }

variable (e : Am)

/-- The code at the label `set_end_different_sdu`. -/
def setEndDifferentSdu (snStart soStart : Int) (cur : Pdu) (rest : List Pdu) : Missing :=
  let snEnd := if cur.isFirst then (cur.sn - 1 + e.snModulus) % e.snModulus else cur.sn
  let soEnd := if cur.isFirst then 0xffff else cur.so - 1
  if e.snCompareRx e.rxHighestStatus snEnd ≤ 0 then
    { snStart, soStart, snEnd := (e.rxHighestStatus - 1 + e.snModulus) % e.snModulus
      soEnd := 0xffff, next := [] }
  else { snStart, soStart, snEnd, soEnd, next := cur :: rest }

/-- The case where no PDU follows `cur`: what is missing goes up to `rx_highest_status`. -/
def missingAfterLast (cur : Pdu) (maxSo : Int) (lastReached : Bool) : Missing :=
  let complete := cur.data.isNone || lastReached
  let snStart := if complete then (cur.sn + 1) % e.snModulus else cur.sn
  let soStart := if complete then 0 else maxSo + 1
  if e.snCompareRx e.rxHighestStatus snStart ≤ 0 then noMissing
  else
    { snStart, soStart, snEnd := (e.rxHighestStatus - 1 + e.snModulus) % e.snModulus
      soEnd := 0xffff, next := [] }

/-- The case of a discontinuity between the SDU `sn` and the PDU `cur`. -/
def missingBefore (sn maxSo : Int) (lastReached : Bool) (cur : Pdu) (rest : List Pdu) : Missing :=
  if cur.sn = sn then
    if e.snCompareRx e.rxHighestStatus sn ≤ 0 then noMissing
    else { snStart := sn, soStart := maxSo + 1, snEnd := sn, soEnd := cur.so - 1, next := cur :: rest }
  else
    let snStart := if lastReached then (sn + 1) % e.snModulus else sn
    let soStart := if lastReached then 0 else maxSo + 1
    if e.snCompareRx e.rxHighestStatus snStart ≤ 0 then noMissing
    else e.setEndDifferentSdu snStart soStart cur rest

/-- The jumps back to `next_pdu`: over PDUs without a discontinuity. -/
def nextMissingLoop (fuel : Nat) (e : Am) :
    Nat → Pdu → List Pdu → Int → Bool → Except Fault Missing
  | 0, _, _, _, _ => .error .outOfFuel
  | turns + 1, cur, rest, maxSo, lastReached =>
    let sn := cur.sn
    let maxSo := max maxSo (cur.so + cur.size - 1)
    let lastReached := lastReached || cur.isLast
    match e.getNextRxPdu fuel cur rest with
    | .error f => .error f
    | .ok [] => .ok (e.missingAfterLast cur maxSo lastReached)
    | .ok (cur :: rest) =>
      if cur.sn = sn ∧ maxSo ≥ cur.so - 1 then
        nextMissingLoop fuel e turns cur rest maxSo lastReached
      else if cur.sn = (sn + 1) % e.snModulus ∧ lastReached ∧ cur.isFirst then
        nextMissingLoop fuel e turns cur rest 0 false
      else .ok (e.missingBefore sn maxSo lastReached cur rest)

def nextMissing (fuel : Nat) (e : Am) (cur : Pdu) (rest : List Pdu) (checkHead : Bool) : Except Fault Missing :=
  if checkHead ∧ (cur.sn ≠ e.rxNext ∨ !cur.isFirst) then
    if e.snCompareRx e.rxHighestStatus e.rxNext ≤ 0 then .ok noMissing
    else .ok (e.setEndDifferentSdu e.rxNext 0 cur rest)
  else e.nextMissingLoop fuel fuel cur rest 0 false

/-! ## Writing the NACKs -/

def nackSize (snStart soStart snEnd soEnd : Int) : Nat :=
  2 + (if e.snFieldLength = 18 then 1 else 0) + (if snStart = snEnd then 0 else 1) +
    (if soStart = 0 ∧ soEnd = 0xffff then 0 else 4)

def putNack (w : StatusWriter) (snStart soStart snEnd soEnd snCount : Int) : StatusWriter :=
  let buffer := w.encoder.buffer.modify w.e1Byte (· ||| 1 <<< UInt8.ofNat w.e1Bit)
  let n := { w.encoder with buffer }
  let e1Byte := if e.snFieldLength = 18 then n.byte + 2 else n.byte + 1
  let e1Bit := if e.snFieldLength = 18 then 5 else 3
  let e2 := if soStart = 0 ∧ soEnd = 0xffff then 0 else 1
  let e3 := if snStart = snEnd then 0 else 1
  let n := n.putBits snStart e.snFieldLength
  let n := n.putBits 0 1
  let n := n.putBits e2 1
  let n := n.putBits e3 1
  let n := n.putBits 0 (if e.snFieldLength = 18 then 3 else 1)
  let n := if e2 ≠ 0 then n.putBits soStart 16 else n
  let soEndAddress := if e2 ≠ 0 then some n.byte else none
  let n := if e2 ≠ 0 then n.putBits soEnd 16 else n
  let n := if e3 ≠ 0 then n.putBits snCount 8 else n
  { encoder := n, e1Byte, e1Bit, soEndAddress }

/-- The `while (sn_count)` of `generate_missing`, which cuts a range into blocks of at most 255
SNs. The result is the writer, whether the buffer was too small, and the last SN put in. -/
def generateMissingLoop (e : Am) (m : Missing) :
    Nat → Int → Int → Int → StatusWriter → StatusWriter × Bool × Int
  | 0, _, _, lastNack, w => (w, false, lastNack)
  | turns + 1, snCount, snStart, lastNack, w =>
    if snCount = 0 then (w, false, lastNack)
    else
      let curSnCount := min snCount 255
      let soStart := if snStart = m.snStart then m.soStart else 0
      let snEnd := if curSnCount = snCount then m.snEnd else (snStart + 254) % e.snModulus
      let soEnd := if curSnCount = snCount then m.soEnd else 0xffff
      if w.encoder.byte + e.nackSize snStart soStart snEnd soEnd > w.encoder.buffer.length then
        (w, true, lastNack)
      else
        let w := e.putNack w snStart soStart snEnd soEnd curSnCount
        let lastNack := if snStart = snEnd then snStart else snStart + curSnCount - 1
        generateMissingLoop e m turns (snCount - curSnCount)
          ((snStart + curSnCount) % e.snModulus) lastNack w

def generateMissing (m : Missing) (w : StatusWriter) : StatusWriter × Bool × Int :=
  let snCount := (m.snEnd - m.snStart + e.snModulus) % e.snModulus + 1
  e.generateMissingLoop m snCount.toNat snCount m.snStart (-1) w

def forceSoEnd (w : StatusWriter) : StatusWriter :=
  match w.soEndAddress with
  | none => w
  | some a =>
    { w with encoder := { w.encoder with
        buffer := (w.encoder.buffer.set a 0xff).set (a + 1) 0xff } }

/-- The `while (cur != NULL)` of `generate_status`. -/
def generateStatusLoop (fuel : Nat) (e : Am) :
    Nat → List Pdu → Bool → Int → StatusWriter → Except Fault (Int × StatusWriter)
  | _, [], _, lastNack, w => .ok (lastNack, w)
  | 0, _ :: _, _, _, _ => .error .outOfFuel
  | turns + 1, cur :: rest, checkHead, lastNack, w =>
    match e.nextMissing fuel cur rest checkHead with
    | .error f => .error f
    | .ok m =>
      if m.snStart = -1 then .ok (lastNack, w)
      else
        let g := e.generateMissing m w
        generateStatusLoop fuel e turns (if g.2.1 then [] else m.next) false
          (if g.2.2 ≠ -1 then g.2.2 else lastNack) (if g.2.1 then forceSoEnd g.1 else g.1)

def putAckSn (ackSn : Int) (buffer : List UInt8) : List UInt8 :=
  let a := ackSn.toNat
  if e.snFieldLength = 12 then
    (buffer.set 0 (UInt8.ofNat (a / 2 ^ 8))).set 1 (UInt8.ofNat (a % 256))
  else
    ((buffer.set 0 (UInt8.ofNat (a / 2 ^ 14))).set 1 (UInt8.ofNat (a / 2 ^ 6 % 256))).modify 2
      (· ||| UInt8.ofNat (a % 64 * 4))

def generateStatus (fuel : Nat) (e : Am) (buffer : List UInt8) : Except Fault (Am × List UInt8 × Nat) :=
  if buffer.length < 3 then .ok (e, buffer, 0)
  else do
    let lastNack := (e.rxNext - 1 + e.snModulus) % e.snModulus
    let encoder := (Encoder.init buffer).putBits 0 (8 * 3)
    let cur ← e.getFirstRxPdu fuel
    let w : StatusWriter :=
      { encoder, e1Byte := 2, e1Bit := if e.snFieldLength = 18 then 1 else 7, soEndAddress := none }
    let (lastNack, w) ← e.generateStatusLoop fuel fuel cur true lastNack w
    if w.encoder.full then throw .exit
    let ackSn := (lastNack + 1) % e.snModulus
    let size := w.encoder.byte
    return ({ e with
        statusTriggered := false
        tStatusProhibitStart := e.tCurrent
        stats := { e.stats with
          txpduPkts := e.stats.txpduPkts + 1
          txpduBytes := e.stats.txpduBytes + size
          txpduStatusPkts := e.stats.txpduStatusPkts + 1
          txpduStatusBytes := e.stats.txpduStatusBytes + size } },
      e.putAckSn ackSn w.encoder.buffer, size)

def StatusToReport : Prop :=
  e.statusTriggered ∧
    (e.tStatusProhibitStart = 0 ∨
      u64 (e.tCurrent - e.tStatusProhibitStart) > u64 e.tStatusProhibit)

instance : Decidable e.StatusToReport := inferInstanceAs (Decidable (_ ∧ _))

/-! ## The size of the report -/

/-- The `while (sn_count)` of `missing_size`: the number of blocks, the size, and `m->next`. -/
def missingSizeLoop (e : Am) (m : Missing) (maxsize : Nat) : Nat → Int → Int → Nat → Nat → Nat × Nat × List Pdu
  | 0, _, _, rangeCount, size => (rangeCount, size, m.next)
  | turns + 1, snCount, snStart, rangeCount, size =>
    if snCount = 0 then (rangeCount, size, m.next)
    else
      let curSnCount := min snCount 255
      let soStart := if snStart = m.snStart then m.soStart else 0
      let snEnd := if curSnCount = snCount then m.snEnd else (snStart + 254) % e.snModulus
      let soEnd := if curSnCount = snCount then m.soEnd else 0xffff
      if size + e.nackSize snStart soStart snEnd soEnd > maxsize then (rangeCount, size, [])
      else
        let bits := e.snFieldLength + 3 + (if e.snFieldLength = 18 then 3 else 1) +
          (if soStart = 0 ∧ soEnd = 0xffff then 0 else 16 * 2) + (if snStart = snEnd then 0 else 8)
        missingSizeLoop e m maxsize turns (snCount - curSnCount) ((snStart + curSnCount) % e.snModulus)
          (rangeCount + 1) (size + bits / 8)

def missingSize (m : Missing) (size maxsize : Nat) : Nat × Nat × List Pdu :=
  let snCount := (m.snEnd - m.snStart + e.snModulus) % e.snModulus + 1
  e.missingSizeLoop m maxsize snCount.toNat snCount m.snStart 0 size

/-- The `while (cur != NULL)` of `status_size`. -/
def statusSizeLoop (fuel : Nat) (e : Am) (maxsize : Nat) : Nat → List Pdu → Nat → Nat → Except Fault Nat
  | _, [], _, size => .ok size
  | 0, _ :: _, _, _ => .error .outOfFuel
  | turns + 1, cur :: rest, nackCount, size =>
    match e.nextMissing fuel cur rest (nackCount = 0) with
    | .error f => .error f
    | .ok m =>
      if m.snStart = -1 then .ok size
      else
        let s := e.missingSize m size maxsize
        statusSizeLoop fuel e maxsize turns s.2.2 (nackCount + s.1) s.2.1

def statusSize (fuel : Nat) (e : Am) (maxsize : Nat) : Except Fault Nat :=
  if maxsize < 3 then .ok 0
  else do e.statusSizeLoop fuel maxsize fuel (← e.getFirstRxPdu fuel) 0 3

end Am

end OaiNr.Rlc
