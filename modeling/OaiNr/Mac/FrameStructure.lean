import Mathlib.Data.Nat.Count
import Mathlib.Data.Nat.Log
import OaiNr.Mac.DlSchedule

/-!
# The slots of a frame

In TDD one or two patterns make a period of downlink and uplink slots with a mixed slot between them, and a frame has
as many periods as fit into it.
-/

namespace OaiNr.Mac

/-- `NR_TDD_UL_DL_Pattern_t`, with numbers of slots that fit into 8 bits -/
structure TddPattern where
  nrofDownlinkSlots : Nat
  nrofDownlinkSymbols : Nat
  nrofUplinkSlots : Nat
  nrofUplinkSymbols : Nat

/-- `tdd_bitmap_t`. The symbols are written for a mixed slot only. -/
inductive TddSlot where
  | downlink
  | uplink
  | mixed (numDlSymbols numUlSymbols : Nat)
  deriving DecidableEq, Repr

def TddSlot.hasUl : TddSlot → Bool
  | .downlink => false
  | .uplink => true
  | .mixed _ numUlSymbols => numUlSymbols ≠ 0

structure TddPeriodConfig where
  tddSlotBitmap : List TddSlot
  numUlSlots : Nat

/-- `set_tdd_bmap_period`, behind the slots that are there already -/
def setTddBmapPeriod (pattern : TddPattern) (pc : TddPeriodConfig) : Except Fault TddPeriodConfig :=
  let mixed := .mixed pattern.nrofDownlinkSymbols pattern.nrofUplinkSymbols
  if pattern.nrofDownlinkSymbols + pattern.nrofUplinkSymbols < 14 then
    .ok ⟨pc.tddSlotBitmap ++ List.replicate pattern.nrofDownlinkSlots .downlink ++
        (if 0 < pattern.nrofUplinkSymbols + pattern.nrofDownlinkSymbols then [mixed] else []) ++
        List.replicate pattern.nrofUplinkSlots .uplink,
      pc.numUlSlots + (pattern.nrofUplinkSlots + if 0 < pattern.nrofUplinkSymbols then 1 else 0)⟩
  else .error .assertFatal

/-- `NR_TDD_UL_DL_ConfigCommon_t`, with the result of `get_tdd_period_idx` -/
structure TddConfig where
  periodIdx : Fin 8
  pattern1 : TddPattern
  pattern2 : Option TddPattern

def getNbPeriodsPerFrame : Fin 8 → Nat := [20, 16, 10, 8, 5, 4, 2, 1].get

/-- `frame_structure_t`. In FDD there is no configuration of a period. -/
structure FrameStructure where
  numbSlotsFrame : Nat
  numbPeriodFrame : Nat
  numbSlotsPeriod : Nat
  periodCfg : Option TddPeriodConfig

/-- `config_frame_structure`, for the numerologies up to 3 -/
def configFrameStructure (mu : Fin 4) : Option TddConfig → Except Fault FrameStructure
  | none => .ok ⟨10 * 2 ^ mu.val, 1, 10 * 2 ^ mu.val, none⟩
  | some tdd => do
    let numbPeriodFrame := getNbPeriodsPerFrame tdd.periodIdx
    let numbSlotsPeriod := 10 * 2 ^ mu.val / numbPeriodFrame
    let pc ← setTddBmapPeriod tdd.pattern1 ⟨[], 0⟩
    let pc ← tdd.pattern2.elim (.ok pc) (setTddBmapPeriod · pc)
    if pc.tddSlotBitmap.length = numbSlotsPeriod then
      return ⟨10 * 2 ^ mu.val, numbPeriodFrame, numbSlotsPeriod, some pc⟩
    else .error .assertFatal

namespace FrameStructure

variable (fs : FrameStructure)

def isUlSlot (slot : Nat) : Bool :=
  fs.periodCfg.all fun pc => (pc.tddSlotBitmap.getD (slot % fs.numbSlotsPeriod) .downlink).hasUl

def getUlSlotsPerPeriod : Nat := fs.periodCfg.elim fs.numbSlotsFrame TddPeriodConfig.numUlSlots

def getUlSlotsPerFrame : Nat :=
  fs.periodCfg.elim fs.numbSlotsFrame fun _ => fs.numbPeriodFrame * fs.getUlSlotsPerPeriod

/-- `get_pucch_index`. The count in the period starts from -1. -/
def getPucchIndex (frame slot schedPucchSize : Nat) : Int :=
  (frame * fs.getUlSlotsPerFrame + slot / fs.numbSlotsPeriod * fs.getUlSlotsPerPeriod +
    Nat.count (fs.isUlSlot ·) (slot % fs.numbSlotsPeriod + 1) - 1 : Int).tmod schedPucchSize

/-- `list_size` of `set_sched_pucch_list` -/
def schedPucchListSize (maxFbTime koffset : Nat) : Nat :=
  fs.getUlSlotsPerPeriod * 2 ^ Nat.clog 2 ((maxFbTime + koffset) / fs.numbSlotsPeriod + 1)

def getFullDlSlotsPerPeriod : Nat := fs.periodCfg.elim fs.numbSlotsFrame (·.tddSlotBitmap.count .downlink)

/-- `get_ul_slot_offset`. In a period with no such slot the source divides by zero. -/
def getUlSlotOffset (idx : Nat) (countMixed : Bool) : Nat :=
  fs.periodCfg.elim idx fun pc =>
    let ulSlotIdxs := (List.range fs.numbSlotsPeriod).filter fun i =>
      countMixed && fs.isUlSlot i || pc.tddSlotBitmap.getD i .downlink == .uplink
    ulSlotIdxs.getD (idx % ulSlotIdxs.length) 0 + idx / ulSlotIdxs.length * fs.numbSlotsPeriod

def checkPeriodicity (idealPeriod val : Nat) : Bool :=
  idealPeriod < val + 1 && (fs.periodCfg.isNone || val % fs.numbSlotsPeriod == 0)

/-- `set_ideal_period` for the reports, two per UE -/
def setIdealPeriod : Nat := maxMobilesPerGnb * 2 * fs.numbSlotsPeriod / fs.getUlSlotsPerPeriod

/-- The choice of `set_csi_meas_periodicity` -/
def csiPeriod : Nat := ([4, 5, 8, 10, 16, 20, 40, 80, 160].find? (fs.checkPeriodicity fs.setIdealPeriod)).getD 320

/-- `set_csi_meas_periodicity`: the period of a report and its offset -/
def setCsiMeasPeriodicity (numPucch2 uid : Nat) (isRsrp : Bool) : Except Fault (Nat × Nat) :=
  let offset := fs.getUlSlotOffset (uid * 2 / numPucch2 + isRsrp.toNat) true
  if offset < 320 then .ok (fs.csiPeriod, offset) else .error .assertFatal

def getPucch2Size (numAntPorts : Nat) : Nat := if numAntPorts ≤ 4 then 8 else 12

/-- `startingPRB` in `config_pucch_resset1` -/
def pucch2StartingPrb (numAntPorts numPucch2 uid : Nat) : Nat := getPucch2Size numAntPorts * (uid % numPucch2)

/-- `verify_radio_configuration` in a bandwidth part of `currBwp` blocks -/
def verifyRadioConfiguration (numAdditionalBwps numAntPorts numPucch2 currBwp uid : Nat) : Bool :=
  fs.getUlSlotOffset uid false < 2560 &&
  fs.numbSlotsPeriod * (1 + numAdditionalBwps) / 320 < fs.getFullDlSlotsPerPeriod &&
  getPucch2Size numAntPorts * numPucch2 + uid < currBwp &&
  numPucch2 * getPucch2Size numAntPorts + maxMobilesPerGnb ≤ currBwp &&
  fs.getUlSlotOffset (uid * 2 / numPucch2 + 1) true < 320

end FrameStructure

end OaiNr.Mac
