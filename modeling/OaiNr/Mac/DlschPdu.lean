import OaiNr.Mac.MacPdu

/-!
# The MAC PDU of a downlink grant

The gNB writes the control elements that are scheduled for the UE, asks RLC for the data of each
logical channel, and fills the rest of the transport block.
-/

namespace OaiNr.Mac

structure TciStateInd where
  coresetId : Nat
  tciStateId : Nat

/-- `SPCSIReportingpucch_t`. The writer leaves `R1` of the control element as the stack has it. -/
structure SpCsiReportingPucch where
  servingCellId : Nat
  bwpId : Nat
  s0tos3ActDeact : Fin 4 → Bool
  r1 : Bool

/-- `pdschTciStatesActDeact_t` and `aperiodicCSI_triggerStateSelection_t`, with an array of 128 states -/
structure StateSelection where
  servingCellId : Nat
  bwpId : Nat
  highest : Nat
  states : Nat → Bool

structure SpZpCsiRs where
  actDeact : Bool
  servCellId : Nat
  bwpid : Nat
  rscId : Nat

/-- `csi_rs_im_t`, with an array of 64 TCI states -/
structure CsiRsIm where
  actDeact : Bool
  servCellid : Nat
  bwpId : Nat
  im : Bool
  csiImRscId : Nat
  nzpCsiRscId : Nat
  nbTciResourceSetId : Nat
  tciStateId : Nat → Nat

/-- The part of `NR_UE_sched_ctrl_t` that is about control elements. One that is not scheduled is
`none`, the timing advance if `ta_apply` is not set. -/
structure CeControl where
  taUpdate : Option Int
  tciStateInd : Option TciStateInd
  spCsiReportingPucch : Option SpCsiReportingPucch
  pdschTciStatesActDeact : Option StateSelection
  aperiCsiTrigger : Option StateSelection
  spZpCsiRs : Option SpZpCsiRs
  csiIm : Option CsiRsIm

def maxStates : Nat := 128

def maxCsiResourceSet : Nat := 64

/-- `NR_MAC_CE_TA` -/
def taCommand (tagId : Nat) (ta : Int) : Except Fault SubPdu :=
  if ta < 64 then .ok (.fixed 0x3D [octet [(6, (ta % 64).toNat), (2, tagId)]]) else .error .assertFatal

/-- `NR_TCI_PDCCH` -/
def tciPdcch (t : TciStateInd) : SubPdu :=
  .fixed 0x34 [octet [(3, t.coresetId % 16 / 2), (5, 0)],
    octet [(7, t.tciStateId), (1, t.coresetId)]]

/-- `NR_PUCCH_CSI_REPORTING` -/
def pucchCsiReporting (s : SpCsiReportingPucch) : SubPdu :=
  .fixed 0x33 [octet [(2, s.bwpId), (5, s.servingCellId), (1, s.r1.toNat)],
    octet [(1, (s.s0tos3ActDeact 0).toNat), (1, (s.s0tos3ActDeact 1).toNat),
      (1, (s.s0tos3ActDeact 2).toNat), (1, (s.s0tos3ActDeact 3).toNat), (4, 0)]]

/-- One octet of the bitmap `T` -/
def stateOctet (states : Nat → Bool) (j : Nat) : UInt8 :=
  octet ((List.range 8).map fun i => (1, (states (8 * j + i)).toNat))

/-- `NR_TCI_PDSCH_APERIODIC_CSI`. The bitmap has whole octets, and all of its states are read. -/
def tciPdschAperiodicCsi (lcid : Nat) (s : StateSelection) : Except Fault SubPdu :=
  let numOctets := s.highest / 8 + 1
  if numOctets * 8 ≤ maxStates then
    .ok (.short lcid (octet [(2, s.bwpId), (5, s.servingCellId), (1, 0)] ::
      (List.range numOctets).map (stateOctet s.states)))
  else .error .outOfBounds

def tciPdsch : StateSelection → Except Fault SubPdu := tciPdschAperiodicCsi 0x35

def aperiodicCsi : StateSelection → Except Fault SubPdu := tciPdschAperiodicCsi 0x36

/-- `NR_MAC_CE_SP_ZP_CSI_RS_RES_SET` -/
def spZpCsiRsResSet (z : SpZpCsiRs) : SubPdu :=
  .fixed 0x30 [octet [(2, z.bwpid), (5, z.servCellId), (1, z.actDeact.toNat)],
    octet [(4, z.rscId), (4, 0)]]

/-- The first octet of `CSI_RS_CSI_IM_ACT_DEACT_MAC_CE` -/
def CsiRsIm.header (c : CsiRsIm) : UInt8 :=
  octet [(2, c.bwpId), (5, c.servCellid), (1, c.actDeact.toNat)]

/-- The octets after it: `SP_CSI_IMID` is there with `IM`, the TCI states with an activation. -/
def CsiRsIm.body (c : CsiRsIm) : List UInt8 :=
  octet [(6, c.nzpCsiRscId), (1, c.im.toNat), (1, 0)] ::
    ((if c.im then [octet [(6, c.csiImRscId), (2, 0)]] else []) ++
      if c.actDeact then
        (List.range c.nbTciResourceSetId).map fun i => octet [(6, c.tciStateId i), (2, 0)]
      else [])

/-- `CSI_RS_CSI_IM_ACT_DEACT_MAC_CE` goes out with the subheader that has no length. -/
def csiRsCsiIm (c : CsiRsIm) : Except Fault SubPdu :=
  if c.actDeact ∧ maxCsiResourceSet < c.nbTciResourceSetId then .error .outOfBounds
  else .ok (.fixed 0x37 (c.header :: c.body))

def ifScheduled {α : Type} (ce : α → Except Fault SubPdu) : Option α → Except Fault (List SubPdu)
  | none => .ok []
  | some a => do return [← ce a]

/-- `nr_write_ce_dlsch_pdu`. `tagId` is that of the gNB. A DRX command and a contention resolution
identity, of six octets, are what the caller asks for. -/
def writeCeDlschPdu (tagId : Nat) (c : CeControl) (drx : Bool) (contResId : Option (List UInt8)) :
    Except Fault (List SubPdu) := do
  let ta ← ifScheduled (taCommand tagId) c.taUpdate
  let tciPdsch ← ifScheduled tciPdsch c.pdschTciStatesActDeact
  let aperiodic ← ifScheduled aperiodicCsi c.aperiCsiTrigger
  let csiIm ← ifScheduled csiRsCsiIm c.csiIm
  return (if drx then [.fixed 0x3C []] else []) ++ ta
    ++ (contResId.map fun r => SubPdu.fixed 0x3E (r.take 6)).toList
    ++ (c.tciStateInd.map tciPdcch).toList
    ++ (c.spCsiReportingPucch.map pucchCsiReporting).toList
    ++ tciPdsch ++ aperiodic
    ++ (c.spZpCsiRs.map spZpCsiRsResSet).toList
    ++ csiIm

/-- The transmitting side of RLC, for all channels of the UE: a state, and what `generate_pdu` gives
for a channel and a size, which is no more than that size. A channel without an entity gives nothing. -/
structure RlcSource where
  State : Type
  generatePdu : State → Nat → Nat → List UInt8 × State
  length_le : ∀ s lcid size, (generatePdu s lcid size).1.length ≤ size

def maxNumDataReq : Nat := 1024

/-- `nr_mac_rlc_multi_data_req`: PDUs of a channel until it has no more, the room for a subheader and
one octet is gone, or the caller has no more entries for their sizes. -/
def multiDataReq (rlc : RlcSource) (lcid : Nat) :
    (entries tbSize : Nat) → rlc.State → List (List UInt8) × rlc.State
  | 0, _, s => ([], s)
  | entries + 1, tbSize, s =>
    if 3 < tbSize then
      match rlc.generatePdu s lcid (tbSize - 3) with
      | ([], s) => ([], s)
      | (pdu, s) =>
        let (pdus, s) := multiDataReq rlc lcid entries (tbSize - (3 + pdu.length)) s
        (pdu :: pdus, s)
    else ([], s)

def nrMaxNumLcid : Nat := 32

abbrev Sdu := Nat × List UInt8

def sduRoom (sdus : List Sdu) : Nat := (sdus.map fun d => 3 + d.2.length).sum

/-- The loop over `lc_config` in `generate_dl_mac_pdu`. `alloc` is read only to leave out the channels
that were given nothing. -/
def multiplex (rlc : RlcSource) (alloc : Nat → Int) :
    (lcConfig : List Nat) → (space : Nat) → rlc.State → Except Fault (List Sdu)
  | [], _, _ => .ok []
  | lcid :: lcs, space, s =>
    if lcid < nrMaxNumLcid then
      if alloc lcid = 0 then multiplex rlc alloc lcs space s
      else do
        let (pdus, s) := multiDataReq rlc lcid maxNumDataReq space s
        let sdus := pdus.map fun p => (lcid, p)
        return sdus ++ (← multiplex rlc alloc lcs (space - sduRoom sdus) s)
    else .error .outOfBounds

/-- What an initial transmission is made from. `lcidAlloc` is the policy `dl_lcid_alloc`, a function
of the room that is left for data, and `random` what `lrand48` gives. -/
structure DlGrant where
  tagId : Nat
  ce : CeControl
  tbs : Nat
  numTotalBytes : Nat
  lcConfig : List Nat
  lcidAlloc : Nat → Nat → Int
  phyTestOrDoRa : Bool
  random : Nat → UInt8

/-- A MAC PDU by its parts: control elements, SDUs, and what fills the block. -/
structure DlMacPdu where
  ces : List SubPdu
  sdus : List Sdu
  filling : List UInt8
  deriving DecidableEq, Repr

def cesOctets (ces : List SubPdu) : List UInt8 := ces.flatMap SubPdu.octets

def sdusOctets (sdus : List Sdu) : List UInt8 := sdus.flatMap fun d => (SubPdu.long d.1 d.2).octets

def DlMacPdu.octets (p : DlMacPdu) : List UInt8 := cesOctets p.ces ++ sdusOctets p.sdus ++ p.filling

def padding : Nat → List UInt8
  | 0 => []
  | n + 1 => octet [(6, 0x3F), (2, 0)] :: List.replicate n 0

/-- The rest of a block without data: random octets behind a long padding header in the two test
modes, otherwise padding. -/
def DlGrant.fillEmpty (g : DlGrant) (space : Nat) : List UInt8 :=
  if g.phyTestOrDoRa ∧ 3 < space then
    (SubPdu.long 0x3F ((List.range (space - 3)).map g.random)).octets
  else padding space

def DlGrant.generateDlMacPdu (g : DlGrant) (rlc : RlcSource) (s : rlc.State) : Except Fault DlMacPdu := do
  let ces ← writeCeDlschPdu g.tagId g.ce false none
  let written := (cesOctets ces).length
  if written < g.tbs then
    let space := g.tbs - written
    if 0 < g.numTotalBytes then
      let sdus ← multiplex rlc (g.lcidAlloc space) g.lcConfig space s
      return ⟨ces, sdus, padding (space - sduRoom sdus)⟩
    else return ⟨ces, [], g.fillEmpty space⟩
  else .error .devAssert

end OaiNr.Mac
