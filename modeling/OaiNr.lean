import OaiNr.Ds.Theorems.SeqArr
import OaiNr.Ds.Theorems.SpscQ
import OaiNr.Gtpu.Theorems.Codec
import OaiNr.Gtpu.Theorems.Safety
import OaiNr.Gtpu.Theorems.Termination
import OaiNr.Gtpu.Theorems.Tunnels
import OaiNr.Mac.Theorems.BufferStatus
import OaiNr.Mac.Theorems.DciCount
import OaiNr.Mac.Theorems.DlParser
import OaiNr.Mac.Theorems.DlRoundTrip
import OaiNr.Mac.Theorems.FindHarq
import OaiNr.Mac.Theorems.FindNbRb
import OaiNr.Mac.Theorems.HarqPartition
import OaiNr.Mac.Theorems.LcidBudget
import OaiNr.Mac.Theorems.NrListRun
import OaiNr.Mac.Theorems.PdcchCandidates
import OaiNr.Mac.Theorems.RbAlloc
import OaiNr.Mac.Theorems.ResourceBlocks
import OaiNr.Mac.Theorems.TokenBucket
import OaiNr.Mac.Theorems.UlParser
import OaiNr.Mac.Theorems.UplinkSlots
import OaiNr.Nas.Theorems.Replay
import OaiNr.Nas.Theorems.Uplink
import OaiNr.Pdcp.Theorems.CountInference
import OaiNr.Pdcp.Theorems.PduSize
import OaiNr.Pdcp.Theorems.ReceiverInvariant
import OaiNr.Pdcp.Theorems.UmBearer
import OaiNr.Phy.Theorems.Concatenation
import OaiNr.Phy.Theorems.RateMatching
import OaiNr.Rlc.Theorems.PollTimer
import OaiNr.Rlc.Theorems.ReceiveAccounting
import OaiNr.Rlc.Theorems.ReceiveWindow
import OaiNr.Rlc.Theorems.SnLength
import OaiNr.Rlc.Theorems.StatusConservation
import OaiNr.Rlc.Theorems.StatusRejection
import OaiNr.Rlc.Theorems.StatusSize
import OaiNr.Rlc.Theorems.Termination
import OaiNr.Rlc.Theorems.UmInvariant
import OaiNr.Rlc.Theorems.UmTransmission
import OaiNr.Rrc.Theorems.Bearers
import OaiNr.Rrc.Theorems.Modify
import OaiNr.Sdap.Theorems.Agreement
import OaiNr.Sdap.Theorems.FlowUpdate
import OaiNr.Threads.Theorems.Actor
import OaiNr.Threads.Theorems.TimeSource
