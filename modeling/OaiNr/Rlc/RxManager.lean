import OaiNr.Rlc.Pdu

/-!
# The reception ring (`nr_rlc_rx_manager.c`)

A circular buffer of `size` slots, one per SN of the window. Slot `start` belongs to the SN
`snStart`.
-/

namespace OaiNr.Rlc

/-- The ring (`nr_rlc_rx_manager_t`). `rxList` maps a slot to the segments stored there. -/
structure RxManager where
  rxList : Int → List Pdu
  size : Int
  start : Int
  snStart : Int

namespace RxManager

def nrRlcNewRxManager (size : Int) : RxManager :=
  { rxList := fun _ => [], size, start := 0, snStart := 0 }

variable (m : RxManager)

def nrRlcClearRxManager : RxManager :=
  { m with rxList := fun _ => [], start := 0, snStart := 0 }

def getPos (sn : Int) : Int :=
  (m.start + (sn - m.snStart + m.size * 2)) % m.size

def getPduFromSn (sn : Int) : List Pdu := m.rxList (m.getPos sn)

def setSlot (sn : Int) (l : List Pdu) : RxManager :=
  { m with rxList := Function.update m.rxList (m.getPos sn) l }

def clearPdu (sn : Int) : RxManager := m.setSlot sn []

def advance (count : Int) : RxManager :=
  { m with start := (m.start + count) % m.size }

def setStart (snStart : Int) : RxManager := { m with snStart }

/-- The insertion loop of `nr_rlc_rx_manager_add_pdu`: behind every segment whose `so` is not
bigger. -/
def insertBySo (pdu : Pdu) : List Pdu → List Pdu
  | [] => [pdu]
  | cur :: l => if cur.so > pdu.so then pdu :: cur :: l else cur :: insertBySo pdu l

def addPdu (pdu : Pdu) : RxManager :=
  m.setSlot pdu.sn (insertBySo pdu (m.getPduFromSn pdu.sn))

end RxManager

end OaiNr.Rlc
