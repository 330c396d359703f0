import OaiNr.Rrc.Lemmas.Bearers

/-!
# The removal of unused DRBs

The loop erases the DRB that it looks at, and reads its id afterwards.
-/

namespace OaiNr.Rrc

open List

variable {session : Nat} {release : List Nat} {drbs drbs' : List Drb} {qos : List QosFlow} {d : Drb} {b : Bearers}
  {e1 e1' : PduSessionToMod}

end OaiNr.Rrc
