import OaiNr.Sdap.Theorems.FlowMove
import OaiNr.Sdap.Theorems.StoreRefinement

/-!
# Replacing the QoS flows of a DRB
-/

namespace OaiNr.Sdap

open Entity

variable {e e' : Entity} {c : SdapConfig} {d : DrbId} {qfis l : List Nat} {qfi : Fin sdapMaxQfi}

end OaiNr.Sdap
