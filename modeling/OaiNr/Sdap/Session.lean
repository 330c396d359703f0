import OaiNr.Sdap.Store

/-!
# The two ends of a PDU session

The gNB and the UE are given the same configurations, one after the other, and the same DRBs are
released at both. The gNB alone replaces the QoS flows of a DRB when E1 says so. What one end hands to
PDCP arrives at the other end on the same DRB.
-/

namespace OaiNr.Sdap

structure Session where
  gnb : Entity
  ue : Entity
  headerUl : Nat → Bool
  headerDl : Nat → Bool

namespace Session

open Entity

/-- A further configuration for a DRB, or the release of a DRB, at both ends. -/
inductive Step (s : Session) : Session → Prop where
  | configure {c : NrSdapConfig} {drbId : Nat} {cg cu : SdapConfig} {g u : Entity × List Submission} :
      nrSdapGetConfig true c drbId = .ok cg → s.gnb.qfi2drbMapUpdate cg = .ok g →
      nrSdapGetConfig false c drbId = .ok cu → s.ue.qfi2drbMapUpdate cu = .ok u →
      Step s
        { gnb := g.1
          ue := u.1
          headerUl := Function.update s.headerUl drbId c.sdapHeaderUl
          headerDl := Function.update s.headerDl drbId c.sdapHeaderDl }
  | release (drbId : Nat) : Step s { s with gnb := s.gnb.releaseDrb drbId, ue := s.ue.releaseDrb drbId }

inductive Reaches : Session → Prop where
  | new {c : NrSdapConfig} {drbId ueId ueId' : Nat} {cg cu : SdapConfig} {g u : Entity} :
      nrSdapGetConfig true c drbId = .ok cg → addEntity true ueId cg = .ok g →
      nrSdapGetConfig false c drbId = .ok cu → addEntity false ueId' cu = .ok u →
      Reaches
        { gnb := g
          ue := u
          headerUl := Function.update (fun _ => false) drbId c.sdapHeaderUl
          headerDl := Function.update (fun _ => false) drbId c.sdapHeaderDl }
  | step {s s' : Session} : Reaches s → Step s s' → Reaches s'

/-- What a session goes through: both ends are configured, the CU-UP replaces the QoS flows of a DRB, and PDUs arrive,
which can change the mapping of the UE. -/
inductive Runs : Session → Prop where
  | reaches {s : Session} : Reaches s → Runs s
  | step {s s' : Session} : Runs s → Step s s' → Runs s'
  | updateQosFlows {s : Session} {drbId : Nat} {qfis : List Nat} {g : Entity × List Submission} : Runs s →
      qfis.length ≤ sdapMaxQfi → s.gnb.qfi2drbMapUpdate (s.gnb.qosFlowsConfig drbId qfis) = .ok g →
      Runs { s with gnb := g.1 }
  | receive {s : Session} {pdcpEntity : Nat} {buf : List UInt8} {r : Received} : Runs s →
      s.ue.rxEntity pdcpEntity false buf = .ok r → Runs { s with ue := r.entity }

/-- A packet of the UE arrives at the gNB as it was, with its QFI if the DRB has an UL header. -/
def UlExact (s : Session) (qfi : Fin sdapMaxQfi) (dc : Bool) (packet : List UInt8) : Prop :=
  ∃ sub, s.ue.txEntity packet qfi dc = some sub ∧
    ∃ r d, s.gnb.rxEntity sub.drbId true sub.pdu = .ok r ∧ r.delivery = some d ∧ d.payload = packet ∧
      (s.headerUl sub.drbId = true → d.qfi = some qfi)

/-- A packet of the gNB arrives at the UE as it was, with its QFI if the DRB has a DL header. -/
def DlExact (s : Session) (qfi : Fin sdapMaxQfi) (rqi : Bool) (packet : List UInt8) : Prop :=
  ∃ sub, s.gnb.txEntity packet qfi rqi = some sub ∧
    ∃ r d, s.ue.rxEntity sub.drbId false sub.pdu = .ok r ∧ r.delivery = some d ∧ d.payload = packet ∧
      (s.headerDl sub.drbId = true → d.qfi = some qfi)

end Session

end OaiNr.Sdap
