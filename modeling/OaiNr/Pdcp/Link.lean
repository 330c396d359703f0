import OaiNr.Pdcp.Entity

/-!
# Two PDCP entities and the channel between them

The channel may lose, duplicate and reorder: any PDU that was ever sent can be received at any time. Both entities may
also be used in the other direction.
-/

namespace OaiNr.Pdcp

/-- The two entities, and the SDUs sent so far with their PDUs; the COUNT of an SDU is its place. -/
structure Link where
  snd : Entity
  rcv : Entity
  sent : List (List UInt8 × List UInt8)

structure Paired (c c' : EntityConfig) : Prop where
  type : c'.type = c.type
  rbId : c'.rbId = c.rbId
  isGnb : c'.isGnb = !c.isGnb
  sdap : c'.hasSdapRx = c.hasSdapTx
  snSize : c'.snSize = c.snSize
  security : c'.security = c.security

namespace Link

def InWindow (k : Link) (count : Nat) : Prop :=
  (k.rcv.rxDeliv : Int) - k.rcv.windowSize ≤ count ∧ (count : Int) < k.rcv.rxDeliv + k.rcv.windowSize

/-- One operation at one of the ends. Only COUNTs below `limit` are sent. -/
inductive Step (cr : Crypto) (limit : Nat) (k : Link) : Link → Prop where
  | send {buffer pdu : List UInt8} {pduMaxSize : Nat} {s : Entity} :
      k.snd.sdapTxHeaderSize < buffer.length → k.sent.length < limit →
      k.snd.processSdu cr buffer pduMaxSize = some (s, some pdu) →
      Step cr limit k { k with snd := s, sent := k.sent ++ [(buffer, pdu)] }
  | receive {buffer pdu : List UInt8} {count : Nat} :
      k.sent[count]? = some (buffer, pdu) → k.InWindow count →
      Step cr limit k { k with rcv := k.rcv.recvPdu cr pdu }
  | rcvTime (now : Nat) : Step cr limit k { k with rcv := k.rcv.setTime now }
  | rcvSend {buffer : List UInt8} {pduMaxSize : Nat} {r : Entity × Option (List UInt8)} :
      k.rcv.processSdu cr buffer pduMaxSize = some r → Step cr limit k { k with rcv := r.1 }
  | sndReceive (buffer : List UInt8) : Step cr limit k { k with snd := k.snd.recvPdu cr buffer }
  | sndTime (now : Nat) : Step cr limit k { k with snd := k.snd.setTime now }

inductive Reaches (cr : Crypto) (limit : Nat) (c c' : EntityConfig) : Link → Prop where
  | new {s r : Entity} : Entity.newNrPdcpEntity c = some s → Entity.newNrPdcpEntity c' = some r →
      Reaches cr limit c c' { snd := s, rcv := r, sent := [] }
  | step {k k' : Link} : Reaches cr limit c c' k → Step cr limit k k' → Reaches cr limit c c' k'

end Link

end OaiNr.Pdcp
