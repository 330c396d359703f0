import Mathlib.Tactic.Ring

/-!
# The NAS layer of the UE (`nr_nas_msg.h`, `secu_defs.c`)

Its state, the security container and the derivation of the keys. The ciphering and integrity algorithms, the key
derivation function and the functions of the USIM are parameters of the model.
-/

namespace OaiNr.Nas

inductive Fault where
  | assertFatal
  | exit
  | nullPointer
  | outOfBounds
  | uninitialised
  deriving DecidableEq, Repr

section Algorithms

/-- `eia_alg_id_e` without the null algorithm, for which no container is made -/
inductive IntegrityAlgorithm where
  | eia1
  | eia2
  deriving DecidableEq, Repr

inductive CipheringAlgorithm where
  | eea0
  | eea1
  | eea2
  deriving DecidableEq, Repr

structure StreamCipher where
  context : List UInt8
  count : UInt32
  bearer : UInt8
  direction : UInt8
  deriving DecidableEq, Repr

/-- What `f2345` computes from the secrets of the USIM and RAND -/
structure Milenage where
  res : List UInt8
  ck : List UInt8
  ik : List UInt8
  deriving DecidableEq, Repr

def nasIntegritySize : Nat := 4

/-- The algorithms, with what the protocol relies on. `suciProfileA` is the output of protection scheme A: the ephemeral
public key, the ciphered digits and their code of eight octets. -/
structure Crypto where
  encrypt : CipheringAlgorithm → StreamCipher → List UInt8 → List UInt8
  integrity : IntegrityAlgorithm → StreamCipher → List UInt8 → List UInt8
  kdf : List UInt8 → List UInt8 → List UInt8
  f2345 : List UInt8 → List UInt8 → List UInt8 → Milenage
  suciProfileA : List UInt8 → List UInt8
  length_encrypt : ∀ a c m, (encrypt a c m).length = m.length
  encrypt_encrypt : ∀ a c m, encrypt a c (encrypt a c m) = m
  length_integrity : ∀ a c m, (integrity a c m).length = nasIntegritySize
  length_suciProfileA : ∀ m, (suciProfileA m).length = 32 + m.length + 8

def Crypto.plain : Crypto where
  encrypt _ _ m := m
  integrity _ _ _ := List.replicate nasIntegritySize 0
  kdf _ _ := List.replicate 32 0
  f2345 _ _ _ := ⟨List.replicate 16 0, List.replicate 16 0, List.replicate 16 0⟩
  suciProfileA m := List.replicate 32 0 ++ m ++ List.replicate 8 0
  length_encrypt _ _ _ := rfl
  encrypt_encrypt _ _ _ := rfl
  length_integrity _ _ _ := List.length_replicate
  length_suciProfileA _ := by rw [List.length_append, List.length_append, List.length_replicate, List.length_replicate]

structure Container where
  integrityAlgorithm : IntegrityAlgorithm
  cipheringAlgorithm : CipheringAlgorithm
  integrityContext : List UInt8
  cipheringContext : List UInt8
  deriving DecidableEq, Repr

/-- `stream_integrity_init`, for an algorithm that is not the null algorithm -/
def streamIntegrityInit (algorithm : Nat) : Except Fault IntegrityAlgorithm :=
  if algorithm = 1 then .ok .eia1 else if algorithm = 2 then .ok .eia2 else .error .assertFatal

def streamCipheringInit (algorithm : Nat) : Except Fault CipheringAlgorithm :=
  if algorithm = 0 then .ok .eea0
  else if algorithm = 1 then .ok .eea1
  else if algorithm = 2 then .ok .eea2
  else .error .assertFatal

def streamSecurityContainerInit (cipheringAlgorithm integrityAlgorithm : Nat) (cipheringKey integrityKey : List UInt8) :
    Except Fault Container := do
  let integrity ← streamIntegrityInit integrityAlgorithm
  let ciphering ← streamCipheringInit cipheringAlgorithm
  .ok ⟨integrity, ciphering, integrityKey, cipheringKey⟩

end Algorithms

section State

/-- `Guti5GSMobileIdentity_t`, whose type of identity `process_guti` asserts -/
structure Guti where
  oddeven : UInt8
  mccdigit2 : UInt8
  mccdigit1 : UInt8
  mncdigit3 : UInt8
  mccdigit3 : UInt8
  mncdigit2 : UInt8
  mncdigit1 : UInt8
  amfregionid : UInt8
  amfsetid : UInt16
  amfpointer : UInt16
  tmsi : UInt32
  deriving DecidableEq, Repr

/-- `uicc_t`, with its strings as lists of characters -/
structure Uicc where
  imsiStr : List UInt8
  imeisvStr : List UInt8
  routingIndicatorStr : List UInt8
  nmcSize : Int
  protectionScheme : Nat
  homeNetworkPublicKeyId : UInt8
  key : List UInt8
  opc : List UInt8
  pduSessionIds : List Int
  deriving DecidableEq, Repr

structure Security where
  kausf : List UInt8
  kseaf : List UInt8
  kamf : List UInt8
  knasInt : List UInt8
  knasEnc : List UInt8
  res : List UInt8
  rand : List UInt8
  kgnb : List UInt8
  nasCountUl : UInt32
  nasCountDl : UInt32
  deriving DecidableEq, Repr

inductive MmState where
  | deregistered
  | deregisteredInitiated
  | registeredInitiated
  | registered
  | serviceRequestInitiated
  deriving DecidableEq, Repr

inductive MmMode where
  | notConnected
  | idle
  | connected
  deriving DecidableEq, Repr

/-- `nr_ue_nas_t`; `servingNetworkName` is what `servingNetworkName` prints of `sn_id`. -/
structure NrUeNas where
  fiveGmmState : MmState
  fiveGmmMode : MmMode
  uicc : Uicc
  security : Security
  securityContainer : Option Container
  guti : Option Guti
  isRrcInactive : Bool
  t3512 : Int
  t3448 : Int
  t3446 : Int
  ksi : Option UInt8
  servingNetworkName : List UInt8
  deriving DecidableEq, Repr

end State

section Keys

variable (crypto : Crypto)

def be16 (n : Nat) : List UInt8 := [UInt8.ofNat (n / 256), UInt8.ofNat n]

def be32 (v : UInt32) : List UInt8 :=
  [UInt8.ofNat (v.toNat / 2 ^ 24), UInt8.ofNat (v.toNat / 2 ^ 16), UInt8.ofNat (v.toNat / 2 ^ 8), UInt8.ofNat v.toNat]

def transferRes (ck ik input rand snn : List UInt8) : List UInt8 :=
  let s := [0x6B] ++ snn ++ be16 snn.length ++ rand ++ be16 16 ++ input.take 8 ++ be16 8
  ((crypto.kdf (ck ++ ik) s).drop 16).take 16

def deriveKausf (ck ik sqn snn : List UInt8) : List UInt8 :=
  crypto.kdf (ck ++ ik) ([0x6A] ++ snn ++ be16 snn.length ++ sqn ++ be16 6)

def deriveKseaf (kausf snn : List UInt8) : List UInt8 :=
  crypto.kdf kausf ([0x6C] ++ snn ++ be16 snn.length)

/-- `derive_kamf`, which is called with `abba = 0` -/
def deriveKamf (kseaf imsi : List UInt8) : List UInt8 :=
  crypto.kdf kseaf ([0x6D] ++ imsi ++ be16 imsi.length ++ [0, 0] ++ be16 2)

def deriveKgnb (kamf : List UInt8) (count : UInt32) : List UInt8 :=
  crypto.kdf kamf ([0x6E] ++ be32 count ++ be16 4 ++ [1] ++ be16 1)

def deriveKnas (algorithmType : UInt8) (algorithm : Nat) (kamf : List UInt8) : List UInt8 :=
  ((crypto.kdf kamf [0x69, algorithmType, 0, 1, UInt8.ofNat algorithm, 0, 1]).drop 16).take 16

/-- `derive_ue_keys`, from RAND and from the six octets of AUTN that it takes for SQN -/
def deriveUeKeys (nas : NrUeNas) (rand sqn : List UInt8) : Security :=
  let milenage := crypto.f2345 nas.uicc.key rand nas.uicc.opc
  let kausf := deriveKausf crypto milenage.ck milenage.ik sqn nas.servingNetworkName
  let kseaf := deriveKseaf crypto kausf nas.servingNetworkName
  let kamf := deriveKamf crypto kseaf nas.uicc.imsiStr
  { nas.security with
    rand
    res := transferRes crypto milenage.ck milenage.ik milenage.res rand nas.servingNetworkName
    kausf
    kseaf
    kamf
    kgnb := deriveKgnb crypto kamf nas.security.nasCountUl }

end Keys

end OaiNr.Nas
