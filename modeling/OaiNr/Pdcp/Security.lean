/-!
# Ciphering and integrity protection (`nr_pdcp_security_nea*.c`, `nr_pdcp_integrity_nia*.c`)

The algorithms are parameters of the model. A ciphering algorithm XORs the buffer with a key
stream, and the same function ciphers and deciphers: `entity->decipher` is `entity->cipher`.
-/

namespace OaiNr.Pdcp

inductive CipherAlgorithm where
  | nea1
  | nea2
  deriving Repr, DecidableEq

inductive IntegrityAlgorithm where
  | nia1
  | nia2
  deriving Repr, DecidableEq

structure CryptoInput where
  bearer : Int
  count : Nat
  direction : Nat
  deriving Repr, DecidableEq

def pdcpIntegritySize : Nat := 4

/-- The algorithms, with what the protocol relies on. -/
structure Crypto where
  cipher : CipherAlgorithm → List UInt8 → CryptoInput → List UInt8 → List UInt8
  integrity : IntegrityAlgorithm → List UInt8 → CryptoInput → List UInt8 → List UInt8
  length_cipher : ∀ a k i b, (cipher a k i b).length = b.length
  cipher_cipher : ∀ a k i b, cipher a k i (cipher a k i b) = b
  length_integrity : ∀ a k i b, (integrity a k i b).length = pdcpIntegritySize

def Crypto.plain : Crypto where
  cipher _ _ _ b := b
  integrity _ _ _ _ := List.replicate pdcpIntegritySize 0
  length_cipher _ _ _ _ := rfl
  cipher_cipher _ _ _ _ := rfl
  length_integrity _ _ _ _ := List.length_replicate

/-- The parameters of `set_security` (`nr_pdcp_entity_security_keys_and_algos_t`). An algorithm of `-1` keeps
the current one, 0 switches the protection off. -/
structure KeysAndAlgos where
  integrityAlgorithm : Int
  cipheringAlgorithm : Int
  integrityKey : List UInt8
  cipheringKey : List UInt8
  deriving Repr, DecidableEq

end OaiNr.Pdcp
