import Keyroost.Library.Bytes
import Keyroost.Library.LeadingZeros

/-!
# Keys of an OpenPGP card: slots, curves, algorithms, fingerprints

The types of `keyroost-openpgp/src/lib.rs` that the modules on cards and on key files share. A
curve's object identifier, its size and the length of its fields are functions on one enumeration,
and the readers look an identifier up in the list of all curves, so that reading and writing cannot
disagree (`fromOid_oid`).

The last section is the v4 fingerprint of a card's key: a packet's body is put together from the
public key, the attributes and the time, and hashed. The hash is a parameter.
-/

namespace Keyroost.OpenPgp

/-- A key slot. -/
inductive KeyCrt where
  | sign
  | decrypt
  | auth
deriving DecidableEq, Repr

inductive Curve where
  | ed25519
  | x25519
  | nistP256
  | nistP384
  | nistP521
  | secp256k1
  | brainpoolP256r1
  | brainpoolP384r1
  | brainpoolP512r1
deriving DecidableEq, Repr

namespace Curve

def ALL : List Curve :=
  [ed25519, x25519, nistP256, nistP384, nistP521, secp256k1, brainpoolP256r1, brainpoolP384r1,
    brainpoolP512r1]

def oid : Curve → List UInt8
  | ed25519 => [0x2B, 0x06, 0x01, 0x04, 0x01, 0xDA, 0x47, 0x0F, 0x01]
  | x25519 => [0x2B, 0x06, 0x01, 0x04, 0x01, 0x97, 0x55, 0x01, 0x05, 0x01]
  | nistP256 => [0x2A, 0x86, 0x48, 0xCE, 0x3D, 0x03, 0x01, 0x07]
  | nistP384 => [0x2B, 0x81, 0x04, 0x00, 0x22]
  | nistP521 => [0x2B, 0x81, 0x04, 0x00, 0x23]
  | secp256k1 => [0x2B, 0x81, 0x04, 0x00, 0x0A]
  | brainpoolP256r1 => [0x2B, 0x24, 0x03, 0x03, 0x02, 0x08, 0x01, 0x01, 0x07]
  | brainpoolP384r1 => [0x2B, 0x24, 0x03, 0x03, 0x02, 0x08, 0x01, 0x01, 0x0B]
  | brainpoolP512r1 => [0x2B, 0x24, 0x03, 0x03, 0x02, 0x08, 0x01, 0x01, 0x0D]

def fromOid (oid : List UInt8) : Option Curve := ALL.find? fun c => c.oid == oid

/-- Field size in bits. -/
def bits : Curve → Nat
  | ed25519 | x25519 => 255
  | nistP256 | secp256k1 | brainpoolP256r1 => 256
  | nistP384 | brainpoolP384r1 => 384
  | nistP521 => 521
  | brainpoolP512r1 => 512

/-- Bytes of a private scalar. -/
def fieldLen : Curve → Nat
  | ed25519 | x25519 | nistP256 | secp256k1 | brainpoolP256r1 => 32
  | nistP384 | brainpoolP384r1 => 48
  | brainpoolP512r1 => 64
  | nistP521 => 66

def is25519 : Curve → Bool
  | ed25519 | x25519 => true
  | _ => false

theorem oid_injective {a b : Curve} (h : a.oid = b.oid) : a = b := by
  cases a <;> cases b <;> first | rfl | cases h

theorem fromOid_oid (c : Curve) : fromOid c.oid = some c := by
  cases c <;> rfl

theorem length_oid_lt (c : Curve) : c.oid.length < 256 := by
  cases c <;> exact Nat.le_of_ble_eq_true rfl

end Curve

inductive EccKind where
  | ecdh
  | ecdsa
  | edDsa
deriving DecidableEq, Repr

namespace EccKind

def id : EccKind → UInt8
  | ecdh => 0x12
  | ecdsa => 0x13
  | edDsa => 0x16

def fromId (id : UInt8) : Option EccKind :=
  if id = 0x12 then some ecdh
  else if id = 0x13 then some ecdsa
  else if id = 0x16 then some edDsa
  else none

theorem fromId_id (kind : EccKind) : fromId kind.id = some kind := by
  cases kind <;> rfl

theorem id_injective {a b : EccKind} (h : a.id = b.id) : a = b := by
  have hkind := congrArg fromId h
  rwa [fromId_id, fromId_id, Option.some.injEq] at hkind

end EccKind

/-- What a card takes of an RSA key. -/
inductive RsaImportFormat where
  | standard
  | standardWithModulus
  | crt
  | crtWithModulus
deriving DecidableEq, Repr

namespace RsaImportFormat

def includesCrt : RsaImportFormat → Bool
  | crt | crtWithModulus => true
  | _ => false

def includesModulus : RsaImportFormat → Bool
  | standardWithModulus | crtWithModulus => true
  | _ => false

end RsaImportFormat

structure RsaAttributes where
  nBits : UInt16
  eBits : UInt16
  format : RsaImportFormat
deriving DecidableEq, Repr

/-- A slot's algorithm attributes. -/
inductive AlgorithmAttributes where
  | rsa (attributes : RsaAttributes)
  | ecc (kind : EccKind) (curve : Curve) (importWithPublicKey : Bool)
deriving DecidableEq, Repr

/-- A public key as a card tells it. -/
inductive PublicKey where
  | rsa (modulus exponent : List UInt8)
  | ecc (point : List UInt8)
deriving DecidableEq, Repr

inductive ParseError where
  | truncated
  | badTag
  | unexpectedLength
  | missingTag (tag : UInt16)
  | unsupportedAlgorithm
deriving DecidableEq, Repr

/-! ### Fingerprints

What is hashed for a version 4 fingerprint, from the key as the card tells it. -/

/-- `u8::leading_zeros`. -/
def leadingZeros (b : UInt8) : Nat := if b = 0 then 8 else 7 - b.toNat.log2

/-- A multiprecision integer: its length in bits, then its bytes. -/
def mpi (bytes : List UInt8) : List UInt8 :=
  match Bytes.strip bytes with
  | [] => [0x00, 0x00]
  | top :: rest =>
      let bitLen := 8 - leadingZeros top + 8 * rest.length
      (bitLen >>> 8).toUInt8 :: (bitLen &&& 0xFF).toUInt8 :: top :: rest

/-- The packet's header before its body. -/
def v4FingerprintEnvelope (body : List UInt8) : List UInt8 :=
  let len := body.length.toUInt16
  0x99 :: (len >>> 8).toUInt8 :: (len &&& 0xFF).toUInt8 :: body

/-- What `rsa_v4_fingerprint` hashes. -/
def rsaV4Hashed (modulus exponent : List UInt8) (created : UInt32) : List UInt8 :=
  v4FingerprintEnvelope
    ([0x04] ++ Bytes.be 4 created.toNat ++ [0x01] ++ mpi modulus ++ mpi exponent)

/-- The hash and the cipher of a key agreement, by the size of the curve. -/
def ecdhKdfParams (curve : Curve) : List UInt8 :=
  if curve.bits ≤ 256 then [0x03, 0x01, 0x08, 0x07]
  else if curve.bits ≤ 384 then [0x03, 0x01, 0x09, 0x08]
  else [0x03, 0x01, 0x0A, 0x09]

def packetPoint (curve : Curve) (point : List UInt8) : List UInt8 :=
  if curve.is25519 && decide (point.length = 32) then 0x40 :: point else point

/-- What `ecc_v4_fingerprint` hashes. -/
def eccV4Hashed (kind : EccKind) (curve : Curve) (point : List UInt8) (created : UInt32) :
    List UInt8 :=
  v4FingerprintEnvelope
    ([0x04] ++ Bytes.be 4 created.toNat ++ [kind.id] ++ [curve.oid.length.toUInt8] ++ curve.oid ++
      mpi (packetPoint curve point) ++ if kind = .ecdh then ecdhKdfParams curve else [])

/-- What is hashed of a key under a slot's attributes. -/
def v4Hashed (key : PublicKey) (attrs : AlgorithmAttributes) (created : UInt32) :
    Except ParseError (List UInt8) :=
  match key, attrs with
  | .rsa modulus exponent, .rsa _ => .ok (rsaV4Hashed modulus exponent created)
  | .ecc point, .ecc kind curve _ => .ok (eccV4Hashed kind curve point created)
  | _, _ => .error .unsupportedAlgorithm

def v4Fingerprint (sha1 : List UInt8 → List UInt8) (key : PublicKey)
    (attrs : AlgorithmAttributes) (created : UInt32) : Except ParseError (List UInt8) :=
  (v4Hashed key attrs created).map sha1

end Keyroost.OpenPgp
