import Keyroost.Library.LeadingZeros
import Keyroost.Library.Reader
import Keyroost.OpenPgp.Types

/-!
# Packet fields of a key file

Multiprecision integers written into a file and read from one
(`keyroost-pgpkey/src/packet.rs`), and the keys they make up (`keyroost-pgpkey/src/keys.rs`).

An integer is written without zeros in front and after its length in bits, a number of 16 bits;
`MpiFits` is the condition that it has room, and `reads_pushMpi` the round trip under it.
The section on keys has the public part of a key file and its fingerprint, as far as `Fingerprints`
compares them with a card's.
-/

namespace Keyroost.PgpKey

open OpenPgp

inductive Error where
  | truncated
  | malformed (what : String)
  | unsupported (what : String)
  | badChecksum
  | wrongPassphrase
  | needsPassphrase
  | cardStubs
  | noSecretPart
  | crypto (what : String)
deriving DecidableEq, Repr

/-! ### Writing -/

def mpiBits : List UInt8 → Nat
  | [] => 0
  | first :: rest => rest.length * 8 + (8 - leadingZeros first)

def pushMpi (bytes : List UInt8) : List UInt8 :=
  let v := Bytes.strip bytes
  Bytes.be 2 (mpiBits v % 2 ^ 16) ++ v

/-! ### Reading -/

abbrev Read (α : Type) : Type := Reader Error α

def take (n : Nat) : Read (List UInt8) := Reader.bytes .truncated n

def readU8 : Read UInt8 := fun data =>
  match data with
  | [] => .error .truncated
  | b :: rest => .ok (b, rest)

def readU16 : Read Nat := Reader.andThen (take 2) fun b => Reader.done (Bytes.ofBe b)

def readU32 : Read UInt32 := Reader.andThen (take 4) fun b =>
  Reader.done (Bytes.ofBe b).toUInt32

/-- An integer's bytes, without their count. -/
def readMpi : Read (List UInt8) := Reader.andThen readU16 fun bits => take ((bits + 7) / 8)

/-- Everything not yet read. -/
def readRest : Read (List UInt8) := fun data => .ok (data, [])

/-! ### Integers that were written -/

/-- An integer of a length that the count can say. -/
def MpiFits (bytes : List UInt8) : Prop := mpiBits (Bytes.strip bytes) < 2 ^ 16

theorem mpiBits_div (v : List UInt8) (hv : ∀ b rest, v = b :: rest → b ≠ 0) :
    (mpiBits v + 7) / 8 = v.length := by
  cases v with
  | nil => rfl
  | cons b rest =>
      have hb := hv b rest rfl
      have hlog : b.toNat.log2 < 8 := by
        refine (Nat.log2_lt (fun hzero => hb (UInt8.toNat_inj.mp hzero))).mpr ?_
        exact b.toNat_lt
      rw [mpiBits, leadingZeros, if_neg hb, List.length_cons]
      omega

theorem reads_readU16 {n : Nat} (hn : n < 2 ^ 16) : Reader.Reads readU16 (Bytes.be 2 n) n := by
  have hbytes := Reader.reads_bytes Error.truncated (Bytes.be 2 n)
  rw [Bytes.length_be] at hbytes
  have hread := hbytes.map Bytes.ofBe
  rwa [Bytes.ofBe_be hn] at hread

theorem reads_pushMpi {bytes : List UInt8} (h : MpiFits bytes) :
    Reader.Reads readMpi (pushMpi bytes) (Bytes.strip bytes) := by
  have hcount : Reader.Reads readU16 (Bytes.be 2 (mpiBits (Bytes.strip bytes) % 2 ^ 16))
      (mpiBits (Bytes.strip bytes)) := by
    rw [Nat.mod_eq_of_lt h]
    exact reads_readU16 h
  refine hcount.andThen ?_
  rw [mpiBits_div _ fun b rest hstrip => Bytes.strip_head hstrip]
  exact Reader.reads_bytes _ _

/-- Both crates write an integer the same way. -/
theorem mpi_eq_pushMpi (bytes : List UInt8) : mpi bytes = pushMpi bytes := by
  rw [mpi, pushMpi]
  cases hstrip : Bytes.strip bytes with
  | nil => rfl
  | cons top rest =>
      show _ = Bytes.be 2 (mpiBits (top :: rest) % 2 ^ 16) ++ top :: rest
      rw [Bytes.be_two, mpiBits, Nat.add_comm, Nat.mul_comm]
      rfl

/-! ### Keys

Private keys with their public parts, and the packet bodies they are written as. -/

def ALGO_RSA : UInt8 := 1
def ALGO_ECDH : UInt8 := 18
def ALGO_ECDSA : UInt8 := 19
def ALGO_EDDSA : UInt8 := 22

/-- A 32-byte array. -/
abbrev Bytes32 : Type := { bytes : List UInt8 // bytes.length = 32 }

/-- The hash and the cipher that a key agreement's packet names. -/
structure Kdf where
  hash : UInt8
  cipher : UInt8
deriving DecidableEq, Repr

def Kdf.bytes (kdf : Kdf) : List UInt8 := [0x03, 0x01, kdf.hash, kdf.cipher]

/-- The material of one key. A key agreement on a 25519 curve has the bare 32-byte point. -/
inductive Material where
  | rsa (n e d p q uPgp uCard dp dq : List UInt8)
  | ecdsa (curve : Curve) (d point : List UInt8)
  | ecdh (curve : Curve) (d point : List UInt8) (kdf : Kdf)
  | edDsa (seed point : Bytes32)
deriving DecidableEq

structure KeyPart where
  material : Material
  created : UInt32
deriving DecidableEq

def Material.algoId : Material → UInt8
  | .rsa .. => ALGO_RSA
  | .ecdh .. => ALGO_ECDH
  | .ecdsa .. => ALGO_ECDSA
  | .edDsa .. => ALGO_EDDSA

/-- A point as a packet carries it. -/
def filePoint (curve : Curve) (point : List UInt8) : List UInt8 :=
  if curve.is25519 then 0x40 :: point else point

def eccBody (curve : Curve) (point : List UInt8) : List UInt8 :=
  [curve.oid.length.toUInt8] ++ curve.oid ++ pushMpi (filePoint curve point)

def Material.publicFields : Material → List UInt8
  | .rsa n e .. => pushMpi n ++ pushMpi e
  | .ecdsa curve _ point => eccBody curve point
  | .ecdh curve _ point kdf => eccBody curve point ++ kdf.bytes
  | .edDsa _ point => eccBody .ed25519 point.val

def KeyPart.publicBody (k : KeyPart) : List UInt8 :=
  [0x04] ++ Bytes.be 4 k.created.toNat ++ [k.material.algoId] ++ k.material.publicFields

/-- What `fingerprint` hashes. -/
def KeyPart.hashed (k : KeyPart) : List UInt8 :=
  [0x99] ++ Bytes.be 2 (k.publicBody.length % 2 ^ 16) ++ k.publicBody

def KeyPart.fingerprint (sha1 : List UInt8 → List UInt8) (k : KeyPart) : List UInt8 :=
  sha1 k.hashed

end Keyroost.PgpKey
