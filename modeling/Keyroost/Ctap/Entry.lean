import Keyroost.Library.Bytes
import Keyroost.Library.Utf8

/-!
# Entries of the large-blob array

An entry's fields, keyroost's own plaintext notes, and the cryptography around them, from
`keyroost-ctap/src/large_blobs.rs` and `keyroost-ctap/src/pin.rs`.

The hash, the MAC, the cipher and the inflater come from other crates. They are the fields of
`Crypto`, with the one law that the types of the source promise, the lengths of what they return.
What they are further relied on for is stated where it is used: by `Crypto.Seals` and
`Crypto.Opens` for the encryption of names.
-/

namespace Keyroost.Ctap

/-- What the code takes from its cryptography and compression crates. Only the lengths of the
digests are assumed of every instance; a result that needs that what was sealed opens says so. -/
structure Crypto where
  sha256 : List UInt8 → List UInt8
  hmacSha256 : List UInt8 → List UInt8 → List UInt8
  /-- Key, nonce, plaintext and associated data. -/
  aesGcmEncrypt : List UInt8 → List UInt8 → List UInt8 → List UInt8 → List UInt8
  /-- Key, nonce, ciphertext and associated data; nothing if the tag does not verify. -/
  aesGcmDecrypt : List UInt8 → List UInt8 → List UInt8 → List UInt8 → Option (List UInt8)
  /-- Raw inflate of at most so many bytes. -/
  inflate : List UInt8 → Nat → Option (List UInt8)
  length_sha256 : ∀ data, (sha256 data).length = 32
  length_hmacSha256 : ∀ key data, (hmacSha256 key data).length = 32

theorem length_zeroMac (_ _ : List UInt8) : (List.replicate 32 (0 : UInt8)).length = 32 :=
  List.length_replicate

namespace Crypto

def left16Sha256 (c : Crypto) (input : List UInt8) : List UInt8 := (c.sha256 input).take 16

theorem length_left16Sha256 (c : Crypto) (input : List UInt8) :
    (c.left16Sha256 input).length = 16 := by
  rw [left16Sha256, List.length_take, c.length_sha256]
  rfl

/-- The associated data of an entry: `b"blob"` and the original size. -/
def blobAad (origSize : UInt64) : List UInt8 :=
  "blob".toList.map Char.toUInt8 ++ Bytes.le 8 origSize.toNat

def gcmDecrypt (c : Crypto) (key nonce ciphertext : List UInt8) (origSize : UInt64) :
    Option (List UInt8) :=
  if nonce.length ≠ 12 then none else c.aesGcmDecrypt key nonce ciphertext (blobAad origSize)

def gcmEncrypt (c : Crypto) (key nonce plain : List UInt8) (origSize : UInt64) : List UInt8 :=
  c.aesGcmEncrypt key nonce plain (blobAad origSize)

/-- Host-side ceiling on the inflated plaintext of one entry. -/
def MAX_BLOB_PLAINTEXT : Nat := 1024 * 1024

/-- Inflate to exactly `origSize` bytes. -/
def inflateRaw (c : Crypto) (compressed : List UInt8) (origSize : UInt64) :
    Option (List UInt8) :=
  if MAX_BLOB_PLAINTEXT < origSize.toNat then none
  else
    (c.inflate compressed origSize.toNat).bind fun out =>
      if out.length = origSize.toNat then some out else none

end Crypto

/-- One decoded entry of the array. `original` is the CBOR it was read as; an entry
built here has none. -/
structure LargeBlobEntry where
  ciphertext : List UInt8
  nonce : List UInt8
  origSize : UInt64
  original : Option (List UInt8)
deriving DecidableEq, Repr

/-- `b"KR1\0"`. -/
def KR_NOTE_MAGIC : List UInt8 := [0x4b, 0x52, 0x31, 0x00]

/-- Twelve bytes. -/
abbrev Nonce := { bytes : List UInt8 // bytes.length = 12 }

namespace LargeBlobEntry

/-- An entry that stores `text` as a keyroost note. -/
def fromText (text : RustStr) : LargeBlobEntry where
  ciphertext := KR_NOTE_MAGIC ++ text.asBytes
  nonce := List.replicate 12 0
  origSize := text.len.toUInt64
  original := none

/-- An entry built from its fields. -/
def built (ciphertext nonce : List UInt8) (origSize : UInt64) : LargeBlobEntry where
  ciphertext := ciphertext
  nonce := nonce
  origSize := origSize
  original := none

def isKrNote (e : LargeBlobEntry) : Bool := KR_NOTE_MAGIC.isPrefixOf e.ciphertext

end LargeBlobEntry

end Keyroost.Ctap
