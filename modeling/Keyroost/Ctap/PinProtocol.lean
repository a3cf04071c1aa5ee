import Keyroost.Ctap.KeyMaps
import Keyroost.Ctap.LargeBlobCommands
import Keyroost.Library.BlockModes
import Keyroost.Library.Padding

/-!
# PIN protocols

The two PIN/UV auth protocols of `keyroost-ctap/src/pin.rs`: how both sides come to a secret, how a
PIN or a token is encrypted under it, and how a message is authenticated.

The curve and the block cipher come from other crates and are fields of `PinCrypto`, with the laws
of a key agreement and of a permutation of blocks; the chaining is the source's own and is that of
`BlockModes`. A `PinProtocol` carries its keys with their lengths, so neither protocol can be used
with a key of the wrong size. `PinProtocol.decrypt_encrypt` and `sharedSecret_shared` are what
the operations rely on.
-/

namespace Keyroost.Ctap

def PIN_PROTOCOL_V2 : UInt32 := 2

/-- An initialization vector: one block. -/
abbrev Iv : Type := {b : List UInt8 // b.length = 16}

theorem length_zeroBlock : (List.replicate 16 (0 : UInt8)).length = 16 := List.length_replicate

/-- `[0u8; 16]`. -/
def Iv.zero : Iv := ⟨List.replicate 16 0, length_zeroBlock⟩

/-- What the PIN protocols take from cryptography crates: P-256 with keys of the type `Key`, and
AES-256 on one block. Both sides of a key agreement come to the same coordinate, and a block that
was encrypted is decrypted to what it was. -/
structure PinCrypto (Key : Type) extends Crypto where
  publicXy : Key → Bytes32 × Bytes32
  /-- The x coordinate agreed on, nothing for a point that is not on the curve. -/
  rawEcdh : Key → Bytes32 × Bytes32 → Option Bytes32
  aesEncrypt : Bytes32 → List UInt8 → List UInt8
  aesDecrypt : Bytes32 → List UInt8 → List UInt8
  ecdh_shared : ∀ own peer, ∃ z, rawEcdh own (publicXy peer) = some z ∧
    rawEcdh peer (publicXy own) = some z
  length_aesEncrypt : ∀ key block, block.length = 16 → (aesEncrypt key block).length = 16
  aesDecrypt_aesEncrypt : ∀ key block, block.length = 16 →
    aesDecrypt key (aesEncrypt key block) = block

inductive PinError where
  | invalidPublicKey
  | invalidCiphertextLength
  | aesError
deriving DecidableEq, Repr

/-- A protocol this host implements. -/
inductive SelectedPinProtocol where
  | v1
  | v2
deriving DecidableEq, Repr

def SelectedPinProtocol.version : SelectedPinProtocol → UInt32
  | v1 => PIN_PROTOCOL_V1
  | v2 => PIN_PROTOCOL_V2

/-- A protocol with its shared secret. Version 1 uses one secret for everything, version 2 one key
for the tags and another for the cipher. -/
inductive PinProtocol where
  | v1 (secret : Bytes32)
  | v2 (hmacKey aesKey : Bytes32)
deriving DecidableEq, Repr

section

variable {Key : Type} (c : PinCrypto Key)

namespace PinCrypto

def hmacSha256L32 (key data : List UInt8) : Bytes32 :=
  ⟨c.hmacSha256 key data, c.length_hmacSha256 key data⟩

/-- HKDF with a salt of zeros, extracted and expanded to one block. -/
def hkdfSha256L32 (ikm info : List UInt8) : Bytes32 :=
  let prk := c.hmacSha256L32 (List.replicate 32 0) ikm
  c.hmacSha256L32 prk.val (info ++ [0x01])

def sharedSecretV1 (own : Key) (peer : Bytes32 × Bytes32) : Except PinError PinProtocol :=
  match c.rawEcdh own peer with
  | none => .error .invalidPublicKey
  | some z => .ok (.v1 ⟨c.sha256 z.val, c.length_sha256 z.val⟩)

def sharedSecretV2 (own : Key) (peer : Bytes32 × Bytes32) : Except PinError PinProtocol :=
  match c.rawEcdh own peer with
  | none => .error .invalidPublicKey
  | some z =>
      .ok (.v2 (c.hkdfSha256L32 z.val ("CTAP2 HMAC key".toList.map Char.toUInt8))
        (c.hkdfSha256L32 z.val ("CTAP2 AES key".toList.map Char.toUInt8)))

def sharedSecret : SelectedPinProtocol → Key → Bytes32 × Bytes32 → Except PinError PinProtocol
  | .v1 => c.sharedSecretV1
  | .v2 => c.sharedSecretV2

/-- Whole blocks: the source panics on others. -/
def aes256CbcEncrypt (key : Bytes32) (iv plaintext : List UInt8) : List UInt8 :=
  Cbc.encryptFrom (c.aesEncrypt key) 16 (plaintext.length / 16) iv plaintext

def aes256CbcDecrypt (key : Bytes32) (iv ciphertext : List UInt8) :
    Except PinError (List UInt8) :=
  if ciphertext = [] ∨ ciphertext.length % 16 ≠ 0 then .error .invalidCiphertextLength
  else .ok (Cbc.decryptFrom (c.aesDecrypt key) 16 (ciphertext.length / 16) iv ciphertext)

end PinCrypto

namespace PinProtocol

/-- The first protocol has an IV of zeros; the second puts its random one in front. -/
def encrypt (iv : Iv) (plaintext : List UInt8) : PinProtocol → List UInt8
  | v1 secret => c.aes256CbcEncrypt secret Iv.zero.val plaintext
  | v2 _ aesKey => iv.val ++ c.aes256CbcEncrypt aesKey iv.val plaintext

def decrypt (ciphertext : List UInt8) : PinProtocol → Except PinError (List UInt8)
  | v1 secret => c.aes256CbcDecrypt secret Iv.zero.val ciphertext
  | v2 _ aesKey =>
      if ciphertext.length < 16 then .error .invalidCiphertextLength
      else c.aes256CbcDecrypt aesKey (ciphertext.take 16) (ciphertext.drop 16)

/-- The first protocol keeps 16 bytes of the tag. -/
def authenticate (data : List UInt8) : PinProtocol → List UInt8
  | v1 secret => (c.hmacSha256 secret.val data).take 16
  | v2 hmacKey _ => c.hmacSha256 hmacKey.val data

end PinProtocol

/-- A PIN and zeros up to 64 bytes. The source panics at 64 bytes and more. -/
def padPinTo64 (pin : RustStr) : List UInt8 :=
  pin.asBytes ++ List.replicate (64 - pin.len) 0

/-! ### What was encrypted comes back -/

variable {c}

theorem length_aes256CbcEncrypt (key : Bytes32) {iv plaintext : List UInt8} (hiv : iv.length = 16)
    (h : 16 ∣ plaintext.length) : (c.aes256CbcEncrypt key iv plaintext).length =
      plaintext.length := by
  rw [PinCrypto.aes256CbcEncrypt, Cbc.length_encryptFrom (c.length_aesEncrypt key) hiv]
  exact (Nat.mul_div_cancel' h).symm

theorem aes256CbcDecrypt_encrypt (key : Bytes32) {iv plaintext : List UInt8}
    (hiv : iv.length = 16) (hpos : plaintext ≠ []) (h : 16 ∣ plaintext.length) :
    c.aes256CbcDecrypt key iv (c.aes256CbcEncrypt key iv plaintext) = .ok plaintext := by
  have hlen := length_aes256CbcEncrypt (c := c) key hiv h
  have hne : c.aes256CbcEncrypt key iv plaintext ≠ [] := by
    intro hnil
    rw [hnil] at hlen
    exact hpos (List.eq_nil_of_length_eq_zero hlen.symm)
  have hok : ¬(c.aes256CbcEncrypt key iv plaintext = [] ∨
      (c.aes256CbcEncrypt key iv plaintext).length % 16 ≠ 0) := by
    rintro (hnil | hrest)
    · exact hne hnil
    · rw [hlen] at hrest
      exact hrest (Nat.mod_eq_zero_of_dvd h)
  rw [PinCrypto.aes256CbcDecrypt, if_neg hok, hlen, PinCrypto.aes256CbcEncrypt,
    Cbc.decryptFrom_encryptFrom (c.length_aesEncrypt key) (c.aesDecrypt_aesEncrypt key) hiv
      (Nat.mul_div_cancel' h).symm]

/-- **Each protocol decrypts what it encrypted**, whatever the IV. -/
theorem PinProtocol.decrypt_encrypt (proto : PinProtocol) (iv : Iv) {plaintext : List UInt8}
    (hpos : plaintext ≠ []) (h : 16 ∣ plaintext.length) :
    proto.decrypt c (proto.encrypt c iv plaintext) = .ok plaintext := by
  cases proto with
  | v1 secret => exact aes256CbcDecrypt_encrypt secret Iv.zero.property hpos h
  | v2 hmacKey aesKey =>
      have hlong : ¬(iv.val ++ c.aes256CbcEncrypt aesKey iv.val plaintext).length < 16 := by
        rw [List.length_append, iv.property]
        omega
      rw [encrypt, decrypt, if_neg hlong, List.take_left' iv.property,
        List.drop_left' iv.property]
      exact aes256CbcDecrypt_encrypt aesKey iv.property hpos h

theorem PinProtocol.length_encrypt_le (proto : PinProtocol) (iv : Iv) {plaintext : List UInt8}
    (h : 16 ∣ plaintext.length) :
    (proto.encrypt c iv plaintext).length ≤ 16 + plaintext.length := by
  cases proto with
  | v1 secret =>
      rw [encrypt, length_aes256CbcEncrypt secret Iv.zero.property h]
      exact Nat.le_add_left _ _
  | v2 hmacKey aesKey =>
      rw [encrypt, List.length_append, iv.property, length_aes256CbcEncrypt aesKey iv.property h]

theorem PinProtocol.length_authenticate_le (proto : PinProtocol) (data : List UInt8) :
    (proto.authenticate c data).length ≤ 32 := by
  cases proto with
  | v1 secret =>
      rw [authenticate, List.length_take]
      exact Nat.le_trans (Nat.min_le_left _ _) (by decide)
  | v2 hmacKey aesKey => exact Nat.le_of_eq (c.length_hmacSha256 _ _)

/-- Both sides of a key agreement come to the same secret. -/
theorem sharedSecret_shared (chosen : SelectedPinProtocol) (own peer : Key) :
    ∃ proto, c.sharedSecret chosen own (c.publicXy peer) = .ok proto ∧
      c.sharedSecret chosen peer (c.publicXy own) = .ok proto := by
  obtain ⟨z, hown, hpeer⟩ := c.ecdh_shared own peer
  cases chosen with
  | v1 =>
      rw [PinCrypto.sharedSecret, PinCrypto.sharedSecretV1, PinCrypto.sharedSecretV1, hown, hpeer]
      exact ⟨_, rfl, rfl⟩
  | v2 =>
      rw [PinCrypto.sharedSecret, PinCrypto.sharedSecretV2, PinCrypto.sharedSecretV2, hown, hpeer]
      exact ⟨_, rfl, rfl⟩

theorem length_padPinTo64 {pin : RustStr} (h : pin.len ≤ 64) : (padPinTo64 pin).length = 64 := by
  rw [padPinTo64, List.length_append, List.length_replicate, ← RustStr.len]
  omega

/-- What is left of a padded PIN without its trailing zeros. -/
theorem strip_padPinTo64 (pin : RustStr) :
    Padding.strip 0 (padPinTo64 pin) = Padding.strip 0 pin.asBytes :=
  Padding.strip_append_zeros _ _

end

end Keyroost.Ctap
