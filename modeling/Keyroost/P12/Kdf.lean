import Keyroost.Library.RustStr

/-!
# Passwords and primitives of PKCS#12

The types of `keyroost-p12/src/kdf.rs` and `keyroost-p12/src/pbe.rs` that the other modules share:
the hashes and ciphers that a file may name, and a password as the legacy schemes take it, in
UTF-16 with two zero bytes at the end.

The keyed hashes, the derivations and the ciphers are the fields of `Primitives`, and nothing is
assumed of them: what is proved of the reader of files holds whatever they compute.
-/

namespace Keyroost.P12

inductive Hash where
  | sha1
  | sha256
deriving DecidableEq, Repr

def Hash.outputLen : Hash → Nat
  | .sha1 => 20
  | .sha256 => 32

/-- One character in UTF-16: one unit, or a surrogate pair. -/
def encodeUtf16 (c : Char) : List UInt16 :=
  if c.toNat < 0x10000 then [c.toNat.toUInt16]
  else [0xD800 + ((c.toNat - 0x10000) / 0x400).toUInt16,
    0xDC00 + ((c.toNat - 0x10000) % 0x400).toUInt16]

def unitBytes (unit : UInt16) : List UInt8 := [(unit >>> 8).toUInt8, unit.toUInt8]

/-- The BMPString of a password. No password is empty, an empty one is its terminator. -/
def bmpPassword (pw : Option RustStr) : List UInt8 :=
  match pw with
  | none => []
  | some pw => (pw.flatMap encodeUtf16).flatMap unitBytes ++ [0, 0]

inductive Cipher where
  | tripleDes
  | rc2 (bits : Nat)
  | aes128
  | aes192
  | aes256
deriving DecidableEq, Repr

def Cipher.blockSize : Cipher → Nat
  | .tripleDes | .rc2 _ => 8
  | .aes128 | .aes192 | .aes256 => 16

/-- RC2 takes a key of any length. -/
def Cipher.keyLen : Cipher → Option Nat
  | .tripleDes => some 24
  | .rc2 _ => none
  | .aes128 => some 16
  | .aes192 => some 24
  | .aes256 => some 32

/-- The given functions: keyed hashes, key derivation, and CBC decryption with its padding
taken off, `none` where the padding is wrong. -/
structure Primitives where
  hmac : Hash → List UInt8 → List UInt8 → List UInt8
  pkcs12Kdf : Hash → List UInt8 → List UInt8 → UInt8 → Nat → Nat → List UInt8
  pbkdf2 : Hash → List UInt8 → List UInt8 → Nat → Nat → List UInt8
  decryptPadded : Cipher → List UInt8 → List UInt8 → List UInt8 → Option (List UInt8)

end Keyroost.P12
