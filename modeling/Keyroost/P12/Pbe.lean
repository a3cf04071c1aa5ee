import Keyroost.Library.Metered
import Keyroost.P12.Ber
import Keyroost.P12.Kdf

/-!
# Password-based decryption

The legacy PKCS#12 schemes and PBES2, from `keyroost-p12/src/pbe.rs`. Every derivation is charged
before it runs.

Decryption is a program over the iterations that are left (`Working`): `spend` takes off what a
derivation is about to cost and refuses the file when the budget does not have it, so a file cannot
name a count that is too high to be carried out. The parameters of each scheme are read with the
checks of the source and its errors, in their order.
-/

namespace Keyroost.P12

def MAX_ITERATIONS : Nat := 10000000

def WORK_BUDGET : Nat := 20000000

def TOO_MUCH_WORK : String := "too much password-hashing work"

/-- A computation over what is left of the work budget. -/
abbrev Working (α : Type) : Type := Metered Nat P12Error α

def spend (iterations : Nat) : Working Unit := fun left =>
  if left < iterations then (.error (.unsupported TOO_MUCH_WORK), left)
  else (.ok (), left - iterations)

def PBE_3DES : List UInt8 := [0x2A, 0x86, 0x48, 0x86, 0xF7, 0x0D, 0x01, 0x0C, 0x01, 0x03]
def PBE_RC2_128 : List UInt8 := [0x2A, 0x86, 0x48, 0x86, 0xF7, 0x0D, 0x01, 0x0C, 0x01, 0x05]
def PBE_RC2_40 : List UInt8 := [0x2A, 0x86, 0x48, 0x86, 0xF7, 0x0D, 0x01, 0x0C, 0x01, 0x06]
def PBES2 : List UInt8 := [0x2A, 0x86, 0x48, 0x86, 0xF7, 0x0D, 0x01, 0x05, 0x0D]
def PBKDF2 : List UInt8 := [0x2A, 0x86, 0x48, 0x86, 0xF7, 0x0D, 0x01, 0x05, 0x0C]
def HMAC_SHA1 : List UInt8 := [0x2A, 0x86, 0x48, 0x86, 0xF7, 0x0D, 0x02, 0x07]
def HMAC_SHA256 : List UInt8 := [0x2A, 0x86, 0x48, 0x86, 0xF7, 0x0D, 0x02, 0x09]
def AES128_CBC : List UInt8 := [0x60, 0x86, 0x48, 0x01, 0x65, 0x03, 0x04, 0x01, 0x02]
def AES192_CBC : List UInt8 := [0x60, 0x86, 0x48, 0x01, 0x65, 0x03, 0x04, 0x01, 0x16]
def AES256_CBC : List UInt8 := [0x60, 0x86, 0x48, 0x01, 0x65, 0x03, 0x04, 0x01, 0x2A]

def TAG_INTEGER : UInt8 := 0x02
def TAG_OCTET_STRING : UInt8 := 0x04
def TAG_OCTET_STRING_CONSTRUCTED : UInt8 := 0x24
def TAG_OID : UInt8 := 0x06
def TAG_SEQUENCE : UInt8 := 0x30

def isOctets (t : Tlv) : Bool :=
  t.tag == TAG_OCTET_STRING || t.tag == TAG_OCTET_STRING_CONSTRUCTED

/-- An AlgorithmIdentifier. -/
structure AlgId where
  oid : List UInt8
  params : Option Tlv
deriving DecidableEq, Repr

def algId (kids : List Tlv) : Except P12Error AlgId :=
  match kids with
  | [] => bad "empty algorithm identifier"
  | oid :: rest =>
      if oid.tag ≠ TAG_OID then bad "algorithm identifier does not start with an OID"
      else if 1 < rest.length then bad "algorithm identifier has extra fields"
      else .ok ⟨oid.value, rest.head?⟩

/-- The value of an INTEGER, no more than `2^32 - 1`. -/
def clampU32 : Nat → List UInt8 → Nat
  | n, [] => n
  | n, b :: rest =>
      let n := n * 256 + b.toNat
      if 0xFFFFFFFF < n then 0xFFFFFFFF else clampU32 n rest

def smallUint (t : Tlv) : Except P12Error Nat :=
  match t.tag == TAG_INTEGER, t.value with
  | false, _ | _, [] => bad "expected an INTEGER"
  | true, b :: rest =>
      if b &&& 0x80 ≠ 0 then bad "negative INTEGER" else .ok (clampU32 0 (b :: rest))

def checkIterations (n : Nat) : Except P12Error Nat :=
  if n = 0 then bad "zero iteration count"
  else if MAX_ITERATIONS < n then .error (.unsupported "iteration count above 10,000,000")
  else .ok n

def misfit : Cipher → String
  | .rc2 _ => "bad IV length"
  | _ => "bad key or IV length"

/-- CBC decryption. Wrong padding reads as a wrong password. -/
def cbcDecrypt (prims : Primitives) (cipher : Cipher) (key iv ciphertext : List UInt8) :
    Except P12Error (List UInt8) :=
  if cipher.keyLen.any (· ≠ key.length) ∨ iv.length ≠ cipher.blockSize then bad (misfit cipher)
  else if ciphertext = [] ∨ ciphertext.length % cipher.blockSize ≠ 0 then
    bad "ciphertext is not a whole number of blocks"
  else (prims.decryptPadded cipher key iv ciphertext).elim (.error .wrongPassword) .ok

/-! ### The legacy schemes -/

inductive Legacy where
  | tripleDes
  | rc2 (bits : Nat)
deriving DecidableEq, Repr

def Legacy.keyLen : Legacy → Nat
  | .tripleDes => 24
  | .rc2 bits => bits / 8

def Legacy.cipher : Legacy → Cipher
  | .tripleDes => .tripleDes
  | .rc2 bits => .rc2 bits

def legacyParams (params : Option Tlv) : Except P12Error (List UInt8 × Nat) :=
  match params with
  | none => bad "missing PBE parameters"
  | some params =>
      if params.tag ≠ TAG_SEQUENCE then bad "PBE parameters are not a SEQUENCE"
      else do
        match ← children params.value with
        | [salt, iter] =>
            if isOctets salt then return (salt.value, ← smallUint iter >>= checkIterations)
            else bad "PBE parameters are not (salt, iterations)"
        | _ => bad "PBE parameters are not (salt, iterations)"

def decryptLegacy (prims : Primitives) (scheme : Legacy) (params : Option Tlv)
    (ciphertext : List UInt8) (password : Option RustStr) : Working (List UInt8) := do
  let (salt, iterations) ← legacyParams params
  -- One derivation for the key and one for the IV.
  spend iterations
  spend iterations
  let pw := bmpPassword password
  let key := prims.pkcs12Kdf .sha1 pw salt 1 iterations scheme.keyLen
  let iv := prims.pkcs12Kdf .sha1 pw salt 2 iterations 8
  cbcDecrypt prims scheme.cipher key iv ciphertext

/-! ### PBES2 -/

/-- What PBES2 parameters ask for. -/
structure Pbes2 where
  cipher : Cipher
  keyLen : Nat
  iv : List UInt8
  salt : List UInt8
  iterations : Nat
  prf : Hash
deriving DecidableEq, Repr

def aesOf (oid : List UInt8) : Option (Cipher × Nat) :=
  if oid = AES128_CBC then some (.aes128, 16)
  else if oid = AES192_CBC then some (.aes192, 24)
  else if oid = AES256_CBC then some (.aes256, 32)
  else none

/-- The key length, if one is given, is the cipher's. -/
def checkKeyLen (aesKeyLen : Nat) : List Tlv → Except P12Error (List Tlv)
  | [] => .ok []
  | t :: rest =>
      if t.tag = TAG_INTEGER then do
        if (← smallUint t) ≠ aesKeyLen then bad "PBKDF2 key length does not match the cipher"
        else return rest
      else .ok (t :: rest)

def prfOf : List Tlv → Except P12Error (Hash × List Tlv)
  | [] => .ok (.sha1, [])
  | t :: rest =>
      if t.tag = TAG_SEQUENCE then do
        let p ← children t.value >>= algId
        if p.oid = HMAC_SHA1 then return (.sha1, rest)
        else if p.oid = HMAC_SHA256 then return (.sha256, rest)
        else .error (.unsupported "PBKDF2 hash")
      else .ok (.sha1, t :: rest)

/-- Salt, iterations and hash of PBKDF2. -/
def pbkdf2Params (aesKeyLen : Nat) (fields : List Tlv) :
    Except P12Error (List UInt8 × Nat × Hash) :=
  match fields with
  | [] => bad "PBKDF2 salt missing"
  | salt :: fields =>
      if !isOctets salt then bad "PBKDF2 salt missing"
      else
        match fields with
        | [] => bad "PBKDF2 iterations missing"
        | iter :: fields => do
            let iterations ← smallUint iter >>= checkIterations
            let (prf, rest) ← checkKeyLen aesKeyLen fields >>= prfOf
            if rest ≠ [] then bad "unexpected PBKDF2 parameter"
            else return (salt.value, iterations, prf)

def pbes2Iv (params : Option Tlv) : Except P12Error (List UInt8) :=
  match params with
  | some t =>
      if isOctets t ∧ t.value.length = 16 then .ok t.value
      else bad "PBES2 cipher IV is not 16 bytes"
  | none => bad "PBES2 cipher IV is not 16 bytes"

def pbes2Params (params : Option Tlv) : Except P12Error Pbes2 :=
  match params with
  | none => bad "missing PBES2 parameters"
  | some params =>
      if params.tag ≠ TAG_SEQUENCE then bad "PBES2 parameters are not a SEQUENCE"
      else do
        match ← children params.value with
        | [kdfAlg, encAlg] =>
            if kdfAlg.tag ≠ TAG_SEQUENCE ∨ encAlg.tag ≠ TAG_SEQUENCE then
              bad "PBES2 algorithm is not a SEQUENCE"
            else do
              let enc ← children encAlg.value >>= algId
              let (cipher, aesKeyLen) ← (aesOf enc.oid).elim
                (.error (.unsupported "PBES2 cipher")) .ok
              let iv ← pbes2Iv enc.params
              let kdf ← children kdfAlg.value >>= algId
              if kdf.oid ≠ PBKDF2 then .error (.unsupported "PBES2 key derivation")
              else
                match kdf.params with
                | none => bad "missing PBKDF2 parameters"
                | some kp =>
                    if kp.tag ≠ TAG_SEQUENCE then bad "PBKDF2 parameters are not a SEQUENCE"
                    else do
                      let (salt, iterations, prf) ← children kp.value >>= pbkdf2Params aesKeyLen
                      return ⟨cipher, aesKeyLen, iv, salt, iterations, prf⟩
        | _ => bad "PBES2 parameters are not (kdf, cipher)"

/-- PBES2 takes the password as UTF-8. -/
def decryptPbes2 (prims : Primitives) (params : Option Tlv) (ciphertext : List UInt8)
    (password : Option RustStr) : Working (List UInt8) := do
  let p ← pbes2Params params
  spend p.iterations
  let key := prims.pbkdf2 p.prf (RustStr.asBytes (password.getD [])) p.salt p.iterations p.keyLen
  cbcDecrypt prims p.cipher key p.iv ciphertext

/-! ### Any scheme -/

def legacyOf (oid : List UInt8) : Option Legacy :=
  if oid = PBE_3DES then some .tripleDes
  else if oid = PBE_RC2_128 then some (.rc2 128)
  else if oid = PBE_RC2_40 then some (.rc2 40)
  else none

def algorithmOf (alg : Tlv) : Except P12Error AlgId :=
  if alg.tag ≠ TAG_SEQUENCE then bad "algorithm identifier is not a SEQUENCE"
  else children alg.value >>= algId

def decrypt (prims : Primitives) (alg : Tlv) (ciphertext : List UInt8)
    (password : Option RustStr) : Working (List UInt8) := do
  let id ← algorithmOf alg
  if id.oid = PBES2 then decryptPbes2 prims id.params ciphertext password
  else
    match legacyOf id.oid with
    | none => Metered.lift (.error (.unsupported "encryption algorithm"))
    | some legacy => decryptLegacy prims legacy id.params ciphertext password

end Keyroost.P12
