import Keyroost.Library.Reader
import Keyroost.Library.Utf8
import Keyroost.Piv.Types

/-!
# Reading certificates

A walk over the DER of a certificate to its subject and its public key, as
`keyroost-piv/src/x509_parse.rs` makes it. Only the elements on the way are looked at: a field that
is not needed is skipped by its length, and nothing is verified.

Sub-identifiers are words of 64 bits that the source shifts without a check, and the dotted text of
an identifier is what algorithms, curves and attributes are known by; `Oid` says what that costs.
The reader of keys takes a zero byte off the front of an integer and no more.
-/

namespace Keyroost.Piv

inductive X509ParseError where
  | truncated
  | lengthTooLarge
  | malformed
deriving DecidableEq, Repr

/-! ### DER elements -/

structure Tlv where
  tag : UInt8
  content : List UInt8
deriving DecidableEq, Repr

def readContent (tag : UInt8) (len : Nat) (body : List UInt8) :
    Except X509ParseError (Tlv × List UInt8) :=
  if body.length < len then .error .truncated
  else .ok (⟨tag, body.take len⟩, body.drop len)

/-- The octets of a long length. -/
def readLen : Nat → Nat → Reader X509ParseError Nat
  | 0, len, body => .ok (len, body)
  | _ + 1, _, [] => .error .truncated
  | num + 1, len, b :: body => readLen num (len * 256 + b.toNat) body

def readTlv : Reader X509ParseError Tlv
  | [] | [_] => .error .truncated
  | tag :: lenByte :: body =>
      if lenByte &&& 0x80 = 0 then readContent tag lenByte.toNat body
      else
        let num := (lenByte &&& 0x7F).toNat
        -- The indefinite length, or more octets than any certificate needs.
        if num = 0 ∨ 4 < num then .error .lengthTooLarge
        else do
          let (len, body) ← readLen num 0 body
          readContent tag len body

def expectTag (expected : UInt8) : Reader X509ParseError (List UInt8) := fun input => do
  let (tlv, rest) ← readTlv input
  if tlv.tag ≠ expected then .error .malformed else return (tlv.content, rest)

/-! ### Object identifiers -/

/-- One base-128 number in 64 bits, which drop what is shifted out. -/
def subId (value : UInt64) : List UInt8 → Option (UInt64 × List UInt8)
  | [] => none
  | b :: rest =>
      let value := (value <<< 7) ||| (b &&& 0x7F).toUInt64
      if b &&& 0x80 = 0 then some (value, rest) else subId value rest

/-- The arcs after the first two. `started`: in the middle of a number. -/
def restArcs (out : RustStr) (value : UInt64) (started : Bool) : List UInt8 → Option RustStr
  | [] => if started then none else some out
  | b :: rest =>
      let value := (value <<< 7) ||| (b &&& 0x7F).toUInt64
      if b &&& 0x80 = 0 then
        restArcs (out ++ '.' :: RustStr.decimal value.toNat) 0 false rest
      else restArcs out value true rest

def firstArcs (sid : UInt64) : UInt64 × UInt64 :=
  if sid < 40 then (0, sid) else if sid < 80 then (1, sid - 40) else (2, sid - 80)

def decodeOid (content : List UInt8) : Option RustStr := do
  let (firstSid, rest) ← subId 0 content
  let (arc1, arc2) := firstArcs firstSid
  restArcs (RustStr.decimal arc1.toNat ++ '.' :: RustStr.decimal arc2.toNat) 0 false rest

def oidOf (content : List UInt8) : Except X509ParseError RustStr :=
  (decodeOid content).elim (.error .malformed) .ok

/-! ### The subject -/

inductive DnAttr where
  | commonName
  | organization
  | organizationalUnit
  | country
  | locality
  | stateOrProvince
  | serialNumber
  | emailAddress
  | other (oid : RustStr)
deriving DecidableEq, Repr

def DnAttr.fromOid (oid : RustStr) : DnAttr :=
  if oid = "2.5.4.3".toList then .commonName
  else if oid = "2.5.4.10".toList then .organization
  else if oid = "2.5.4.11".toList then .organizationalUnit
  else if oid = "2.5.4.6".toList then .country
  else if oid = "2.5.4.7".toList then .locality
  else if oid = "2.5.4.8".toList then .stateOrProvince
  else if oid = "2.5.4.5".toList then .serialNumber
  else if oid = "1.2.840.113549.1.9.1".toList then .emailAddress
  else .other oid

structure SubjectDn where
  rdns : List (DnAttr × RustStr)
deriving DecidableEq, Repr

def decodeDnValue (content : List UInt8) : RustStr := Utf8.fromUtf8Lossy content

/-- An `AttributeTypeAndValue`. -/
def readAttribute : Reader X509ParseError (DnAttr × RustStr) := fun atv => do
  let (seq, afterSeq) ← expectTag 0x30 atv
  let (oid, afterOid) ← expectTag 0x06 seq
  let oid ← oidOf oid
  let (value, _) ← readTlv afterOid
  return ((DnAttr.fromOid oid, decodeDnValue value.content), afterSeq)

/-- A `RelativeDistinguishedName`. Every element takes a byte, so its length is enough fuel. -/
def readRdn : Reader X509ParseError (List (DnAttr × RustStr)) := fun input => do
  let (set, afterSet) ← expectTag 0x31 input
  return (← Reader.toEnd .malformed readAttribute set.length set, afterSet)

def parseName (input : List UInt8) : Except X509ParseError SubjectDn := do
  let rdns ← Reader.toEnd .malformed readRdn input.length input
  return ⟨rdns.flatten⟩

/-! ### The certificate -/

/-- The contents of a certificate's `tbsCertificate` after its optional version. -/
def tbsFields (certDer : List UInt8) : Except X509ParseError (List UInt8) := do
  let (cert, _) ← expectTag 0x30 certDer
  let (tbs, _) ← expectTag 0x30 cert
  let (peek, after) ← readTlv tbs
  return if peek.tag = 0xA0 then after else tbs

/-- What follows the serial number, the signature algorithm, the issuer and the validity. -/
def afterValidity (fields : List UInt8) : Except X509ParseError (List UInt8) := do
  let (_, rest) ← expectTag 0x02 fields
  let (_, rest) ← expectTag 0x30 rest
  let (_, rest) ← expectTag 0x30 rest
  let (_, rest) ← expectTag 0x30 rest
  return rest

def parseSubjectDn (certDer : List UInt8) : Except X509ParseError SubjectDn := do
  let fields ← tbsFields certDer
  let rest ← afterValidity fields
  let (subject, _) ← expectTag 0x30 rest
  parseName subject

/-- The whole element of the `subjectPublicKeyInfo`. -/
def certificateSpki (certDer : List UInt8) : Except X509ParseError (List UInt8) := do
  let fields ← tbsFields certDer
  let rest ← afterValidity fields
  let (_, rest) ← expectTag 0x30 rest
  let (_, afterSpki) ← expectTag 0x30 rest
  return rest.take (rest.length - afterSpki.length)

/-! ### The public key -/

def DOTTED_RSA_ENCRYPTION : RustStr := "1.2.840.113549.1.1.1".toList
def DOTTED_EC_PUBLIC_KEY : RustStr := "1.2.840.10045.2.1".toList
def DOTTED_P256 : RustStr := "1.2.840.10045.3.1.7".toList
def DOTTED_P384 : RustStr := "1.3.132.0.34".toList
def DOTTED_P521 : RustStr := "1.3.132.0.35".toList
def DOTTED_ED25519 : RustStr := "1.3.101.112".toList
def DOTTED_X25519 : RustStr := "1.3.101.110".toList

/-- An INTEGER without the zero byte that keeps it positive. -/
def stripDerUintSignGuard : List UInt8 → List UInt8
  | 0x00 :: b :: rest => b :: rest
  | m => m

def rsaKeyAlg (spkBytes : List UInt8) : Except X509ParseError (Option KeyAlg) := do
  let (rsaPub, _) ← expectTag 0x30 spkBytes
  let (modulus, _) ← expectTag 0x02 rsaPub
  return match (stripDerUintSignGuard modulus).length * 8 with
    | 1024 => some .rsa1024
    | 2048 => some .rsa2048
    | 3072 => some .rsa3072
    | 4096 => some .rsa4096
    | _ => none

def curveAlg (params : List UInt8) : Except X509ParseError (Option KeyAlg) := do
  let (curve, _) ← expectTag 0x06 params
  let curve ← oidOf curve
  return if curve = DOTTED_P256 then some .eccP256
    else if curve = DOTTED_P384 then some .eccP384
    else if curve = DOTTED_P521 then some .eccP521
    else none

/-- The algorithm's identifier, its parameters, and the key's bytes without the count of unused
bits. -/
def spkiParts (content : List UInt8) :
    Except X509ParseError (RustStr × List UInt8 × List UInt8) := do
  let (algId, afterAlgId) ← expectTag 0x30 content
  let (spk, _) ← expectTag 0x03 afterAlgId
  let (oid, params) ← expectTag 0x06 algId
  let oid ← oidOf oid
  match spk with
  | [] => .error .truncated
  | _ :: keyBytes => return (oid, params, keyBytes)

def spkiAlgorithm (content : List UInt8) : Except X509ParseError (Option KeyAlg) := do
  let (oid, params, keyBytes) ← spkiParts content
  if oid = DOTTED_RSA_ENCRYPTION then rsaKeyAlg keyBytes
  else if oid = DOTTED_EC_PUBLIC_KEY then curveAlg params
  else if oid = DOTTED_ED25519 then .ok (some .ed25519)
  else if oid = DOTTED_X25519 then .ok (some .x25519)
  else .ok none

def parseKeyAlgorithm (certDer : List UInt8) : Except X509ParseError (Option KeyAlg) := do
  let spki ← certificateSpki certDer
  let (spki, _) ← expectTag 0x30 spki
  spkiAlgorithm spki

def known (alg : Option KeyAlg) : Except X509ParseError KeyAlg :=
  alg.elim (.error .malformed) .ok

def parseSpkiContent (content : List UInt8) : Except X509ParseError (KeyAlg × PublicKey) := do
  let (oid, params, keyBytes) ← spkiParts content
  if oid = DOTTED_RSA_ENCRYPTION then do
    let alg ← rsaKeyAlg keyBytes >>= known
    let (rsaPub, _) ← expectTag 0x30 keyBytes
    let (modulus, afterModulus) ← expectTag 0x02 rsaPub
    let (exponent, _) ← expectTag 0x02 afterModulus
    return (alg, .rsa (stripDerUintSignGuard modulus) (stripDerUintSignGuard exponent))
  else if oid = DOTTED_EC_PUBLIC_KEY then do
    let alg ← curveAlg params >>= known
    return (alg, .ecc keyBytes)
  else if oid = DOTTED_ED25519 then return (.ed25519, .ecc keyBytes)
  else if oid = DOTTED_X25519 then return (.x25519, .ecc keyBytes)
  else .error .malformed

def parseSubjectPublicKeyInfo (der : List UInt8) : Except X509ParseError (KeyAlg × PublicKey) := do
  let (spki, _) ← expectTag 0x30 der
  parseSpkiContent spki

def parseCertificatePublicKey (certDer : List UInt8) :
    Except X509ParseError (KeyAlg × PublicKey) :=
  certificateSpki certDer >>= parseSubjectPublicKeyInfo

end Keyroost.Piv
