import Keyroost.OpenPgp.Tlv

/-!
# What an OpenPGP card tells of its slots

Algorithm attributes, the algorithms a card publishes for each slot, and public keys, as
`keyroost-openpgp/src/lib.rs` reads them from the card's data objects.

The readers are partial in the same places as the source's, with its errors. An object may come
with its own tag around it or bare; `enveloped` takes either, and the readers of whole objects go
through it. `KeyAlg.attributes` is the other direction, the attributes that are written for an
algorithm, which depend on the slot: an agreement key and a signing key on one curve have different
ones.
-/

namespace Keyroost.OpenPgp

/-! ### Algorithms -/

/-- An algorithm a slot can be set to. -/
inductive KeyAlg where
  | rsa2048
  | rsa3072
  | rsa4096
  | ed25519
  | x25519
  | nistP256
  | nistP384
  | nistP521
  | secp256k1
  | brainpoolP256r1
  | brainpoolP384r1
  | brainpoolP512r1
deriving DecidableEq, Repr

structure SlotMismatch where
  alg : KeyAlg
  crt : KeyCrt
deriving DecidableEq, Repr

namespace KeyAlg

def ALL : List KeyAlg :=
  [rsa2048, rsa3072, rsa4096, ed25519, x25519, nistP256, nistP384, nistP521, secp256k1,
    brainpoolP256r1, brainpoolP384r1, brainpoolP512r1]

def curve : KeyAlg → Option Curve
  | rsa2048 | rsa3072 | rsa4096 => none
  | ed25519 => some .ed25519
  | x25519 => some .x25519
  | nistP256 => some .nistP256
  | nistP384 => some .nistP384
  | nistP521 => some .nistP521
  | secp256k1 => some .secp256k1
  | brainpoolP256r1 => some .brainpoolP256r1
  | brainpoolP384r1 => some .brainpoolP384r1
  | brainpoolP512r1 => some .brainpoolP512r1

def rsaBits : KeyAlg → Option UInt16
  | rsa2048 => some 2048
  | rsa3072 => some 3072
  | rsa4096 => some 4096
  | _ => none

def eccKind (alg : KeyAlg) (crt : KeyCrt) : Except SlotMismatch EccKind :=
  match alg, crt with
  | ed25519, .decrypt | x25519, .sign | x25519, .auth => .error ⟨alg, crt⟩
  | ed25519, _ => .ok .edDsa
  | _, .decrypt => .ok .ecdh
  | _, _ => .ok .ecdsa

/-- The attributes written to a slot: an exponent of 32 bits, and the standard import format. -/
def attributes (alg : KeyAlg) (crt : KeyCrt) : Except SlotMismatch (List UInt8) :=
  match alg.rsaBits, alg.curve with
  | some bits, _ => .ok [0x01, (bits >>> 8).toUInt8, (bits &&& 0xFF).toUInt8, 0x00, 0x20, 0x00]
  | none, curve => (alg.eccKind crt).map fun kind => kind.id :: (curve.map Curve.oid).getD []

end KeyAlg

/-! ### Data objects -/

def TAG_AID : UInt16 := 0x004F
def TAG_APPLICATION_RELATED_DATA : UInt16 := 0x006E
def TAG_ALGO_ATTR_SIG : UInt16 := 0x00C1
def TAG_ALGO_ATTR_DEC : UInt16 := 0x00C2
def TAG_ALGO_ATTR_AUT : UInt16 := 0x00C3
def TAG_PW_STATUS : UInt16 := 0x00C4
def TAG_FINGERPRINTS : UInt16 := 0x00C5
def TAG_ALGORITHM_INFORMATION : UInt16 := 0x00FA
def TAG_PUBLIC_KEY : UInt16 := 0x7F49
def TAG_RSA_MODULUS : UInt16 := 0x0081
def TAG_RSA_EXPONENT : UInt16 := 0x0082
def TAG_EC_PUBLIC_POINT : UInt16 := 0x0086

def NEST_DEPTH_LIMIT : Nat := 16

def findTag (tlvs : List Tlv) (tag : UInt16) : Option (List UInt8) :=
  (tlvs.find? fun t => t.tag == tag).map Tlv.value

/-- The first object under the tag, also inside others: with so many levels left. -/
def findNestedAt (tag : UInt16) : Nat → List Tlv → Option (List UInt8)
  | 0, _ => none
  | left + 1, tlvs => tlvs.findSome? fun t =>
      if t.tag = tag then some t.value
      else if t.constructed = true then
        match parseTlvs t.value with
        | .ok children => findNestedAt tag left children
        | .error _ => none
      else none

def findNested (tlvs : List Tlv) (tag : UInt16) : Option (List UInt8) :=
  findNestedAt tag NEST_DEPTH_LIMIT tlvs

/-- The objects inside an envelope, or those there without one. -/
def enveloped (buf : List UInt8) (tag : UInt16) : Except ParseError (List Tlv) := do
  let top ← parseTlvs buf
  parseTlvs ((findTag top tag).getD buf)

def nested (tlvs : List Tlv) (tag : UInt16) : Except ParseError (List UInt8) :=
  match findNested tlvs tag with
  | none => .error (.missingTag tag)
  | some value => .ok value

structure PwStatus where
  pw1ValidMultiple : Bool
  maxPw1 : UInt8
  maxRc : UInt8
  maxPw3 : UInt8
  triesPw1 : UInt8
  triesRc : UInt8
  triesPw3 : UInt8
deriving DecidableEq, Repr

def parsePwStatus : List UInt8 → Except ParseError PwStatus
  | [multiple, maxPw1, maxRc, maxPw3, triesPw1, triesRc, triesPw3] =>
      .ok ⟨multiple == 0x01, maxPw1, maxRc, maxPw3, triesPw1, triesRc, triesPw3⟩
  | _ => .error .unexpectedLength

/-- What the card tells of itself and of its three slots. The attributes are kept as the bytes the
card sent; what they say of an algorithm is read from them when it is asked for. -/
structure AppRelatedData where
  aid : List UInt8
  algoAttrSig : List UInt8
  algoAttrDec : List UInt8
  algoAttrAut : List UInt8
  pwStatus : PwStatus
  fingerprintSig : List UInt8
  fingerprintDec : List UInt8
  fingerprintAut : List UInt8
deriving DecidableEq, Repr

/-- Out of the objects inside. Fingerprints after the third are left out. -/
def applicationRelatedData (tlvs : List Tlv) : Except ParseError AppRelatedData := do
  let aid ← nested tlvs TAG_AID
  let algoAttrSig ← nested tlvs TAG_ALGO_ATTR_SIG
  let algoAttrDec ← nested tlvs TAG_ALGO_ATTR_DEC
  let algoAttrAut ← nested tlvs TAG_ALGO_ATTR_AUT
  let pwStatus ← parsePwStatus (← nested tlvs TAG_PW_STATUS)
  let fpr ← nested tlvs TAG_FINGERPRINTS
  if fpr.length < 60 then throw .unexpectedLength
  return { aid, algoAttrSig, algoAttrDec, algoAttrAut, pwStatus
           fingerprintSig := fpr.take 20
           fingerprintDec := (fpr.drop 20).take 20
           fingerprintAut := (fpr.drop 40).take 20 }

def parseApplicationRelatedData (buf : List UInt8) : Except ParseError AppRelatedData := do
  applicationRelatedData (← enveloped buf TAG_APPLICATION_RELATED_DATA)

def AppRelatedData.attributes (ard : AppRelatedData) : KeyCrt → List UInt8
  | .sign => ard.algoAttrSig
  | .decrypt => ard.algoAttrDec
  | .auth => ard.algoAttrAut

namespace RsaImportFormat

def fromAttrByte (b : UInt8) : Option RsaImportFormat :=
  if b = 0x00 then some standard
  else if b = 0x01 then some standardWithModulus
  else if b = 0x02 then some crt
  else if b = 0x03 then some crtWithModulus
  else none

end RsaImportFormat

def wordOf (hi lo : UInt8) : UInt16 := hi.toUInt16 <<< 8 ||| lo.toUInt16

/-- A missing format byte is the standard format. -/
def parseRsaAlgorithmAttributes : List UInt8 → Except ParseError RsaAttributes
  | 0x01 :: n₁ :: n₂ :: e₁ :: e₂ :: rest =>
      match rest.head? with
      | none => .ok ⟨wordOf n₁ n₂, wordOf e₁ e₂, .standard⟩
      | some b =>
          match RsaImportFormat.fromAttrByte b with
          | none => .error .unexpectedLength
          | some format => .ok ⟨wordOf n₁ n₂, wordOf e₁ e₂, format⟩
  | 0x01 :: _ => .error .unexpectedLength
  | _ => .error .unsupportedAlgorithm

/-- The curve of an OID, read without its last byte where it is none with it, and whether that
byte asks for the public key. -/
def curveOfOid (oid : List UInt8) : Option (Curve × Bool) :=
  match Curve.fromOid oid with
  | some curve => some (curve, false)
  | none =>
      oid.getLast?.bind fun last =>
        (Curve.fromOid oid.dropLast).map fun curve => (curve, decide (last = 0xFF))

def parseAlgorithmAttributes : List UInt8 → Except ParseError AlgorithmAttributes
  | [] => .error .unexpectedLength
  | id :: oid =>
      if id = 0x01 then (parseRsaAlgorithmAttributes (id :: oid)).map .rsa
      else
        match EccKind.fromId id, curveOfOid oid with
        | some kind, some (curve, withPublicKey) => .ok (.ecc kind curve withPublicKey)
        | _, _ => .error .unsupportedAlgorithm

def AlgorithmAttributes.keyAlg : AlgorithmAttributes → Option KeyAlg
  | rsa r => KeyAlg.ALL.find? fun alg => alg.rsaBits == some r.nBits
  | ecc _ curve _ => KeyAlg.ALL.find? fun alg => alg.curve == some curve

/-- The algorithm that some attributes are of. -/
def algOf (attr : List UInt8) : Option KeyAlg :=
  (parseAlgorithmAttributes attr).toOption.bind AlgorithmAttributes.keyAlg

/-- What a card publishes of the algorithms of each slot. -/
structure AlgorithmInformation where
  sig : List (List UInt8)
  dec : List (List UInt8)
  aut : List (List UInt8)
deriving DecidableEq, Repr

namespace AlgorithmInformation

def raw (info : AlgorithmInformation) : KeyCrt → List (List UInt8)
  | .sign => info.sig
  | .decrypt => info.dec
  | .auth => info.aut

/-- The algorithms listed for a slot, each once. -/
def keyAlgs (info : AlgorithmInformation) (crt : KeyCrt) : List KeyAlg :=
  (info.raw crt).foldl (fun out attr =>
    match algOf attr with
    | some alg => if alg ∈ out then out else out ++ [alg]
    | none => out) []

end AlgorithmInformation

def parseAlgorithmInformation (buf : List UInt8) : Except ParseError AlgorithmInformation := do
  let tlvs ← enveloped buf TAG_ALGORITHM_INFORMATION
  let under := fun tag => (tlvs.filter fun t => t.tag == tag).map Tlv.value
  let info : AlgorithmInformation :=
    { sig := under TAG_ALGO_ATTR_SIG, dec := under TAG_ALGO_ATTR_DEC
      aut := under TAG_ALGO_ATTR_AUT }
  if info.sig = [] ∧ info.dec = [] ∧ info.aut = [] then
    throw (.missingTag TAG_ALGORITHM_INFORMATION)
  return info

/-- A point is taken before a modulus. -/
def generatedPublicKey (tlvs : List Tlv) : Except ParseError PublicKey :=
  match findNested tlvs TAG_EC_PUBLIC_POINT with
  | some point => return .ecc point
  | none => do
      let modulus ← nested tlvs TAG_RSA_MODULUS
      let exponent ← nested tlvs TAG_RSA_EXPONENT
      return .rsa modulus exponent

def parseGeneratedPublicKey (buf : List UInt8) : Except ParseError PublicKey := do
  generatedPublicKey (← enveloped buf TAG_PUBLIC_KEY)

end Keyroost.OpenPgp
