import Keyroost.Library.LeadingZeros
import Keyroost.P12.Pbe

/-!
# The keys and certificates of a PKCS#12 file

The reader of `keyroost-p12/src/pfx.rs`. The MAC is checked over the whole AuthenticatedSafe before
any of it is read, for one password candidate after the other.

The functions go from the outside in: the file, its AuthenticatedSafe, the contents of it, which may
be encrypted each on its own, the bags, and what a bag holds. Whether a key may stand there
unencrypted is decided once for a file, by its MAC, and handed down as `plainKeysOk`. All of it runs
on one budget of iterations, which a wrong candidate for the password uses up as well.
-/

namespace Keyroost.P12

inductive BagKind where
  | key
  | certificate
deriving DecidableEq, Repr

structure RawBag where
  kind : BagKind
  value : List UInt8
  localKeyId : Option (List UInt8)
  friendlyName : Option RustStr
deriving DecidableEq, Repr

def TAG_BMP_STRING : UInt8 := 0x1E
def TAG_SET : UInt8 := 0x31
def TAG_CONTEXT_0 : UInt8 := 0xA0
def TAG_CONTEXT_0_PRIMITIVE : UInt8 := 0x80

def DATA_OID : List UInt8 := [0x2A, 0x86, 0x48, 0x86, 0xF7, 0x0D, 0x01, 0x07, 0x01]
def ENCRYPTED_DATA_OID : List UInt8 := [0x2A, 0x86, 0x48, 0x86, 0xF7, 0x0D, 0x01, 0x07, 0x06]
def KEY_BAG_OID : List UInt8 :=
  [0x2A, 0x86, 0x48, 0x86, 0xF7, 0x0D, 0x01, 0x0C, 0x0A, 0x01, 0x01]
def SHROUDED_KEY_BAG_OID : List UInt8 :=
  [0x2A, 0x86, 0x48, 0x86, 0xF7, 0x0D, 0x01, 0x0C, 0x0A, 0x01, 0x02]
def CERT_BAG_OID : List UInt8 :=
  [0x2A, 0x86, 0x48, 0x86, 0xF7, 0x0D, 0x01, 0x0C, 0x0A, 0x01, 0x03]
def X509_CERTIFICATE_OID : List UInt8 :=
  [0x2A, 0x86, 0x48, 0x86, 0xF7, 0x0D, 0x01, 0x09, 0x16, 0x01]
def FRIENDLY_NAME_OID : List UInt8 := [0x2A, 0x86, 0x48, 0x86, 0xF7, 0x0D, 0x01, 0x09, 0x14]
def LOCAL_KEY_ID_OID : List UInt8 := [0x2A, 0x86, 0x48, 0x86, 0xF7, 0x0D, 0x01, 0x09, 0x15]
def PBMAC1_OID : List UInt8 := [0x2A, 0x86, 0x48, 0x86, 0xF7, 0x0D, 0x01, 0x05, 0x0E]
def SHA1_OID : List UInt8 := [0x2B, 0x0E, 0x03, 0x02, 0x1A]
def SHA256_OID : List UInt8 := [0x60, 0x86, 0x48, 0x01, 0x65, 0x03, 0x04, 0x02, 0x01]

/-! ### Elements -/

def expect (t : Tlv) (tag : UInt8) (what : String) : Except P12Error Unit :=
  if t.tag = tag then .ok () else bad what

def expectOctets (t : Tlv) (what : String) : Except P12Error Unit :=
  if isOctets t then .ok () else bad what

/-- The elements of an element with this tag. -/
def membersOf (t : Tlv) (tag : UInt8) (what : String) : Except P12Error (List Tlv) := do
  expect t tag what
  children t.value

/-- Two fields. -/
def pairOf (kids : List Tlv) (what : String) : Except P12Error (Tlv × Tlv) :=
  match kids with
  | [a, b] => .ok (a, b)
  | _ => bad what

/-- Two fields and perhaps a third. -/
def pairOptOf (kids : List Tlv) (what : String) : Except P12Error (Tlv × Tlv × Option Tlv) :=
  match kids with
  | [a, b] => .ok (a, b, none)
  | [a, b, c] => .ok (a, b, some c)
  | _ => bad what

/-- The value of an INTEGER, no more than `2^64 - 1`. -/
def clampU64 : Nat → List UInt8 → Nat
  | n, [] => n
  | n, b :: rest =>
      if 0xFFFFFFFFFFFFFF < n then 0xFFFFFFFFFFFFFFFF else clampU64 (n * 256 + b.toNat) rest

def uint (t : Tlv) : Except P12Error Nat := do
  expect t TAG_INTEGER "expected an INTEGER"
  match t.value with
  | [] => bad "empty INTEGER"
  | b :: rest =>
      if b &&& 0x80 ≠ 0 then bad "negative INTEGER" else return clampU64 0 (b :: rest)

/-- An element as DER again. -/
def encode (t : Tlv) : List UInt8 :=
  let len := t.value.length
  t.tag :: ((if len < 0x80 then [len.toUInt8]
    else (0x80 ||| (Bytes.minimal len).length.toUInt8) :: Bytes.minimal len) ++ t.value)

/-- The single element of an explicit `[0]`. -/
def explicitContent (wrapper : Tlv) : Except P12Error Tlv := do
  match ← membersOf wrapper TAG_CONTEXT_0 "expected an explicit [0] content" with
  | [kid] => return kid
  | _ => bad "explicit [0] holds more than one element"

/-- The bytes of an implicit `[0]` OCTET STRING, in one piece or in segments. -/
def implicitOctets (t : Tlv) : Except P12Error (List UInt8) :=
  if t.tag = TAG_CONTEXT_0_PRIMITIVE then .ok t.value
  else if t.tag = TAG_CONTEXT_0 then do
    let segments ← children t.value
    segments.forM fun segment => expectOctets segment "chunk is not an OCTET STRING"
    return (segments.map Tlv.value).flatten
  else bad "encrypted content is not an implicit [0] OCTET STRING"

/-- UTF-16 as text, unless a surrogate stands alone. A pair is one character, whose number is below
0x110000 by its form. -/
def fromUtf16 : List UInt16 → Option RustStr
  | [] => some []
  | u :: rest =>
      if u &&& 0xF800 ≠ 0xD800 then (fromUtf16 rest).map (Char.ofNat u.toNat :: ·)
      else
        match rest with
        | [] => none
        | v :: rest =>
            if u &&& 0xFC00 = 0xD800 ∧ v &&& 0xFC00 = 0xDC00 then
              (fromUtf16 rest).map (Char.ofNat
                (0x10000 + (u.toNat - 0xD800) * 0x400 + (v.toNat - 0xDC00)) :: ·)
            else none

def units : List UInt8 → List UInt16
  | hi :: lo :: rest => (hi.toUInt16 <<< 8 ||| lo.toUInt16) :: units rest
  | _ => []

def bmpToString (bytes : List UInt8) : Option RustStr :=
  if bytes.length % 2 ≠ 0 then none else fromUtf16 (units bytes)

/-! ### The MAC -/

structure Mac where
  hash : Hash
  digest : List UInt8
  salt : List UInt8
  iterations : Nat
deriving DecidableEq, Repr

def constantTimeEq (a b : List UInt8) : Bool :=
  a.length == b.length && (List.zipWith (· ^^^ ·) a b).foldl (· ||| ·) 0 == 0

/-- The MAC of the data under a password. -/
def Mac.compute (prims : Primitives) (mac : Mac) (data : List UInt8)
    (password : Option RustStr) : List UInt8 :=
  prims.hmac mac.hash (prims.pkcs12Kdf mac.hash (bmpPassword password) mac.salt 3 mac.iterations
    mac.hash.outputLen) data

def Mac.verify (prims : Primitives) (mac : Mac) (data : List UInt8)
    (password : Option RustStr) : Working Bool := do
  spend mac.iterations
  return constantTimeEq (mac.compute prims data password) mac.digest

def macHash (oid : List UInt8) : Except P12Error Hash :=
  if oid = PBMAC1_OID then .error (.unsupported "PBMAC1")
  else if oid = SHA1_OID then .ok .sha1
  else if oid = SHA256_OID then .ok .sha256
  else .error (.unsupported "MAC algorithm")

def parseMac (macData : Tlv) : Except P12Error Mac := do
  let kids ← membersOf macData TAG_SEQUENCE "MacData is not a SEQUENCE"
  let (digestInfo, salt, count) ← pairOptOf kids "MacData has the wrong number of fields"
  let iterations ← count.elim (.ok 1) uint
  let di ← membersOf digestInfo TAG_SEQUENCE "DigestInfo is not a SEQUENCE"
  let (alg, digest) ← pairOf di "DigestInfo is not (algorithm, digest)"
  let algKids ← membersOf alg TAG_SEQUENCE "MAC algorithm is not a SEQUENCE"
  let algOid ← algKids.head?.elim (bad "empty MAC algorithm") .ok
  expect algOid TAG_OID "MAC algorithm has no OID"
  let hash ← macHash algOid.value
  expectOctets digest "MAC digest is not an OCTET STRING"
  expectOctets salt "MAC salt is not an OCTET STRING"
  if iterations = 0 then bad "zero MAC iteration count"
  else if MAX_ITERATIONS < iterations then
    .error (.unsupported "iteration count above 10,000,000")
  else return ⟨hash, digest.value, salt.value, iterations⟩

/-! ### Bags -/

/-- The key identifier and the name among a bag's attributes. The last of each counts; an attribute
of another kind is passed over, and one of these kinds with another form too. -/
def bagAttribute (names : Option (List UInt8) × Option RustStr) (attr : Tlv) :
    Except P12Error (Option (List UInt8) × Option RustStr) := do
  let ak ← membersOf attr TAG_SEQUENCE "attribute is not a SEQUENCE"
  let (aid, avals) ← pairOf ak "attribute is not (type, values)"
  expect aid TAG_OID "attribute has no type OID"
  let vals ← membersOf avals TAG_SET "attribute values are not a SET"
  match vals with
  | [] => return names
  | first :: _ =>
      if aid.value = LOCAL_KEY_ID_OID ∧ isOctets first then return (some first.value, names.2)
      else if aid.value = FRIENDLY_NAME_OID ∧ first.tag = TAG_BMP_STRING then
        return (names.1, bmpToString first.value)
      else return names

def bagAttributes (attrs : Option Tlv) :
    Except P12Error (Option (List UInt8) × Option RustStr) :=
  match attrs with
  | none => .ok (none, none)
  | some attrs => do
      let attrs ← membersOf attrs TAG_SET "bag attributes are not a SET"
      attrs.foldlM bagAttribute (none, none)

/-- A key in the clear. -/
def plainKey (value : Tlv) (plainKeysOk : Bool) : Except P12Error (List UInt8) :=
  if !plainKeysOk then .error (.unsupported "file has no integrity check")
  else do
    expect value TAG_SEQUENCE "key bag is not a SEQUENCE"
    return encode value

/-- The algorithm and the ciphertext of a shrouded key. -/
def shroudedKey (value : Tlv) : Except P12Error (Tlv × List UInt8) := do
  let parts ← membersOf value TAG_SEQUENCE "shrouded key bag is not a SEQUENCE"
  let (alg, cipher) ← pairOf parts "EncryptedPrivateKeyInfo is not (algorithm, data)"
  expectOctets cipher "encrypted key is not an OCTET STRING"
  return (alg, cipher.value)

/-- An X.509 certificate. Other kinds are skipped. -/
def certificate (value : Tlv) : Except P12Error (Option (List UInt8)) := do
  let parts ← membersOf value TAG_SEQUENCE "cert bag is not a SEQUENCE"
  let (certType, certWrapper) ← pairOf parts "CertBag is not (type, value)"
  if certType.tag ≠ TAG_OID ∨ certType.value ≠ X509_CERTIFICATE_OID then return none
  else
    let cert ← explicitContent certWrapper
    expectOctets cert "certificate is not an OCTET STRING"
    return some cert.value

/-- The type of a bag, its value and its attributes. -/
def bagParts (bag : Tlv) : Except P12Error (List UInt8 × Tlv × Option Tlv) := do
  let kids ← membersOf bag TAG_SEQUENCE "SafeBag is not a SEQUENCE"
  let (id, wrapper, attrs) ← pairOptOf kids "SafeBag has the wrong number of fields"
  expect id TAG_OID "SafeBag has no type OID"
  return (id.value, ← explicitContent wrapper, attrs)

/-- What a bag holds. Bags of other kinds are skipped. `plainKeysOk` says whether a key that is not
encrypted by itself is taken here. -/
def bagContent (prims : Primitives) (id : List UInt8) (value : Tlv)
    (password : Option RustStr) (plainKeysOk : Bool) :
    Working (Option (BagKind × List UInt8)) :=
  if id = KEY_BAG_OID then do
    let bytes ← plainKey value plainKeysOk
    return some (.key, bytes)
  else if id = SHROUDED_KEY_BAG_OID then do
    let (alg, cipher) ← shroudedKey value
    let bytes ← decrypt prims alg cipher password
    return some (.key, bytes)
  else if id = CERT_BAG_OID then do
    let cert ← certificate value
    return cert.map (BagKind.certificate, ·)
  else return none

def safeBag (prims : Primitives) (bag : Tlv) (password : Option RustStr)
    (plainKeysOk : Bool) : Working (Option RawBag) := do
  let (id, value, attrs) ← bagParts bag
  match ← bagContent prims id value password plainKeysOk with
  | none => return none
  | some (kind, bytes) =>
      let (localKeyId, friendlyName) ← bagAttributes attrs
      return some ⟨kind, bytes, localKeyId, friendlyName⟩

def safeBags (prims : Primitives) (password : Option RustStr) (plainKeysOk : Bool) :
    List Tlv → Working (List RawBag)
  | [] => return []
  | bag :: rest => do
      let raw ← safeBag prims bag password plainKeysOk
      return raw.toList ++ (← safeBags prims password plainKeysOk rest)

/-- The bags of a SafeContents. -/
def safeMembers (data : List UInt8) : Except P12Error (List Tlv) := do
  let (seq, _) ← readTlv data
  membersOf seq TAG_SEQUENCE "SafeContents is not a SEQUENCE"

def safeContents (prims : Primitives) (data : List UInt8) (password : Option RustStr)
    (plainKeysOk : Bool) : Working (List RawBag) := do
  safeBags prims password plainKeysOk (← safeMembers data)

/-! ### The AuthenticatedSafe -/

/-- The algorithm and the ciphertext of an EncryptedData. -/
def encryptedData (ed : Tlv) : Except P12Error (Tlv × List UInt8) := do
  let kids ← membersOf ed TAG_SEQUENCE "EncryptedData is not a SEQUENCE"
  let (_, eci) ← pairOf kids "EncryptedData is not (version, content)"
  let parts ← membersOf eci TAG_SEQUENCE "EncryptedContentInfo is not a SEQUENCE"
  match parts with
  | [kind, alg, cipher] =>
      if kind.tag ≠ TAG_OID ∨ kind.value ≠ DATA_OID then
        .error (.unsupported "encrypted content type")
      else return (alg, ← implicitOctets cipher)
  | _ => bad "EncryptedContentInfo is not (type, algorithm, content)"

/-- The type and the content of a ContentInfo. -/
def contentInfo (info : Tlv) : Except P12Error (List UInt8 × Tlv) := do
  let ci ← membersOf info TAG_SEQUENCE "ContentInfo is not a SEQUENCE"
  let (oid, wrapper) ← pairOf ci "ContentInfo is not (type, content)"
  expect oid TAG_OID "ContentInfo has no type OID"
  return (oid.value, ← explicitContent wrapper)

def walkContent (prims : Primitives) (info : Tlv) (password : Option RustStr)
    (plainKeysOk : Bool) : Working (List RawBag) := do
  let (oid, content) ← contentInfo info
  if oid = DATA_OID then do
    Metered.lift (expectOctets content "data content is not an OCTET STRING")
    safeContents prims content.value password plainKeysOk
  else if oid = ENCRYPTED_DATA_OID then do
    let (alg, ciphertext) ← encryptedData content
    let plain ← decrypt prims alg ciphertext password
    safeContents prims plain password true
  else Metered.lift (.error (.unsupported "AuthenticatedSafe content type"))

def walkContents (prims : Primitives) (password : Option RustStr) (plainKeysOk : Bool) :
    List Tlv → Working (List RawBag)
  | [] => return []
  | info :: rest => do
      let bags ← walkContent prims info password plainKeysOk
      return bags ++ (← walkContents prims password plainKeysOk rest)

/-- The ContentInfos of an AuthenticatedSafe. -/
def contentInfos (authSafe : List UInt8) : Except P12Error (List Tlv) := do
  let (seq, _) ← readTlv authSafe
  membersOf seq TAG_SEQUENCE "AuthenticatedSafe is not a SEQUENCE"

def walkAuthSafe (prims : Primitives) (authSafe : List UInt8) (password : Option RustStr)
    (plainKeysOk : Bool) : Working (List RawBag) := do
  walkContents prims password plainKeysOk (← contentInfos authSafe)

/-! ### The file -/

/-- A file taken apart: its AuthenticatedSafe, and its MAC if it carries one. The contents are not
looked into: the MAC is over them as they stand, and is checked first. -/
def parsePfx (der : List UInt8) : Except P12Error (List UInt8 × Option Mac) := do
  let (pfx, _) ← readTlv der
  let parts ← membersOf pfx TAG_SEQUENCE "PFX is not a SEQUENCE"
  let (version, info, macData) ← pairOptOf parts "PFX has the wrong number of fields"
  if (← uint version) ≠ 3 then .error (.unsupported "PKCS#12 version")
  else
    let ci ← membersOf info TAG_SEQUENCE "PFX content is not a SEQUENCE"
    let (oid, wrapper) ← pairOf ci "PFX content is not (type, content)"
    if oid.tag ≠ TAG_OID ∨ oid.value ≠ DATA_OID then
      .error (.unsupported "PKCS#12 with public-key integrity")
    else
      let octets ← explicitContent wrapper
      expectOctets octets "PFX content is not an OCTET STRING"
      let mac ← macData.mapM parseMac
      return (octets.value, mac)

/-- No password and an empty one are tried as both. -/
def candidates (password : Option RustStr) : List (Option RustStr) :=
  if password = none ∨ password = some [] then [none, some []] else [password]

/-- Whether a candidate may be read with. A file without a MAC has none to check. -/
def admits (prims : Primitives) (authSafe : List UInt8) (mac : Option Mac)
    (password : Option RustStr) : Working Bool :=
  match mac with
  | none => return true
  | some mac => mac.verify prims authSafe password

/-- Whether an outcome sends the reader on to the next candidate. -/
def retries (last : Bool) : Except P12Error (List RawBag) → Bool
  | .error .wrongPassword => !last
  | _ => false

/-- One candidate after the other. -/
def tryCandidates (prims : Primitives) (authSafe : List UInt8) (mac : Option Mac) :
    List (Option RustStr) → Working (List RawBag)
  | [] => Metered.lift (.error .wrongPassword)
  | pw :: rest => do
      if ← admits prims authSafe mac pw then
        Metered.orElseIf (walkAuthSafe prims authSafe pw mac.isSome) (retries rest.isEmpty)
          (tryCandidates prims authSafe mac rest)
      else tryCandidates prims authSafe mac rest

def readBagsWithin (prims : Primitives) (der : List UInt8) (password : Option RustStr) :
    Working (List RawBag) := do
  let (authSafe, mac) ← parsePfx der
  tryCandidates prims authSafe mac (candidates password)

def readBags (prims : Primitives) (der : List UInt8) (password : Option RustStr) :
    Except P12Error (List RawBag) :=
  (readBagsWithin prims der password WORK_BUDGET).1

end Keyroost.P12
