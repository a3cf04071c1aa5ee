import Keyroost.Library.RustStr
import Keyroost.Piv.Spki

/-!
# Building certificates

Self-signed certificates for keys a card has generated, around the card's signature, from
`keyroost-piv/src/x509.rs`. The parts are the subject, which is read from its text form first, the
validity with its two forms of time, the key usage, and the key itself; `tbsCertificate` is what the
card signs and `assemble` the whole.

A subject, a period and a key usage that cannot be written are errors of the source, with its
texts. Dates are counted by the functions that `ValidityPeriod` compares with the calendar.
-/

namespace Keyroost.Piv

inductive X509Error where
  | unsupportedAlgorithm
  | badSubject (reason : String)
  | badValidity
  | badKeyUsage
deriving DecidableEq, Repr

/-- The signature's AlgorithmIdentifier. X25519 cannot sign. -/
def signatureAlgorithm : KeyAlg → Except X509Error (List UInt8)
  | .rsa1024 | .rsa2048 | .rsa3072 | .rsa4096 =>
      .ok [0x30, 0x0D, 0x06, 0x09, 0x2A, 0x86, 0x48, 0x86, 0xF7, 0x0D, 0x01, 0x01, 0x0B, 0x05,
        0x00]
  | .eccP256 => .ok [0x30, 0x0A, 0x06, 0x08, 0x2A, 0x86, 0x48, 0xCE, 0x3D, 0x04, 0x03, 0x02]
  | .eccP384 => .ok [0x30, 0x0A, 0x06, 0x08, 0x2A, 0x86, 0x48, 0xCE, 0x3D, 0x04, 0x03, 0x03]
  | .eccP521 => .ok [0x30, 0x0A, 0x06, 0x08, 0x2A, 0x86, 0x48, 0xCE, 0x3D, 0x04, 0x03, 0x04]
  | .ed25519 => .ok [0x30, 0x05, 0x06, 0x03, 0x2B, 0x65, 0x70]
  | .x25519 => .error .unsupportedAlgorithm

/-! ### The subject -/

inductive NameAttr where
  | commonName
  | organization
  | organizationalUnit
  | country
  | locality
  | stateOrProvince
deriving DecidableEq, Repr

def NameAttr.oid : NameAttr → List UInt8
  | .commonName => [0x06, 0x03, 0x55, 0x04, 0x03]
  | .country => [0x06, 0x03, 0x55, 0x04, 0x06]
  | .locality => [0x06, 0x03, 0x55, 0x04, 0x07]
  | .stateOrProvince => [0x06, 0x03, 0x55, 0x04, 0x08]
  | .organization => [0x06, 0x03, 0x55, 0x04, 0x0A]
  | .organizationalUnit => [0x06, 0x03, 0x55, 0x04, 0x0B]

structure SubjectName where
  parts : List (NameAttr × RustStr)
deriving DecidableEq, Repr

def nameAttr (typ : RustStr) : Option NameAttr :=
  if typ = "CN".toList then some .commonName
  else if typ = "O".toList then some .organization
  else if typ = "OU".toList then some .organizationalUnit
  else if typ = "C".toList then some .country
  else if typ = "L".toList then some .locality
  else if typ = "ST".toList then some .stateOrProvince
  else none

/-- One `TYPE=value` of a subject. -/
def parsePart (raw : RustStr) : Except X509Error (NameAttr × RustStr) :=
  match RustStr.splitOnce '=' raw with
  | none => .error (.badSubject "expected TYPE=value pairs")
  | some (typ, value) =>
      let value := RustStr.trim value
      if value = [] then .error (.badSubject "empty attribute value")
      else
        match nameAttr (RustStr.toAsciiUppercase (RustStr.trim typ)) with
        | none => .error (.badSubject "unsupported attribute (use CN, O, OU, C, L, ST)")
        | some attr =>
            if attr = .country ∧ (RustStr.len value ≠ 2 ∨ ¬ RustStr.isAscii value) then
              .error (.badSubject "country (C) must be a 2-letter code")
            else .ok (attr, value)

def SubjectName.parse (s : RustStr) : Except X509Error SubjectName := do
  let parts ← (((s.splitOn ',').map RustStr.trim).filter (· ≠ [])).mapM parsePart
  if parts = [] then .error (.badSubject "subject is empty (need e.g. CN=…)")
  else return ⟨parts⟩

/-- One RDN with one attribute. Countries are PrintableStrings, the rest UTF8Strings. -/
def rdnDer (part : NameAttr × RustStr) : List UInt8 :=
  derTlv 0x31 (derSeq [part.1.oid,
    derTlv (if part.1 = .country then 0x13 else 0x0C) (RustStr.asBytes part.2)])

def SubjectName.toDer (subject : SubjectName) : List UInt8 :=
  derSeq (subject.parts.map rdnDer)

/-! ### The validity -/

def daysFromCivil (y m d : Int) : Int :=
  let y := if m ≤ 2 then y - 1 else y
  let era := (if 0 ≤ y then y else y - 399).tdiv 400
  let yoe := y - era * 400
  let doy := (153 * (m + if 2 < m then -3 else 9) + 2).tdiv 5 + d - 1
  let doe := yoe * 365 + yoe / 4 - yoe / 100 + doy
  era * 146097 + doe - 719468

def MAX_EXPIRATION_YEAR : Int := 9999

def maxExpirationUnixSecs : Int := daysFromCivil MAX_EXPIRATION_YEAR 12 31 * 86400 + 86399

structure CivilTime where
  year : Int
  month : Int
  day : Int
  hour : Int
  minute : Int
  second : Int
deriving DecidableEq, Repr

def civilFromUnix (unixSecs : Int) : CivilTime :=
  let days := unixSecs / 86400
  let secs := unixSecs % 86400
  let z := days + 719468
  let era := z / 146097
  let doe := z % 146097
  let yoe := (doe - doe / 1460 + doe / 36524 - doe / 146096) / 365
  let y := yoe + era * 400
  let doy := doe - (365 * yoe + yoe / 4 - yoe / 100)
  let mp := (5 * doy + 2) / 153
  let d := doy - (153 * mp + 2) / 5 + 1
  let mo := if mp < 10 then mp + 3 else mp - 9
  let y := if mo ≤ 2 then y + 1 else y
  ⟨y, mo, d, secs / 3600, secs % 3600 / 60, secs % 60⟩

/-- `{n:0width}`: the sign counts towards the width. -/
def zeroPadded (width : Nat) (n : Int) : RustStr :=
  if n < 0 then '-' :: (RustStr.decimal n.natAbs).leftpad (width - 1) '0'
  else (RustStr.decimal n.natAbs).leftpad width '0'

/-- Month, day and time of day, in Zulu time. -/
def CivilTime.digits (t : CivilTime) : RustStr :=
  zeroPadded 2 t.month ++ zeroPadded 2 t.day ++ zeroPadded 2 t.hour ++ zeroPadded 2 t.minute ++
    zeroPadded 2 t.second ++ ['Z']

/-- UTCTime through 2049, GeneralizedTime from then on. -/
def derTime (unixSecs : Int) : List UInt8 :=
  let t := civilFromUnix (min unixSecs maxExpirationUnixSecs)
  if 1950 ≤ t.year ∧ t.year < 2050 then
    derTlv 0x17 (RustStr.asBytes (zeroPadded 2 (t.year % 100) ++ t.digits))
  else derTlv 0x18 (RustStr.asBytes (zeroPadded 4 t.year ++ t.digits))

/-! ### The key usage -/

/-- A set of the nine named bits. -/
structure KeyUsage where
  bits : UInt16
deriving DecidableEq, Repr

namespace KeyUsage

def KEY_AGREEMENT : KeyUsage := ⟨(1 : UInt16) <<< 4⟩
def ENCIPHER_ONLY : KeyUsage := ⟨(1 : UInt16) <<< 7⟩
def DECIPHER_ONLY : KeyUsage := ⟨(1 : UInt16) <<< 8⟩

def contains (self other : KeyUsage) : Bool := self.bits &&& other.bits == other.bits

def isValid (self : KeyUsage) : Bool :=
  if self.bits = 0 then false
  else
    let eo := self.contains ENCIPHER_ONLY
    let dc := self.contains DECIPHER_ONLY
    (!(eo || dc) || self.contains KEY_AGREEMENT) && !(eo && dc)

/-- The usage bits as a named-bit BIT STRING: bit 0 is the highest of the first byte, and
trailing zero bits are dropped. -/
def bitString (self : KeyUsage) : List UInt8 :=
  let low := UInt8.ofBitVec (self.bits &&& 0xFF).toUInt8.toBitVec.reverse
  let high := (self.bits >>> 8).toUInt8 <<< 7
  let last := if high ≠ 0 then high else low
  UInt8.ofBitVec last.toBitVec.ctz :: if high ≠ 0 then [low, high] else [low]

def extensionDer (self : KeyUsage) (critical : Bool) : Except X509Error (List UInt8) :=
  if !self.isValid then .error .badKeyUsage
  else
    let oid := derTlv 0x06 [0x55, 0x1D, 0x0F]
    let value := derTlv 0x04 (derTlv 0x03 self.bitString)
    .ok (if critical then derSeq [oid, derTlv 0x01 [0xFF], value] else derSeq [oid, value])

end KeyUsage

structure KeyUsageExt where
  usages : KeyUsage
  critical : Bool
deriving DecidableEq, Repr

def extensionsDer (ku : KeyUsageExt) : Except X509Error (List UInt8) := do
  return derSeq [← ku.usages.extensionDer ku.critical]

/-! ### The certificate -/

/-- The extensions, for a requested key usage. -/
def extensionsMember : Option KeyUsageExt → Except X509Error (List (List UInt8))
  | some ku => do return [derTlv 0xA3 (← extensionsDer ku)]
  | none => .ok []

/-- The subject is the issuer. -/
def tbsCertificate (serial : List UInt8) (alg : KeyAlg) (subject : SubjectName)
    (notBefore notAfter : Int) (spkiDer : List UInt8) (keyUsage : Option KeyUsageExt) :
    Except X509Error (List UInt8) :=
  if notAfter ≤ notBefore then .error .badValidity
  else do
    let sigAlg ← signatureAlgorithm alg
    let name := subject.toDer
    let validity := derSeq [derTime notBefore, derTime notAfter]
    let version := derTlv 0xA0 (derUint [0x02])
    let extensions ← extensionsMember keyUsage
    return derSeq ([version, derUint serial, sigAlg, name, validity, name, spkiDer] ++
      extensions)

def assemble (tbs : List UInt8) (alg : KeyAlg) (signature : List UInt8) :
    Except X509Error (List UInt8) := do
  let sigAlg ← signatureAlgorithm alg
  return derSeq [tbs, sigAlg, derBitstring signature]

end Keyroost.Piv
