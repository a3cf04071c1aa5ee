import Keyroost.Ctap.Cbor
import Keyroost.Ctap.Entry

/-!
# A key's own name

A name written on the key itself, from `keyroost-ctap/src/device_label.rs`: one entry of the
large-blob array, encrypted under a published key so that it has the shape of every other entry.

A label's text and writer are checked by `fits` before they are written, and again when an entry is
read (`decodeEntry`): without a text that fits it is no name entry, and a writer that does not fit
is left out. What is encrypted is
the plaintext in one stored block of DEFLATE (`storedDeflate`), as the source writes it. The
encryption and the inflater are those of `Entry`.
-/

namespace Keyroost.Ctap

open Cbor

/-- The string hashed to the key every name entry is encrypted under. -/
def LABEL_KEY_INFO : List UInt8 := "FIDO2 large-blob device label v1".toList.map Char.toUInt8

def LABEL_FORMAT_VERSION : UInt64 := 1

/-- Longest label, in characters. -/
def MAX_LABEL_CHARS : Nat := 64

def P_VERSION : UInt64 := 1
def P_LABEL : UInt64 := 2
def P_WRITER : UInt64 := 3

/-- A key's name as stored on the key, and the tool that wrote it if it said. -/
structure DeviceLabel where
  label : RustStr
  writer : Option RustStr
deriving DecidableEq, Repr

/-- What stops a large-blob operation. A status other than zero is kept as the key gave it, and a
response of another shape with the text that says which part of it was wrong; `transport` is a
failure below CTAP. -/
inductive CtapError where
  | cbor (e : CborError)
  | statusCode (status : UInt8)
  | emptyResponse
  | invalidResponseShape (message : String)
  | transport (message : String)
deriving DecidableEq, Repr

/-- Why a name could not be built, planned or written. All but `ctap` is said before anything was
written. -/
inductive LabelError where
  | invalidLabel
  | unsupported
  | noPin
  | tooLarge (size max : UInt64)
  | changed
  | ctap (e : CtapError)
deriving DecidableEq, Repr

namespace DeviceLabel

def labelKey (c : Crypto) : List UInt8 := c.sha256 LABEL_KEY_INFO

/-- Whether `s` has 1 to 64 characters. -/
def fits (s : RustStr) : Bool := decide (1 ≤ s.length ∧ s.length ≤ MAX_LABEL_CHARS)

/-- `{1: 1, 2: label, 3?: writer}`. -/
def plaintext (l : DeviceLabel) : Except LabelError (List UInt8) :=
  if fits l.label = false ∨ l.writer.any (fun w => !fits w) = true then .error .invalidLabel
  else
    .ok (encode (.map
      ([(.uInt P_VERSION, .uInt LABEL_FORMAT_VERSION), (.uInt P_LABEL, .text l.label)] ++
        (l.writer.map fun w => (Value.uInt P_WRITER, Value.text w)).toList)))

/-- `data` as one stored DEFLATE block. -/
def storedDeflate (data : List UInt8) : List UInt8 :=
  let len := data.length.toUInt16
  0x01 :: Bytes.le 2 len.toNat ++ Bytes.le 2 (~~~len).toNat ++ data

/-- The entry holding `l`. -/
def encodeEntry (c : Crypto) (l : DeviceLabel) (nonce : Nonce) :
    Except LabelError LargeBlobEntry := do
  let p ← plaintext l
  let origSize := p.length.toUInt64
  let ciphertext := c.gcmEncrypt (labelKey c) nonce.val (storedDeflate p) origSize
  return .built ciphertext nonce.val origSize

/-- The name `e` holds, or nothing when `e` is not a name entry. Every entry of an array may be
another program's, so nothing here is an error. -/
def decodeEntry (c : Crypto) (e : LargeBlobEntry) : Option DeviceLabel := do
  let compressed ← c.gcmDecrypt (labelKey c) e.nonce e.ciphertext e.origSize
  let p ← c.inflateRaw compressed e.origSize
  match decode p with
  | .ok (map, []) =>
      let _ ← map.asMap
      let version ← (← map.getUIntKey P_VERSION).asUInt
      if version ≠ LABEL_FORMAT_VERSION then none
      let label ← ((← map.getUIntKey P_LABEL).asText).filter fits
      let writer := ((map.getUIntKey P_WRITER).bind Value.asText).filter fits
      return { label, writer }
  | _ => none

end DeviceLabel

end Keyroost.Ctap
