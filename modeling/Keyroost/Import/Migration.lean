import Keyroost.Import.Otpauth

/-!
# Google Authenticator exports

The `data` parameter of an `otpauth-migration://` link is base64 of a protobuf message with one
account per field 1. Two readers of `keyroost-import` take it apart:

* the narrow one (`parsePayload`, `keyroost-import/src/migration.rs`) keeps what a Molto2 can hold
  and skips the rest with a reason;
* the wide one (`parsePayloadWide`, `keyroost-import/src/bulk.rs`) makes one item of every account.

They share the protobuf wire reader and nothing else, so each has its own body for a field and its
own end of an account; the loop around both is that of `FieldLoop`. `MigrationAgreement` compares
the two.
-/

namespace Keyroost.Import

open Keyroost.Proto

/-! ### What the narrow readers produce -/

/-- One normalized entry ready to be programmed into a Molto2 slot. -/
structure BulkEntry where
  issuer : Option RustStr
  account : Option RustStr
  secret : List UInt8
  algorithm : HmacAlgo
  digits : OtpDigits
  timeStep : TimeStep
deriving DecidableEq, Repr

/-- `BulkEntry::from(OtpAuth)`. -/
def BulkEntry.fromOtpAuth (p : Otpauth.OtpAuth) : BulkEntry where
  issuer := p.issuer
  account := p.account
  secret := p.secret
  algorithm := p.algorithm
  digits := p.digits
  timeStep := p.timeStep

inductive BulkError where
  | json (message : String)
  | encrypted (message : String)
  | unsupportedFormat (message : String)
  | entryRejected (index : Nat) (reason : Otpauth.OtpAuthError)
  | emptyFile
  | tooManyEntries
  | wrongPassword
deriving DecidableEq, Repr

/-- An entry that couldn't be converted, and the reason. -/
structure Skipped where
  label : RustStr
  reason : String
deriving DecidableEq, Repr

/-- Outcome of parsing one migration QR payload: the accounts a Molto2 can take, the others with the
reason, and which part of how many this payload says that it is. -/
structure Migration where
  entries : List BulkEntry
  skipped : List Skipped
  batch : Option (UInt32 × UInt32)
deriving DecidableEq, Repr

namespace Migration

/-! ### The protobuf wire reader

A reader is the bytes still to read; every operation returns the bytes after
what it read. -/

def MALFORMED : BulkError := .unsupportedFormat "malformed migration protobuf"

/-- `varint`'s loop, with `left` of its ten turns to go. -/
def varintLoop : Nat → Nat → UInt64 → List UInt8 → Except BulkError (UInt64 × List UInt8)
  | 0, _, _, _ => .error MALFORMED
  | _ + 1, _, _, [] => .error MALFORMED
  | left + 1, i, v, b :: rest =>
      let v := v ||| ((b &&& 0x7f).toUInt64 <<< (7 * i).toUInt64)
      if b &&& 0x80 = 0 then .ok (v, rest) else varintLoop left (i + 1) v rest

def varint (buf : List UInt8) : Except BulkError (UInt64 × List UInt8) :=
  varintLoop 10 0 0 buf

/-- The next field number and wire type, or nothing at the end of the input. -/
def key (buf : List UInt8) : Except BulkError (Option ((UInt64 × UInt8) × List UInt8)) :=
  if buf = [] then .ok none
  else do
    let (k, rest) ← varint buf
    return some ((k >>> 3, (k &&& 0x7).toUInt8), rest)

/-- A length-delimited field. -/
def bytes (buf : List UInt8) : Except BulkError (List UInt8 × List UInt8) := do
  let (len, rest) ← varint buf
  if rest.length < len.toNat then throw MALFORMED
  return (rest.take len.toNat, rest.drop len.toNat)

/-- A fixed-width field, left behind. -/
def fixed (width : Nat) (buf : List UInt8) : Except BulkError (List UInt8) :=
  if buf.length < width then .error MALFORMED else .ok (buf.drop width)

/-- Leave an unknown field behind. -/
def skip (wire : UInt8) (buf : List UInt8) : Except BulkError (List UInt8) :=
  if wire = 0 then (·.2) <$> varint buf
  else if wire = 1 then fixed 8 buf
  else if wire = 2 then (·.2) <$> bytes buf
  else if wire = 5 then fixed 4 buf
  else .error MALFORMED

/-- What the loop body does with one field: the variables after it, and the bytes
after the field. -/
abbrev FieldBody (σ : Type) :=
  σ → UInt64 × UInt8 → List UInt8 → Except BulkError (σ × List UInt8)

/-- `while let Some((field, wire)) = r.key()?`, with at most `fuel` fields. Every
field takes a byte, so the input's length is enough fuel. -/
def fieldLoop {σ : Type} (body : FieldBody σ) : Nat → σ → List UInt8 → Except BulkError σ
  | 0, s, buf => do
      match ← key buf with
      | none => return s
      | some _ => throw MALFORMED
  | fuel + 1, s, buf => do
      match ← key buf with
      | none => return s
      | some (field, rest) =>
          let (s, rest) ← body s field rest
          fieldLoop body fuel s rest

/-- Read a whole message. -/
def readMessage {σ : Type} (body : FieldBody σ) (init : σ) (buf : List UInt8) :
    Except BulkError σ :=
  fieldLoop body buf.length init buf

/-! ### One account -/

/-- The fields of an `OtpParameters` message. The narrow reader leaves the
counter alone. -/
structure OtpParameters where
  secret : List UInt8 := []
  name : RustStr := []
  issuer : RustStr := []
  algorithm : UInt64 := 0
  digits : UInt64 := 0
  typ : UInt64 := 0
  counter : UInt64 := 0
deriving DecidableEq, Repr

/-- The loop body of `convert`. -/
def convertBody : FieldBody OtpParameters := fun p field buf => do
  if field = (1, 2) then
    let (secret, rest) ← bytes buf
    return ({ p with secret }, rest)
  else if field = (2, 2) then
    let (name, rest) ← bytes buf
    return ({ p with name := Utf8.fromUtf8Lossy name }, rest)
  else if field = (3, 2) then
    let (issuer, rest) ← bytes buf
    return ({ p with issuer := Utf8.fromUtf8Lossy issuer }, rest)
  else if field = (4, 0) then
    let (algorithm, rest) ← varint buf
    return ({ p with algorithm }, rest)
  else if field = (5, 0) then
    let (digits, rest) ← varint buf
    return ({ p with digits }, rest)
  else if field = (6, 0) then
    let (typ, rest) ← varint buf
    return ({ p with typ }, rest)
  else
    let rest ← skip field.2 buf
    return (p, rest)

/-- The loop body of `convert_wide`, which also reads the counter. -/
def convertWideBody : FieldBody OtpParameters := fun p field buf => do
  if field = (7, 0) then
    let (counter, rest) ← varint buf
    return ({ p with counter }, rest)
  else convertBody p field buf

/-- The algorithm of a Molto2 entry; unspecified is SHA-1. -/
def narrowAlgorithm (algorithm : UInt64) : Option HmacAlgo :=
  if algorithm = 0 ∨ algorithm = 1 then some .sha1
  else if algorithm = 2 then some .sha256
  else none

/-- The code length of a Molto2 entry; unspecified is six. -/
def narrowDigits (digits : UInt64) : Option OtpDigits :=
  if digits = 0 ∨ digits = 1 then some .six
  else if digits = 2 then some .eight
  else none

/-- `Issuer:account`, or the account alone. -/
def narrowLabel (name : RustStr) : Option RustStr × Option RustStr :=
  match RustStr.splitOnce ':' name with
  | some (i, a) => (some (RustStr.trim i), some (RustStr.trim a))
  | none => if name.isEmpty then (none, none) else (none, some (RustStr.trim name))

/-- The label a skipped account is listed under. -/
def OtpParameters.label (p : OtpParameters) : RustStr :=
  if p.issuer.isEmpty then p.name
  else if p.name.isEmpty then p.issuer
  else p.issuer ++ ':' :: p.name

/-- The checks of `convert`, after its loop. The first that fails is the reason the account is
skipped; the issuer of the payload goes before the one in the name. -/
def narrowEntry (p : OtpParameters) : Except Skipped BulkEntry :=
  let skip reason := Except.error { label := p.label, reason : Skipped }
  if p.typ ≠ 0 ∧ p.typ ≠ 2 then skip "HOTP is not supported by the Molto2"
  else
    match narrowAlgorithm p.algorithm with
    | none => skip "only SHA-1 / SHA-256 are supported"
    | some algorithm =>
        match narrowDigits p.digits with
        | none => skip "unsupported digit count"
        | some digits =>
            if p.secret = [] ∨ 63 < p.secret.length then skip "secret must be 1..=63 bytes"
            else
              let (labelIssuer, account) := narrowLabel p.name
              .ok {
                issuer := nonEmpty (if p.issuer.isEmpty then labelIssuer else some p.issuer)
                account := nonEmpty account
                secret := p.secret
                algorithm, digits
                timeStep := .seconds30 }

/-- Convert one `OtpParameters` message; the inner error is the skip reason. -/
def convert (buf : List UInt8) : Except BulkError (Except Skipped BulkEntry) :=
  narrowEntry <$> readMessage convertBody {} buf

/-- Type 0 is unspecified and read as TOTP; exports are always at 30 seconds. -/
def wideKind (typ counter : UInt64) : Except Unusable OtpKind :=
  if typ = 0 ∨ typ = 2 then .ok (.totp 30)
  else if typ = 1 then .ok (.hotp counter)
  else .error (.type ("type ".toList ++ RustStr.decimal typ.toNat))

def wideHash (algorithm : UInt64) : Except Unusable HashAlg :=
  if algorithm = 0 ∨ algorithm = 1 then .ok .sha1
  else if algorithm = 2 then .ok .sha256
  else if algorithm = 3 then .ok .sha512
  else if algorithm = 4 then .error (.hash "MD5".toList)
  else .error (.hash ("algorithm ".toList ++ RustStr.decimal algorithm.toNat))

/-- An enumeration, not a count. -/
def wideDigits (digits : UInt64) : Except Unusable UInt32 :=
  if digits = 0 ∨ digits = 1 then .ok 6
  else if digits = 2 then .ok 8
  else .error (.malformed "the digit count isn't one keyroost knows")

/-- The entry of an account, or why there is none. -/
def wideEntry (issuer account : Option RustStr) (p : OtpParameters) :
    Except Unusable ImportEntry := do
  let kind ← wideKind p.typ p.counter
  let secret ← checkSecret p.secret
  let hash ← wideHash p.algorithm
  let digits ← wideDigits p.digits
  finish issuer account secret hash digits kind

/-- The checks of `convert_wide`, after its loop: the name, and the entry or why
there is none. -/
def wideEntryOf (p : OtpParameters) : Option RustStr × Except Unusable ImportEntry :=
  let (labelIssuer, account) := Otpauth.splitLabel p.name
  let issuer := nonEmpty (if p.issuer.isEmpty then labelIssuer else some p.issuer)
  let account := nonEmpty account
  (nameLabel issuer account, wideEntry issuer account p)

/-- One `OtpParameters` message in the wide model, with its display name. -/
def convertWide (buf : List UInt8) :
    Except BulkError (Option RustStr × Except Unusable ImportEntry) :=
  wideEntryOf <$> readMessage convertWideBody {} buf

/-! ### The whole payload -/

def batchOf (index size : Option UInt32) : Option (UInt32 × UInt32) :=
  match index, size with
  | some i, some n => if 1 < n then some (i, n) else none
  | _, _ => none

def noAccounts : BulkError := .unsupportedFormat "migration payload contains no accounts"

/-- The variables of `parse_payload`. -/
structure NarrowPayload where
  entries : List BulkEntry := []
  skipped : List Skipped := []
  batchSize : Option UInt32 := none
  batchIndex : Option UInt32 := none

def payloadBody : FieldBody NarrowPayload := fun s field buf => do
  if field = (1, 2) then
    let (account, rest) ← bytes buf
    match ← convert account with
    | .ok e => return ({ s with entries := s.entries ++ [e] }, rest)
    | .error skipped => return ({ s with skipped := s.skipped ++ [skipped] }, rest)
  else if field = (3, 0) then
    let (size, rest) ← varint buf
    return ({ s with batchSize := some size.toUInt32 }, rest)
  else if field = (4, 0) then
    let (index, rest) ← varint buf
    return ({ s with batchIndex := some index.toUInt32 }, rest)
  else
    let rest ← skip field.2 buf
    return (s, rest)

/-- Parse the raw protobuf `MigrationPayload`. -/
def parsePayload (buf : List UInt8) : Except BulkError Migration := do
  let s ← readMessage payloadBody {} buf
  if s.entries = [] ∧ s.skipped = [] then throw noAccounts
  return { entries := s.entries, skipped := s.skipped, batch := batchOf s.batchIndex s.batchSize }

/-- The variables of `parse_payload_wide`. -/
structure WidePayload where
  items : List ImportItem := []
  batchSize : Option UInt32 := none
  batchIndex : Option UInt32 := none

def payloadWideBody : FieldBody WidePayload := fun s field buf => do
  if field = (1, 2) then
    let index := s.items.length
    if MAX_ENTRIES ≤ index then throw .tooManyEntries
    let (account, rest) ← bytes buf
    let (label, entry) ← convertWide account
    let label := label.getD ("entry ".toList ++ RustStr.decimal (index + 1))
    return ({ s with items := s.items ++ [{ index, label, entry }] }, rest)
  else if field = (3, 0) then
    let (size, rest) ← varint buf
    return ({ s with batchSize := some size.toUInt32 }, rest)
  else if field = (4, 0) then
    let (index, rest) ← varint buf
    return ({ s with batchIndex := some index.toUInt32 }, rest)
  else
    let rest ← skip field.2 buf
    return (s, rest)

/-- `parse_wide` over the raw protobuf `MigrationPayload`. -/
def parsePayloadWide (buf : List UInt8) : Except BulkError ImportFile := do
  let s ← readMessage payloadWideBody {} buf
  if s.items.isEmpty then throw noAccounts
  return { format := .googleExport, items := s.items, batch := batchOf s.batchIndex s.batchSize }

/-! ### The link -/

def isMigrationUri (uri : RustStr) : Bool :=
  (RustStr.trimStart uri).startsWith "otpauth-migration://".toList

/-- The raw payload of a migration link. The last `data=` counts. -/
def decodeUri (uri : RustStr) : Except BulkError (List UInt8) :=
  match RustStr.stripPrefix "otpauth-migration://offline".toList (RustStr.trim uri) with
  | none => .error (.unsupportedFormat "not an otpauth-migration://offline URI")
  | some rest =>
      let query := (RustStr.stripPrefix ['?'] rest).getD rest
      let data := (query.splitOn '&').foldl
        (fun data kv => (RustStr.stripPrefix "data=".toList kv).or data) none
      match data with
      | none => .error (.unsupportedFormat "migration URI has no data= parameter")
      | some data =>
          match Otpauth.percentDecodeKeepPlus data with
          | none => .error (.unsupportedFormat "bad percent-encoding in data")
          | some data =>
              match Codec.base64Decode data with
              | .error _ => .error (.unsupportedFormat "migration data is not valid base64")
              | .ok payload => .ok payload

/-- Parse a migration link into what a Molto2 can store. -/
def parse (uri : RustStr) : Except BulkError Migration := decodeUri uri >>= parsePayload

/-- Every account of a migration link, in the wide model. -/
def parseWide (uri : RustStr) : Except BulkError ImportFile := decodeUri uri >>= parsePayloadWide

end Migration

end Keyroost.Import
