import Keyroost.Keyring.Ring

/-!
# Versions of `keys.json`

The version 2 file that is read and written, the version 1 file with plain serials, and how they
are told apart, from `keyroost-keyring/src/lib.rs`.

Reading and writing JSON text is the work of `serde_json`, which is not part of the repository. It
is the parameter `Serde`, with the one law that a file that was written is read back
(`Serde.Lawful`). What the source decides on the parsed value, the version that is tried, what is
damaged and with which position, is modelled as it stands, and so is the conversion of records with
plain serials (`convertV1`).
-/

namespace Keyroost.Keyring

def FORMAT_VERSION : Nat := 2

/-! ### JSON -/

/-- A JSON value; of a number, only what `as_u64` says of it. That is all the keyring's readers ask
of one. -/
inductive Value where
  | null
  | bool (b : Bool)
  | number (asU64 : Option Nat)
  | string (text : RustStr)
  | array (items : List Value)
  | object (fields : List (RustStr × Value))
deriving Repr

namespace Value

def get (key : RustStr) : Value → Option Value
  | object fields => (fields.find? fun field => decide (field.1 = key)).map (·.2)
  | _ => none

def asU64 : Value → Option Nat
  | number n => n
  | _ => none

def asArray : Value → Option (List Value)
  | array items => some items
  | _ => none

def isString : Value → Bool
  | string _ => true
  | _ => false

def isEmptyObject : Value → Bool
  | object fields => fields.isEmpty
  | _ => false

end Value

inductive Category where
  | io
  | wording
  | data
  | eof
deriving DecidableEq, Repr

/-- `serde_json::Error`, where `wording` is a fault in the JSON text itself. -/
structure JsonError where
  category : Category
  line : Nat
  column : Nat
deriving DecidableEq, Repr

/-! ### Files -/

/-- `keys.json` as written. -/
structure FileOut where
  version : Nat
  keys : List KeyRecord
deriving DecidableEq, Repr

/-- `keys.json` as read (version 2). -/
structure FileIn where
  keys : List KeyRecord
deriving DecidableEq, Repr

structure EntryV1 where
  name : RustStr
  serial : RustStr
  source : IdSource
  vendor : Option RustStr
  aaguid : Option RustStr
  note : Option RustStr
deriving DecidableEq, Repr

/-- A version 1 file: one entry for each name, with its plain serial. -/
structure FileV1 where
  keys : List EntryV1
deriving DecidableEq, Repr

inductive Format where
  | v1 (file : FileV1)
  | v2 (file : FileIn)
  | newer (version : Nat)
deriving DecidableEq, Repr

/-- Reading and writing JSON text, and what the derived instances make of the values. The library is
a parameter; what is relied on is `Serde.Lawful`. -/
structure Serde where
  fromStr : RustStr → Except JsonError Value
  toStringPretty : FileOut → Except JsonError RustStr
  fileIn : Value → Except JsonError FileIn
  fileV1 : Value → Except JsonError FileV1

/-- A file that was written reads back, white space after it allowed. This is all that is asked of
the JSON library. -/
structure Serde.Lawful (serde : Serde) : Prop where
  reads : ∀ file text, serde.toStringPretty file = .ok text →
    ∃ value, serde.fromStr (text ++ ['\n']) = .ok value ∧
      value.get "version".toList = some (.number (some file.version)) ∧
      serde.fileIn value = .ok { keys := file.keys }

/-! ### Reading -/

def parseDetail (e : JsonError) : String :=
  let kind := match e.category with
    | .io => "unreadable"
    | .wording => "invalid JSON"
    | .data => "unexpected contents"
    | .eof => "truncated"
  if e.line = 0 then kind
  else s!"{kind} at line {e.line}, column {e.column}"

def damaged (e : JsonError) : KeyringError := .damaged (parseDetail e)

def isV1 (value : Value) : Bool :=
  value.isEmptyObject ||
    ((value.get "keys".toList).bind Value.asArray).any fun keys =>
      keys.all fun k => (k.get "serial".toList).any Value.isString

section Text

variable (serde : Serde)

def parse (text : RustStr) : Except KeyringError Format :=
  match serde.fromStr text with
  | .error e => .error (damaged e)
  | .ok value =>
      match (value.get "version".toList).map Value.asU64 with
      | some (some v) =>
          if v = FORMAT_VERSION then
            match serde.fileIn value with
            | .error e => .error (damaged e)
            | .ok file => .ok (.v2 file)
          else if FORMAT_VERSION < v then .ok (.newer v)
          else .error (.damaged "unsupported version")
      | some none => .error (.damaged "unsupported version")
      | none =>
          if isV1 value then
            match serde.fileV1 value with
            | .error e => .error (damaged e)
            | .ok file => .ok (.v1 file)
          else .error (.damaged "unrecognized layout")

/-! ### Writing -/

def Ring.toJson (ring : Ring) : Except KeyringError RustStr :=
  match serde.toStringPretty { version := FORMAT_VERSION, keys := ring.keys } with
  | .error e => .error (.parse (parseDetail e))
  | .ok text => .ok text

/-- The bytes that `keys.json` holds for `json`. -/
def fileBytes (json : RustStr) : List UInt8 := RustStr.asBytes json ++ [0x0A]

end Text

/-- Entries of version 1 as records. -/
def convertV1 (h : Hasher) (salt : Salt) (old : FileV1) : List KeyRecord :=
  old.keys.map fun e =>
    sanitizeRecord
      { name := e.name
        fingerprint := if (canonicalSerial h e.serial).isEmpty then none
          else some (fingerprint h salt e.serial)
        stored := .computer, source := e.source, vendor := e.vendor, aaguid := e.aaguid,
        note := e.note }

end Keyroost.Keyring
