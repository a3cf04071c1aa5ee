import Keyroost.Import.Migration

/-!
# The wide file readers

The readers of `keyroost-import/src/bulk.rs`. A file is an Aegis or 2FAS export in JSON, or else a
list of lines, each of them an `otpauth://` URI or a link of Google Authenticator.

What `serde_json` makes of a JSON text is a parameter (`JsonReader`), since that crate is not part
of the repository; the mapping of its result to items, and the whole of the list reader, are the
source's. A file that is refused as a whole is an error, while an account that cannot be read is an
item with a reason in it, which the planner shows and skips.

`Otpauth` and `Migration` hold what one line is read with, `ListItems` says what the items of a
list are, and `Plan` takes the items from here.
-/

namespace Keyroost.Import.Bulk

open Keyroost.Proto

/-! ### JSON exports -/

/-- The `counter` of an entry, read on its own. That it is given twice matters only for a
counter-based code, so it is noted here and refused there. -/
structure CounterOnly where
  value : Option UInt64 := none
  repeated : Bool := false

/-- One entry of an Aegis export, with the fields the Molto2 path reads. What an export may leave
out is optional; the kind and the hash are the texts of the file, which the entry is built from
later. -/
structure AegisEntry where
  typ : RustStr
  name : Option RustStr
  issuer : Option RustStr
  secret : RustStr
  algo : Option RustStr
  digits : Option UInt32
  period : Option UInt32

/-- The `db` field of an Aegis export: a plaintext object or an encrypted
string. -/
inductive DbField (α : Type) where
  | plain (entries : List α)
  | encrypted

/-- One service of a 2FAS export, with its `otp` object. -/
structure Service where
  name : Option RustStr
  secret : RustStr
  account : Option RustStr
  issuer : Option RustStr
  digits : Option UInt32
  period : Option UInt32
  algorithm : Option RustStr
  tokenType : Option RustStr

structure TwofasRoot where
  services : List Service
  servicesEncrypted : Option RustStr

/-- What `serde_json` reads of a text, for each shape the readers ask for. The library is a
parameter, so the results on exports hold whatever it reads; the counts are asked for before the
file is read whole. -/
structure JsonReader where
  aegisCount : RustStr → Option Nat
  aegisRoot : RustStr → Except String (DbField AegisEntry)
  aegisCounters : RustStr → Except String (DbField CounterOnly)
  twofasCount : RustStr → Option Nat
  twofasRoot : RustStr → Except String TwofasRoot
  twofasCounters : RustStr → Except String (List CounterOnly)

/-- Map one JSON-export entry to the wide model. The kind is read before the secret and the secret
before the hash, so an entry with several faults is refused for the first of these. -/
def wideEntry (typ : RustStr) (issuer account : Option RustStr) (secretB32 : RustStr)
    (algo : Option RustStr) (digits period : UInt32) (counter : CounterOnly) :
    Except Unusable ImportEntry := do
  let kind ← typeFromName typ
  let secret ← decodeSecret secretB32
  let hash ← hashFromName (algo.getD "SHA1".toList)
  let kind ← match kind with
    | .totp => pure (OtpKind.totp period)
    | .hotp =>
        if counter.repeated then throw (.malformed "the counter is given more than once")
        else pure (.hotp (counter.value.getD 0))
  finish issuer account secret hash digits kind

/-- `read_db`: the plaintext entries, or the encrypted-vault error. -/
def readDb {α : Type} (root : Except String (DbField α)) : Except BulkError (List α) :=
  match root with
  | .error message => .error (.json message)
  | .ok (.plain entries) => .ok entries
  | .ok .encrypted => .error (.encrypted
      "Aegis export is encrypted; supply a password (CLI: --file-password env:NAME or --file-password stdin)")

/-- The item of entry number `i` of a JSON export. -/
def jsonItem (i : Nat) (issuer account : Option RustStr) (entry : Except Unusable ImportEntry) :
    ImportItem where
  index := i
  label := (nameLabel issuer account).getD ("entry ".toList ++ RustStr.decimal (i + 1))
  entry := entry

/-- `aegis::parse_wide`. The count is looked at before the entries are read, and the counters are
read from the same text a second time, since a counter may be given twice. -/
def aegisParseWide (json : JsonReader) (text : RustStr) : Except BulkError ImportFile := do
  if (json.aegisCount text).any (MAX_ENTRIES < ·) then throw .tooManyEntries
  let entries ← readDb (json.aegisRoot text)
  let counters ← readDb (json.aegisCounters text)
  let items := (entries.zip counters).zipIdx.map fun ((e, c), i) =>
    jsonItem i e.issuer e.name
      (wideEntry e.typ e.issuer e.name e.secret e.algo (e.digits.getD 6) (e.period.getD 30) c)
  if items.isEmpty then throw .emptyFile
  return { format := .aegis, items, batch := none }

/-- `twofas::parse_wide`. An encrypted export is one that has the encrypted list and no services;
the name of a service is its issuer where it states none. -/
def twofasParseWide (json : JsonReader) (text : RustStr) : Except BulkError ImportFile := do
  if (json.twofasCount text).any (MAX_ENTRIES < ·) then throw .tooManyEntries
  let root ← (json.twofasRoot text).mapError BulkError.json
  if root.servicesEncrypted.isSome ∧ root.services.isEmpty then
    throw (.encrypted "2FAS export is encrypted; re-export without a password")
  let counters ← (json.twofasCounters text).mapError BulkError.json
  let items := (root.services.zip counters).zipIdx.map fun ((s, c), i) =>
    let issuer := s.issuer.or s.name
    jsonItem i issuer s.account
      (wideEntry (s.tokenType.getD "TOTP".toList) issuer s.account s.secret s.algorithm
        (s.digits.getD 6) (s.period.getD 30) c)
  if items.isEmpty then throw .emptyFile
  return { format := .twoFas, items, batch := none }

/-! ### Lists of lines -/

/-- The variables of `parse_list_wide`'s loop. -/
structure ListState where
  items : List ImportItem := []
  batch : Option (UInt32 × UInt32) := none

/-- The line carries nothing: it is blank or a comment. -/
def isBlankOrComment (line : RustStr) : Bool := line.isEmpty || line.startsWith ['#']

/-- The label of a line that names no account. -/
def lineLabel (i : Nat) : RustStr := "line ".toList ++ RustStr.decimal (i + 1)

/-- One turn of `parse_list_wide`'s loop. Every item of line `i` gets index `i`,
all the accounts of a migration link included. -/
def listStep (s : ListState) (numbered : RustStr × Nat) : Except BulkError ListState :=
  let (raw, i) := numbered
  let line := raw.trim
  if isBlankOrComment line then .ok s
  else if MAX_ENTRIES ≤ s.items.length then .error .tooManyEntries
  else if Migration.isMigrationUri line then
    match Migration.parseWide line with
    | .error .tooManyEntries => .error .tooManyEntries
    | .ok file =>
        if MAX_ENTRIES < s.items.length + file.items.length then .error .tooManyEntries
        else .ok {
          items := s.items ++ file.items.map fun item => { item with index := i }
          batch := s.batch.or file.batch }
    | .error _ => .ok { s with
        items := s.items ++ [{
          index := i
          label := lineLabel i
          entry := .error (.malformed "the Google Authenticator export couldn't be read") }] }
  else
    let (name, entry) := Otpauth.parseEntryLabeled line
    .ok { s with items := s.items ++ [{ index := i, label := name.getD (lineLabel i), entry }] }

/-- One entry per line, unusable lines carrying their reason. -/
def parseListWide (text : RustStr) : Except BulkError ImportFile := do
  let s ← (RustStr.lines text).zipIdx.foldlM listStep {}
  if s.items.isEmpty then throw .emptyFile
  return { format := .otpauthList, items := s.items, batch := s.batch }

/-- JSON goes to Aegis (an encrypted vault is reported as such), then 2FAS;
anything else is read as a list. -/
def parseAnyWide (json : JsonReader) (text : RustStr) : Except BulkError ImportFile :=
  if (RustStr.trimStart text).startsWith ['{'] then
    match aegisParseWide json text with
    | .ok file => .ok file
    | .error (.encrypted message) => .error (.encrypted message)
    | .error _ => twofasParseWide json text
  else parseListWide text

end Keyroost.Import.Bulk
