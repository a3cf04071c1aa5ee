import Keyroost.Import.Entry

/-!
# The import plan

The planner of `keyroost-import/src/plan.rs`. For one destination, what each entry of a file
becomes: added, replacing a same-name entry, already there, or skipped with a reason.

One pass over the items carries the names planned so far and the next Molto2 slot (`planItems`); a
second pass over the rows takes back the adds that no longer fit on the key (`roomPass`). What a key
can hold is a table of rules by store and firmware, and the texts that a row shows are built from
it.

`PlanInvariant` reads one turn of the first pass once and for all, `PlanSound` says what a plan
promises, and `PlanRows` ties each row to the items before it.
-/

namespace Keyroost.Import

/-! ### Destinations -/

/-- A firmware version. -/
abbrev Version := UInt8 × UInt8 × UInt8

/-- The order of version tuples: the first part that differs decides. -/
def Version.lt (v w : Version) : Bool :=
  v.1 < w.1 || v.1 == w.1 && (v.2.1 < w.2.1 || v.2.1 == w.2.1 && v.2.2 < w.2.2)

/-- Which OATH applet the key carries, as far as limits go. Hashes, digits, periods, counters and
lengths are planned by the family, and by the version where the applet reports one. -/
inductive OathFamily where
  | yubiKey (version : Option Version)
  | solo2
  | nitrokey3
  | other
deriving DecidableEq, Repr

/-- Which kind of storage the codes go to. Devices with an OATH applet differ in what they take, so
their family is part of it. -/
inductive Store where
  | molto2
  | oath (family : OathFamily)
  | token2Otp
deriving DecidableEq, Repr

/-- The device as a reason names it. -/
def Store.deviceName : Store → String
  | .molto2 => "Molto2"
  | .oath (.yubiKey _) => "YubiKey"
  | .oath .solo2 => "Solo 2"
  | .oath .nitrokey3 => "Nitrokey 3"
  | .oath .other => "this key"
  | .token2Otp => "this Token2 key"

/-- The store has a per-code touch setting. -/
def Store.takesTouch (store : Store) : Bool := store ≠ .molto2

/-- Longest OATH name a Solo 2 takes. -/
def SOLO2_NAME_MAX : Nat := 127

/-- Molto2 slots run #0..=#99. -/
def MOLTO_LAST_SLOT : Nat := 99

/-- How a code is named on the key. -/
inductive StoredName where
  /-- The full OATH name, `period/` prefix included. -/
  | oath (name : RustStr)
  /-- Token2's identity tuple; `app` may be empty. -/
  | token2 (app account : RustStr)
  /-- A Molto2 slot and the title written there. -/
  | molto2 (slot : UInt8) (title : RustStr)
deriving DecidableEq, Repr

/-- `Display` for a stored name. -/
def StoredName.display : StoredName → RustStr
  | .oath n => n
  | .token2 app account => if app.isEmpty then account else app ++ ':' :: account
  | .molto2 slot title =>
      if title.isEmpty then '#' :: RustStr.decimal slot.toNat
      else '#' :: RustStr.decimal slot.toNat ++ ' ' :: title

/-- What the key holds, read just before planning. `hidden` counts the entries
the listing couldn't show. -/
structure Existing where
  names : List StoredName
  hidden : Nat
deriving DecidableEq, Repr

/-- One destination, as the plan sees it: the kind of store, the first Molto2 slot to fill, what is
on the key now, and whether a name that is on it may be replaced. -/
structure Target where
  store : Store
  firstSlot : UInt8
  existing : Existing
  replace : Bool
deriving DecidableEq, Repr

/-! ### Verdicts -/

/-- Why an entry isn't written to this destination. A reason has the value that was refused, and
where there is a bound the bound too, so that the row can say both. -/
inductive Skip where
  | unusable (why : Unusable)
  | noName
  | nameTooLong (len max : Nat)
  | notAscii
  | ambiguousName
  | hash (alg : HashAlg)
  | digits (n : UInt8)
  | period (n : UInt32)
  | periodNotStored (n : UInt32)
  | hotp
  | counter (n : UInt64)
  | secretLength (len max : Nat)
  | tooLongForCommand
  | sameNameInFile (first : Nat)
  | noRoom (capacity : Nat)
  | pastLastSlot
  | startsAnotherName
deriving DecidableEq, Repr

/-- What happens to one entry. `add` and `replace` are written and nothing else is; `exists_` is a
name that is on the key and was not asked to be replaced. -/
inductive Verdict where
  | add
  | replace
  | exists_
  | skip (why : Skip)
deriving DecidableEq, Repr

/-- One entry of the file and what happens to it. `index` is its place in the file, by which the run
finds the entry again; `name` is the name it would be stored under, when it has one. -/
structure PlanRow where
  index : Nat
  label : RustStr
  name : Option StoredName
  verdict : Verdict
  touch : Bool
deriving DecidableEq, Repr

/-- The verdict writes a code. -/
def Verdict.writes (v : Verdict) : Bool := v == .add || v == .replace

/-- The row writes a code (Add or Replace). -/
def PlanRow.writes (row : PlanRow) : Bool := row.verdict.writes

/-- `{:02}`. -/
def twoDigits (n : Nat) : RustStr := if n < 10 then '0' :: RustStr.decimal n else RustStr.decimal n

/-- The row as every list names it: the file's label, with its slot in front for
a Molto2. -/
def PlanRow.shownLabel (row : PlanRow) : RustStr :=
  match row.name with
  | some (.molto2 slot _) => '#' :: twoDigits slot.toNat ++ ' ' :: row.label
  | _ => row.label

/-- Something the person should know about the plan as a whole. -/
inductive Note where
  | replaceMayLoseOld
  | capacityUnknown
  | solo2Hotp
  | nitrokey3TouchToReplace
  | nitrokey3TouchToSave
  | hidden (n : Nat)
  | moltoReplacesSlots
deriving DecidableEq, Repr

/-- The whole plan for one destination: a row for every entry of the file in the file's order, the
room there is, and what the person should know before agreeing to it. -/
structure Plan where
  store : Store
  rows : List PlanRow
  capacity : Option Nat
  onKey : Nat
  replace : Bool
  notes : List Note
deriving DecidableEq, Repr

/-- Rows that write, in file order. -/
def Plan.writes (plan : Plan) : List PlanRow := plan.rows.filter (·.writes)

/-- Make the written rows `wants` picks require a touch, and every other row
not. -/
def Plan.setTouch (plan : Plan) (wants : PlanRow → Bool) : Plan :=
  let takes := plan.store.takesTouch
  let rows := plan.rows.map fun row => { row with touch := takes && row.writes && wants row }
  let notes := plan.notes.filter (· ≠ .nitrokey3TouchToSave)
  { plan with
    rows
    notes :=
      if plan.store = .oath .nitrokey3 ∧ rows.any (·.touch) = true then
        notes ++ [.nitrokey3TouchToSave]
      else notes }

/-! ### The rule table -/

/-- Which TOTP periods a store keeps. -/
inductive PeriodRule where
  | any
  | only30
  | molto2
  | range (low high : UInt32)
deriving DecidableEq, Repr

/-- Whether a store takes HOTP, and with which starting counter: not at all, with any of 32 bits, or
only with zero. -/
inductive HotpRule where
  | no
  | counterU32
  | counterZeroOnly
deriving DecidableEq, Repr

structure Limits where
  nameMax : Option Nat
  asciiOnly : Bool
  hashes : List HashAlg
  digitsLow : UInt8
  digitsHigh : UInt8
  totp : PeriodRule
  hotp : HotpRule
  secretMax : Option Nat
  capacity : Option Nat
deriving DecidableEq, Repr

def SHA1_256 : List HashAlg := [.sha1, .sha256]
def SHA1_256_512 : List HashAlg := [.sha1, .sha256, .sha512]

/-- The per-device rule table. A limit that is not documented is `none`, and is left for the key to
tell. -/
def limits : Store → Limits
  | .oath (.yubiKey version) => {
      nameMax := some 64
      asciiOnly := false
      hashes := if version.any (Version.lt · (4, 3, 1)) then SHA1_256 else SHA1_256_512
      digitsLow := 6, digitsHigh := 8
      totp := .any
      hotp := .counterU32
      secretMax := none
      capacity :=
        match version with
        | some v =>
            if !Version.lt v (5, 7, 0) then some 64
            else if !Version.lt v (4, 0, 0) then some 32
            else none
        | none => none }
  | .oath .solo2 => {
      nameMax := some SOLO2_NAME_MAX
      asciiOnly := false
      hashes := SHA1_256
      digitsLow := 6, digitsHigh := 8
      totp := .any
      hotp := .counterU32
      secretMax := some 64
      capacity := none }
  | .oath .nitrokey3 => {
      nameMax := some 128
      asciiOnly := false
      hashes := SHA1_256
      digitsLow := 6, digitsHigh := 8
      totp := .only30
      hotp := .counterU32
      secretMax := some 128
      capacity := some 50 }
  | .oath .other => {
      nameMax := none
      asciiOnly := false
      hashes := SHA1_256_512
      digitsLow := 6, digitsHigh := 8
      totp := .any
      hotp := .counterU32
      secretMax := none
      capacity := none }
  | .token2Otp => {
      nameMax := some 64
      asciiOnly := true
      hashes := SHA1_256
      digitsLow := 4, digitsHigh := 10
      totp := .range 1 65535
      hotp := .counterZeroOnly
      secretMax := some 64
      capacity := some 50 }
  | .molto2 => {
      nameMax := some 12
      asciiOnly := false
      hashes := SHA1_256
      digitsLow := 4, digitsHigh := 10
      totp := .molto2
      hotp := .no
      secretMax := some 63
      capacity := some 100 }

/-- Molto2 code lengths: 4, 6, 8 or 10. -/
def moltoDigits (d : UInt8) : Bool := d == 4 || d == 6 || d == 8 || d == 10

/-! ### Names -/

def MIN_HMAC_KEY_LEN : Nat := 14

/-- Whether an OATH PUT fits one short APDU. -/
def oathPutFits (nameLen secretLen : Nat) (imf : Bool) : Bool :=
  2 + nameLen + 2 + 2 + max secretLen MIN_HMAC_KEY_LEN + (if imf then 6 else 0) ≤ 255

/-- `<digits>/…`: what ykman reads as a period prefix. -/
def looksLikePeriodPrefix (s : RustStr) : Bool :=
  match RustStr.splitOnce '/' s with
  | some (head, _) => !head.isEmpty && head.all RustStr.isAsciiDigit
  | none => false

/-- The family reads a period in front of a name of this kind. -/
def periodRead (kind : OtpKind) (family : OathFamily) : Bool :=
  match kind with
  | .totp _ => family ≠ .nitrokey3
  | .hotp _ => false

/-- The period that goes in front of the name. -/
def periodPrefix (kind : OtpKind) (family : OathFamily) : Option UInt32 :=
  match kind with
  | .totp period => if period ≠ 30 ∧ periodRead kind family = true then some period else none
  | .hotp _ => none

/-- The name without a period. -/
def oathBase (issuer account : Option RustStr) : Except Skip RustStr :=
  match issuer, account with
  | some i, some a => if i.contains ':' then .error .ambiguousName else .ok (i ++ ':' :: a)
  | some one, none | none, some one =>
      if one.contains ':' then .error .ambiguousName else .ok one
  | none, none => .error .noName

/-- Name an entry for an OATH family, or say why it can't be named. A period that is not the usual
one is put in front where the applet reads it there, and then a name that looks as if it had one is
refused. -/
def oathName (e : ImportEntry) (family : OathFamily) : Except Skip RustStr :=
  match oathBase e.issuer e.account with
  | .error why => .error why
  | .ok base =>
      match periodPrefix e.kind family with
      | some p => .ok (RustStr.decimal p.toNat ++ '/' :: base)
      | none =>
          if periodRead e.kind family = true ∧ looksLikePeriodPrefix base = true then
            .error .ambiguousName
          else .ok base

/-- (app, account) for Token2. -/
def token2Name (e : ImportEntry) : Except Skip (RustStr × RustStr) :=
  match e.issuer, e.account with
  | some i, some a => .ok (i, a)
  | none, some one | some one, none => .ok ([], one)
  | none, none => .error .noName

/-- The code is counter-based and starts past zero, so the PUT carries its
counter. -/
def sendsImf : OtpKind → Bool
  | .hotp counter => counter ≠ 0
  | .totp _ => false

/-- A name part within the store's length. -/
def checkNameLen (max : Option Nat) (part : RustStr) : Except Skip Unit :=
  match max with
  | some max => if max < part.len then .error (.nameTooLong part.len max) else .ok ()
  | none => .ok ()

/-- The stored name, checked for length, ASCII and command fit. -/
def nameFor (e : ImportEntry) (store : Store) (lim : Limits) : Except Skip StoredName :=
  match store with
  | .oath family => do
      let name ← oathName e family
      checkNameLen lim.nameMax name
      if !oathPutFits name.len e.secret.val.length (sendsImf e.kind) then
        throw .tooLongForCommand
      return .oath name
  | .token2Otp => do
      let (app, account) ← token2Name e
      if !(RustStr.isAscii app && RustStr.isAscii account) then throw .notAscii
      checkNameLen lim.nameMax app
      checkNameLen lim.nameMax account
      return .token2 app account
  -- `unreachable!`: a Molto2 name is assigned with its slot.
  | .molto2 => .error .noName

/-! ### Parameters -/

/-- The period or counter check. That the store takes HOTP at all was checked before, so here `no`
passes. -/
def checkKind (kind : OtpKind) (lim : Limits) : Except Skip Unit :=
  match kind with
  | .totp period =>
      match lim.totp with
      | .any => .ok ()
      | .only30 => if period ≠ 30 then .error (.periodNotStored period) else .ok ()
      | .molto2 => if period ≠ 30 ∧ period ≠ 60 then .error (.period period) else .ok ()
      | .range low high =>
          if low ≤ period ∧ period ≤ high then .ok () else .error (.period period)
  | .hotp counter =>
      match lim.hotp with
      | .counterU32 => if 0xFFFFFFFF < counter then .error (.counter counter) else .ok ()
      | .counterZeroOnly => if counter ≠ 0 then .error (.counter counter) else .ok ()
      | .no => .ok ()

/-- Kind, hash, digits, period, counter, secret: the first failure wins. -/
def checkParams (e : ImportEntry) (store : Store) (lim : Limits) : Except Skip Unit := do
  if let .hotp _ := e.kind then
    if lim.hotp = .no then throw .hotp
  if !lim.hashes.contains e.hash then throw (.hash e.hash)
  if !(decide (lim.digitsLow ≤ e.digits ∧ e.digits ≤ lim.digitsHigh) &&
      (store ≠ .molto2 || moltoDigits e.digits)) then
    throw (.digits e.digits)
  checkKind e.kind lim
  if let some max := lim.secretMax then
    if max < e.secret.val.length then throw (.secretLength e.secret.val.length max)

/-! ### YubiKey firmware that misreads a name starting another -/

/-- YubiKey 4 firmware after 4.0.0 and before 4.3.5. -/
def OathFamily.prefixIssue : OathFamily → Bool
  | .yubiKey (some v) => Version.lt (4, 0, 0) v && Version.lt v (4, 3, 5)
  | _ => false

/-- `other` begins with `name` and is a different name. -/
def startsOther (name other : RustStr) : Bool := other ≠ name && other.startsWith name

/-- The reason for `Skip::StartsAnotherName`. -/
def startsAnotherNameReason (store : Store) : String :=
  store.deviceName ++ " firmware 4.0\u20134.3.4 can't safely store a name that starts " ++
    "another name on the key"

/-- Why `name` must not be added next to `others`. -/
def OathFamily.prefixRefusal (family : OathFamily) (name : RustStr) (others : List RustStr) :
    Option String :=
  if family.prefixIssue && others.any (startsOther name) then
    some (startsAnotherNameReason (.oath family))
  else none

/-- The OATH names among stored names. -/
def oathNames (names : List StoredName) : List RustStr :=
  names.filterMap fun
    | .oath s => some s
    | _ => none

/-- `prefixRefusal` over the names on the key and the names planned before this
one. -/
def startsAnotherName (store : Store) (name : StoredName) (existing : Existing)
    (seen : List (StoredName × Nat)) : Bool :=
  match store, name with
  | .oath family, .oath name =>
      (family.prefixRefusal name (oathNames (existing.names ++ seen.map (·.1)))).isSome
  | _, _ => false

/-! ### The plan -/

/-- The variables of the first pass: names already planned from this file with
the first entry's index, and the next Molto2 slot to fill. -/
structure PlanState where
  seen : List (StoredName × Nat)
  nextSlot : Nat
deriving DecidableEq, Repr

/-- The name and verdict of one item, and the variables after it: the next free slot of a Molto2 and
the names of the file so far. -/
structure Decision where
  name : Option StoredName
  verdict : Verdict
  state : PlanState
deriving DecidableEq, Repr

/-- Whether a slot is in use. -/
def slotOccupied (existing : Existing) (slot : UInt8) : Bool :=
  existing.names.any fun
    | .molto2 s _ => s == slot
    | _ => false

/-- A usable entry for a Molto2: it fills the next slot. The slots are given out in order and never
twice, whatever is in them; an entry without a title uses none. -/
def decideMolto (target : Target) (s : PlanState) (e : ImportEntry) : Decision :=
  let title := moltoTitle e.issuer e.account
  if title.isEmpty then { name := none, verdict := .skip .noName, state := s }
  else if MOLTO_LAST_SLOT < s.nextSlot then
    { name := none, verdict := .skip .pastLastSlot, state := s }
  else
    let slot := s.nextSlot.toUInt8
    { name := some (.molto2 slot title)
      verdict := if slotOccupied target.existing slot then .replace else .add
      state := { s with nextSlot := s.nextSlot + 1 } }

/-- A usable entry for a store that names its codes. The order of the checks decides the reason: a
name that came before in the file, then one on the key, then one that starts another. -/
def decideNamed (target : Target) (s : PlanState) (index : Nat) (n : StoredName) : Decision :=
  let remembered : PlanState := { s with seen := s.seen ++ [(n, index)] }
  match s.seen.find? (·.1 = n) with
  | some (_, first) =>
      { name := some n, verdict := .skip (.sameNameInFile first), state := s }
  | none =>
      let onKey := target.existing.names.contains n
      -- Exists comes first: nothing is written, so the prefix rule doesn't apply.
      if onKey && !target.replace then
        { name := some n, verdict := .exists_, state := remembered }
      else if startsAnotherName target.store n target.existing s.seen then
        { name := some n, verdict := .skip .startsAnotherName, state := s }
      else
        { name := some n, verdict := if onKey then .replace else .add, state := remembered }

/-- One turn of `plan`'s loop over the items. An item is refused before it is named, so a name is
remembered only of an item that the store could take. -/
def decideItem (target : Target) (s : PlanState) (item : ImportItem) : Decision :=
  let lim := limits target.store
  match item.entry with
  | .error why => { name := none, verdict := .skip (.unusable why), state := s }
  | .ok e =>
      match checkParams e target.store lim with
      | .error why => { name := none, verdict := .skip why, state := s }
      | .ok () =>
          if target.store = .molto2 then decideMolto target s e
          else
            match nameFor e target.store lim with
            | .error why => { name := none, verdict := .skip why, state := s }
            | .ok n => decideNamed target s item.index n

/-- The row for a decision about an item. -/
def Decision.row (d : Decision) (item : ImportItem) : PlanRow where
  index := item.index
  label := item.label
  name := d.name
  verdict := d.verdict
  touch := false

/-- `plan`'s loop over the items. -/
def planItems (target : Target) (s : PlanState) : List ImportItem → List PlanRow
  | [] => []
  | item :: items =>
      let d := decideItem target s item
      d.row item :: planItems target d.state items

/-- The second pass: only adds use room, and an add past the capacity is taken
back. -/
def roomPass (capacity used : Nat) : List PlanRow → List PlanRow
  | [] => []
  | row :: rows =>
      if row.verdict = .add then
        if capacity ≤ used then
          { row with verdict := .skip (.noRoom capacity) } :: roomPass capacity used rows
        else row :: roomPass capacity (used + 1) rows
      else row :: roomPass capacity used rows

def notesFor (store : Store) (rows : List PlanRow) (capacity : Option Nat) (hidden : Nat)
    (file : ImportFile) : List Note :=
  let anyReplace := rows.any (·.verdict = .replace)
  let hotpWrite := (rows.filter (·.writes)).any fun row =>
    file.items.any fun item =>
      item.index == row.index &&
        match item.entry with
        | .ok e => match e.kind with
            | .hotp _ => true
            | .totp _ => false
        | .error _ => false
  (if anyReplace ∧ (store = .oath .solo2 ∨ store = .oath .nitrokey3 ∨ store = .oath .other) then
    [.replaceMayLoseOld] else []) ++
  (if capacity.isNone ∧ store ≠ .molto2 then [.capacityUnknown] else []) ++
  (if store = .oath .solo2 ∧ hotpWrite then [.solo2Hotp] else []) ++
  (if anyReplace ∧ store = .oath .nitrokey3 then [.nitrokey3TouchToReplace] else []) ++
  (if 0 < hidden then [.hidden hidden] else []) ++
  (if anyReplace ∧ store = .molto2 then [.moltoReplacesSlots] else [])

/-- How many codes the target holds in all, when known. -/
def planCapacity (target : Target) : Option Nat :=
  if target.store = .molto2 then some (MOLTO_LAST_SLOT + 1 - target.firstSlot.toNat)
  else (limits target.store).capacity

/-- Codes already on the key, hidden ones included. -/
def Existing.onKey (existing : Existing) : Nat := existing.names.length + existing.hidden

/-- The rows after both passes. -/
def planRows (items : List ImportItem) (target : Target) : List PlanRow :=
  let rows := planItems target { seen := [], nextSlot := target.firstSlot.toNat } items
  if target.store = .molto2 then rows
  else
    match planCapacity target with
    | some capacity => roomPass capacity target.existing.onKey rows
    | none => rows

/-- Plan an import of `file` into `target`. -/
def plan (file : ImportFile) (target : Target) : Plan :=
  let rows := planRows file.items target
  { store := target.store
    rows
    capacity := planCapacity target
    onKey := target.existing.onKey
    replace := target.replace
    notes := notesFor target.store rows (planCapacity target) target.existing.hidden file }

end Keyroost.Import
