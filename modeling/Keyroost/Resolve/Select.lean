import Keyroost.Resolve.Names
import Mathlib.Data.List.Destutter

/-!
# Choosing the row a command acts on

One key finder for every command: which rows can serve a need, what a `--device` value names, and
whether a row is used, asked for or refused. Modelled from `keyroost-resolve/src/select.rs` and
`keyroost-resolve/src/device.rs`.

The user's answer to a choice is a parameter (`Picker`). A value may say that it is a name, a serial
or a number of the list, or leave that open, and a refusal carries the candidates with the
value that would have named each of them (`deviceValue`), quoted for a shell. The names read from
keys cost time, so a selection is first made without them where it needs none.
-/

namespace Keyroost.Resolve

open Hid Keyring RustStr

/-! ### Rows as the finder reads them -/

/-- Capability bits. -/
abbrev Caps : Type := BitVec 16

namespace Caps

def FIDO2 : Caps := 1 <<< 0
def OATH : Caps := 1 <<< 1
def PGP : Caps := 1 <<< 2
def PIV : Caps := 1 <<< 3
def OTP : Caps := 1 <<< 5
def U2F_ONLY : Caps := 1 <<< 7
def FIDO_PROTOCOL_UNKNOWN : Caps := 1 <<< 8

def has (self c : Caps) : Bool := decide (self &&& c ≠ 0)

end Caps

/-- A device row with its texts and capabilities. -/
structure ListedDevice extends Device where
  vendor : RustStr
  model : RustStr
  caps : Caps
deriving DecidableEq, Repr

inductive ResetStep where
  | oath
  | openPgp
  | token2Otp
  | piv
  | fido
deriving DecidableEq, Repr

def factoryResetPlan (caps : Caps) : List ResetStep :=
  (if caps.has .OATH then [.oath] else []) ++
  (if caps.has .PGP then [.openPgp] else []) ++
  (if caps.has .OTP then [.token2Otp] else []) ++
  (if caps.has .PIV then [.piv] else []) ++
  (if caps.has .FIDO2 && !caps.has .U2F_ONLY && !caps.has .FIDO_PROTOCOL_UNKNOWN then [.fido]
    else [])

/-- What a command needs from the key it acts on. -/
inductive Need where
  | fidoHid
  | fidoAny
  | oath
  | openPgp
  | piv
  | otp
  | otpHid
  | otpCcid
  | molto2
  | prog
  | factoryReset
  | nameable
  | any
deriving DecidableEq, Repr

namespace Need

def noun : Need → RustStr
  | fidoHid => "key with FIDO2 over USB".toList
  | fidoAny => "key with FIDO2".toList
  | oath => "key with OATH".toList
  | openPgp => "key with OpenPGP".toList
  | piv => "key with PIV".toList
  | otp => "key with Token2 OTP".toList
  | otpHid => "key with Token2 OTP over USB-HID".toList
  | otpCcid => "key with Token2 OTP over a smart-card reader".toList
  | molto2 => "Molto2 token".toList
  | prog => "programmable token".toList
  | factoryReset => "key with something to factory-reset".toList
  | nameable => "key that reports a serial (needed to name it)".toList
  | any => "key or token".toList

def admits (self : Need) (d : ListedDevice) : Bool :=
  let hid := d.hidPath.isSome
  let card := d.reader.isSome
  match self with
  | fidoHid => d.caps.has .FIDO2 && hid
  | fidoAny => d.caps.has .FIDO2 && (hid || card)
  | oath => d.caps.has .OATH && card
  | openPgp => d.caps.has .PGP && card
  | piv => d.caps.has .PIV && card
  | otp => d.caps.has .OTP && (hid || card)
  | otpHid => d.caps.has .OTP && hid
  | otpCcid => d.caps.has .OTP && card
  | molto2 => decide (d.kind = .token) && card
  | prog => decide (d.kind = .progToken) && card
  | factoryReset => decide (d.kind = .key) && !(factoryResetPlan d.caps).isEmpty
  | nameable => !d.serial.isEmpty
  | any => true

/-- Served over a smart-card reader first, else over the HID path. -/
def prefersReader (self : Need) : Bool :=
  decide (self ∈ [oath, openPgp, piv, otpCcid, molto2, prog])

end Need

/-! ### `--device` values -/

/-- The selectors a command was given. -/
structure Selector where
  device : Option RustStr
  reader : Option RustStr
  path : Option Path
deriving DecidableEq, Repr

namespace Selector

def default : Selector := { device := none, reader := none, path := none }

/-- Only `--device`. -/
def byDevice (v : RustStr) : Selector := { default with device := some v }

def given (sel : Selector) : Nat :=
  sel.device.isSome.toNat + sel.reader.isSome.toNat + sel.path.isSome.toNat

end Selector

inductive DeviceSpec where
  | any (v : RustStr)
  | name (n : RustStr)
  | serial (s : RustStr)
  | number (k : Nat)
  | badNumber (n : RustStr)
deriving DecidableEq, Repr

/-- A `usize` written in digits only. -/
def parseNumber (s : RustStr) : Option Nat :=
  if !s.isEmpty && s.all isAsciiDigit then parseUnsigned 64 s else none

def parseDeviceSpec (v : RustStr) : DeviceSpec :=
  match stripPrefix "name:".toList v with
  | some n => .name n
  | none =>
      match stripPrefix "serial:".toList v with
      | some s => .serial s
      | none =>
          match stripPrefix "list:".toList v with
          | some n => ((parseNumber n).map DeviceSpec.number).getD (.badNumber n)
          | none => .any v

/-- What `list` and the naming pass see of the rows. -/
def deviceRows (devices : List ListedDevice) : List Device := devices.map (·.toDevice)

def order (devices : List ListedDevice) : List Nat := listOrder (deviceRows devices)

/-- The 1-based `list` number of a row. -/
def listNumber (devices : List ListedDevice) (index : Nat) : Option Nat :=
  ((order devices).idxOf? index).map (· + 1)

/-- The serial that a Molto2's reader name carries in parentheses. -/
def moltoReaderSerial (reader : RustStr) : Option RustStr :=
  (splitOnce '(' reader).bind fun (_, rest) =>
    (splitOnce ')' rest).bind fun (serial, _) => if serial.isEmpty then none else some serial

def hasSerial (d : Device) (s : RustStr) : Bool :=
  eqIgnoreAsciiCase d.serial s ||
    (decide (d.kind = .token) &&
      ((d.reader.bind moltoReaderSerial).any fun r => eqIgnoreAsciiCase r s))

/-- The rows in `list` order that pass a test. -/
def rowsWhere (devices : List ListedDevice) (p : ListedDevice → Bool) : List Nat :=
  (order devices).filter fun i => (devices[i]?).any p

def selectableAs (n : RustStr) (d : Device) : Bool :=
  d.naming.selectable && decide (d.naming.plain = some n)

def byName (devices : List ListedDevice) (n : RustStr) : List Nat :=
  rowsWhere devices fun d => selectableAs n d.toDevice

def bySerial (devices : List ListedDevice) (s : RustStr) : List Nat :=
  rowsWhere devices fun d => !s.isEmpty && hasSerial d.toDevice s

def byNumber (devices : List ListedDevice) (k : Nat) : List Nat :=
  if k = 0 then [] else ((order devices)[k - 1]?).toList

/-- The rows that a value names, before they are put in order. -/
def hitsOf (devices : List ListedDevice) : DeviceSpec → List Nat
  | .name n => byName devices n
  | .serial s => bySerial devices s
  | .number k => byNumber devices k
  | .badNumber _ => []
  | .any v =>
      byName devices v ++ bySerial devices v ++
        ((parseNumber v).map (byNumber devices)).getD []

/-- Every row that a value names, in `list` order, each once. -/
def rowsMatching (devices : List ListedDevice) (spec : DeviceSpec) : List Nat :=
  let position := fun i => (order devices).idxOf? i
  ((hitsOf devices spec).insertionSort fun a b => (compare (position a) (position b)).isLE = true
    ).destutter (· ≠ ·)

/-- Resolving could depend on the names stored on keys. -/
def selectionNeedsKeyNames (devices : List ListedDevice) (sel : Selector) (need : Need) : Bool :=
  if sel.reader.isSome || sel.path.isSome then false
  else match sel.device.map parseDeviceSpec with
    | some (.serial _) | some (.number _) | some (.badNumber _) => false
    | some (.name _) => true
    | some (.any v) =>
        let serial := !v.isEmpty && devices.any fun d => hasSerial d.toDevice v
        let number := (parseNumber v).any fun k => decide (1 ≤ k ∧ k ≤ devices.length)
        !(serial || number)
    | none => decide (1 < (devices.filter need.admits).length)

/-- The values that may name a row, the shortest first. -/
def valuesToTry (devices : List ListedDevice) (index : Nat) (d : ListedDevice) : List RustStr :=
  let number := (listNumber devices index).getD 0
  let name := if d.naming.selectable then d.naming.plain else none
  name.toList ++
    (if d.serial.isEmpty then [] else [d.serial]) ++
    (if d.serial.isEmpty && decide (d.kind = .token) then
      ((d.reader.bind moltoReaderSerial).map ("serial:".toList ++ ·)).toList else []) ++
    [decimal number] ++
    (name.map ("name:".toList ++ ·)).toList ++
    (if d.serial.isEmpty then [] else ["serial:".toList ++ d.serial])

/-- The `--device` value that selects a row and nothing else. -/
def deviceValue (devices : List ListedDevice) (index : Nat) : RustStr :=
  let number := (listNumber devices index).getD 0
  let tries := ((devices[index]?).map (valuesToTry devices index)).getD []
  (tries.find? fun v => decide (rowsMatching devices (parseDeviceSpec v) = [index])).getD
    ("list:".toList ++ decimal number)

/-! ### What is shown of a row -/

/-- Terminal-hostile characters are replaced. -/
def clean (s : RustStr) : RustStr := s.map fun c => if isSpoofingChar c then '?' else c

/-- The endpoint a command would open. -/
def endpoint (d : ListedDevice) (need : Need) : RustStr :=
  clean ((if need.prefersReader then d.reader.or d.hidPath else d.hidPath.or d.reader).getD [])

def isShellSafe (c : Char) : Bool := c.isAlphanum || decide (c ∈ "._:/@%+=,-".toList)

def shellQuote (v : RustStr) : RustStr :=
  if !v.isEmpty && v.all isShellSafe then v
  else ['\''] ++ v.flatMap (fun c => if c = '\'' then "'\\''".toList else [c]) ++ ['\'']

section Labels

variable (isAlphabetic : Char → Bool)

def modelTitle (d : ListedDevice) : RustStr :=
  if d.model.any isAlphabetic || d.vendor.isEmpty then d.model
  else d.vendor ++ " ".toList ++ d.model

def rowLabel (d : ListedDevice) : RustStr :=
  let model := modelTitle isAlphabetic d
  clean (d.name.getD model) ++
    (if d.name.isSome && !d.model.isEmpty then ", ".toList ++ clean model else []) ++
    (if d.serial.isEmpty then [] else ", serial ".toList ++ clean d.serial)

end Labels

/-! ### Refusals -/

/-- One selectable row in a refusal. -/
structure Candidate where
  value : RustStr
  label : RustStr
deriving DecidableEq, Repr

/-- One picker line. -/
structure Choice where
  number : Nat
  label : RustStr
  endpoint : RustStr
deriving DecidableEq, Repr

/-- A terminal that may be asked; `pick` gives a position in the choices. It is asked only where
several rows are left. -/
structure Picker where
  interactive : Bool
  pick : RustStr → List Choice → Except RustStr Nat

inductive SelectedBy where
  | device
  | reader
  | path
  | onlyCandidate
  | picked
deriving DecidableEq, Repr

/-- The resolved row, by its position among the rows. -/
structure Target where
  device : Nat
  number : Nat
  how : SelectedBy
deriving DecidableEq, Repr

inductive SelectError where
  | conflict
  | noCandidates (need : Need) (connected : List Candidate)
  | needsChoice (need : Need) (candidates : List Candidate)
  | notFound (value : RustStr) (need : Need) (candidates : List Candidate)
  | ambiguous (value : RustStr) (candidates : List Candidate)
  | nameNotConnected (value : RustStr) (newcomers : List Candidate)
  | lacksCapability (selector : RustStr) (need : Need) (candidates : List Candidate)
  | readerNotFound (reader : RustStr)
  | readerAmbiguous (substr : RustStr) (readers : List RustStr)
  | pathNotFound (path : RustStr)
  | picker (message : RustStr)
deriving DecidableEq, Repr

/-- The rows that a refusal lists. -/
def SelectError.candidates : SelectError → List Candidate
  | noCandidates _ c | needsChoice _ c | notFound _ _ c | ambiguous _ c | nameNotConnected _ c
  | lacksCapability _ _ c => c
  | conflict | readerNotFound _ | readerAmbiguous _ _ | pathNotFound _ | picker _ => []

/-! ### The decision -/

section Resolve

variable (isAlphabetic : Char → Bool) (devices : List ListedDevice) (need : Need)

def candidatesFor : List Nat := rowsWhere devices need.admits

def describe (rows : List Nat) : List Candidate :=
  rows.filterMap fun i => (devices[i]?).map fun d =>
    { value := deviceValue devices i, label := rowLabel isAlphabetic d }

def targetAt (i : Nat) (how : SelectedBy) : Target :=
  { device := i, number := (listNumber devices i).getD 0, how }

def admitsAt (i : Nat) : Bool := (devices[i]?).any need.admits

/-- The name that a value may be. -/
def DeviceSpec.named : DeviceSpec → Option RustStr
  | .any n | .name n => some n
  | .serial _ | .number _ | .badNumber _ => none

/-- Keys that carry the name without being selected by it. -/
def newcomersFor (spec : DeviceSpec) : List Nat :=
  (spec.named.map fun n => rowsWhere devices fun d =>
    !d.naming.selectable && decide (d.naming.plain = some n)).getD []

/-- The serial that is worth asking the cards for. -/
def DeviceSpec.cardSerial : DeviceSpec → RustStr
  | .any s | .serial s => s
  | .name _ | .number _ | .badNumber _ => []

/-- The Molto2 rows whose card says that serial; `read i` is what the card of the row `i`
answers. -/
def rowsByCard (read : Nat → Option RustStr) (s : RustStr) : List Nat :=
  (rowsWhere devices fun d => decide (d.kind = .token) && d.reader.isSome && need.admits d).filter
    fun i => (read i).any fun c => eqIgnoreAsciiCase c s

/-- The rows for `--device`, by the cards' serials when nothing else matches. -/
def rowsForDevice (cardSerial : Option (Nat → Option RustStr)) (spec : DeviceSpec) : List Nat :=
  let rows := rowsMatching devices spec
  match cardSerial with
  | some serialOf =>
      if rows.isEmpty && (newcomersFor devices spec).isEmpty && !spec.cardSerial.isEmpty then
        rowsByCard devices need serialOf spec.cardSerial
      else rows
  | none => rows

def resolveDevice (cardSerial : Option (Nat → Option RustStr)) (v : RustStr) :
    Except SelectError Target :=
  let spec := parseDeviceSpec v
  let newcomers := newcomersFor devices spec
  let describe := describe isAlphabetic devices
  match rowsForDevice devices need cardSerial spec with
  | [] =>
      if newcomers.isEmpty then
        .error (.notFound v need (describe (candidatesFor devices need)))
      else .error (.nameNotConnected (spec.named.getD v) (describe newcomers))
  | [i] =>
      if admitsAt devices need i then .ok (targetAt devices i .device)
      else .error (.lacksCapability ("--device ".toList ++ shellQuote (clean v)) need
        (describe (candidatesFor devices need)))
  | many => .error (.ambiguous v (describe many))

def rowsWithReader (hit : RustStr → Bool) : List Nat :=
  rowsWhere devices fun d => d.reader.any hit

def pickReader (typed : RustStr) : List Nat → Option (Except SelectError Target)
  | [] => none
  | [i] => some (.ok (targetAt devices i .reader))
  | many =>
      let readers := many.filterMap fun i => (devices[i]?).bind (·.reader)
      some (.error (.readerAmbiguous typed
        ((readers.insertionSort fun a b => (compare a b).isLE = true).destutter (· ≠ ·))))

def resolveReader (typed : RustStr) : Except SelectError Target :=
  let exactly := rowsWithReader devices fun r => eqIgnoreAsciiCase r typed
  let partly := rowsWithReader devices fun r =>
    containsStr (toAsciiLowercase r) (toAsciiLowercase typed)
  ((pickReader devices typed exactly).or (pickReader devices typed partly)).getD
    (.error (.readerNotFound typed))

def resolvePath (p : Path) : Except SelectError Target :=
  match rowsWhere devices fun d => decide (d.hidPath = some p) with
  | i :: _ => .ok (targetAt devices i .path)
  | [] => .error (.pathNotFound p)

def choicesFor (rows : List Nat) : List Choice :=
  rows.filterMap fun i => (devices[i]?).map fun d =>
    { number := (listNumber devices i).getD 0, label := rowLabel isAlphabetic d,
      endpoint := endpoint d need }

def askPicker (picker : Picker) (many : List Nat) : Except SelectError Target :=
  let heading := decimal many.length ++ " connected keys qualify (".toList ++ need.noun ++
    "):".toList
  match picker.pick heading (choicesFor isAlphabetic devices need many) with
  | .error e => .error (.picker e)
  | .ok k =>
      match many[k]? with
      | some i => .ok (targetAt devices i .picked)
      | none => .error (.picker ("choice ".toList ++ decimal k ++ " is out of range".toList))

def resolveAlone (picker : Picker) : Except SelectError Target :=
  match candidatesFor devices need with
  | [] => .error (.noCandidates need (describe isAlphabetic devices (order devices)))
  | [i] => .ok (targetAt devices i .onlyCandidate)
  | many =>
      if picker.interactive then askPicker isAlphabetic devices need picker many
      else .error (.needsChoice need (describe isAlphabetic devices many))

/-- The row a command acts on. -/
def resolve (sel : Selector) (picker : Picker) (cardSerial : Option (Nat → Option RustStr)) :
    Except SelectError Target :=
  if 1 < sel.given then .error .conflict
  else match sel.device, sel.reader, sel.path with
    | some v, _, _ => resolveDevice isAlphabetic devices need cardSerial v
    | none, some typed, _ => resolveReader devices typed
    | none, none, some p => resolvePath devices p
    | none, none, none => resolveAlone isAlphabetic devices need picker

def resolveTarget (sel : Selector) (picker : Picker) : Except SelectError Target :=
  resolve isAlphabetic devices need sel picker none

def resolveTargetReading (sel : Selector) (picker : Picker)
    (cardSerial : Nat → Option RustStr) : Except SelectError Target :=
  resolve isAlphabetic devices need sel picker (some cardSerial)

end Resolve

/-! ### Names read from keys -/

/-- The naming pass over rows with their texts. -/
def nameListed (h : Hasher) (devices : List ListedDevice) (ring : Ring) (labels : Labels) :
    List ListedDevice :=
  List.zipWith (fun d named => { d with toDevice := named }) devices
    (applyNames h (deviceRows devices) ring labels).devices

end Keyroost.Resolve
