import Keyroost.Resolve.Device

/-!
# The naming pass

Which name each row shows, whether it may be selected by it, and the changes to the keyring that the
names read from keys ask for. Modelled from `keyroost-resolve/src/names.rs`.

A pass goes over the rows in `list` order and carries which names were seen so far, since a name
belongs to the first row that has it. What it wants of the keyring is a list of updates
(`NameUpdate`), which the caller applies afterwards with the operations of `Ring`; `namingRounds` is
a number of passes, each followed by its updates.
-/

namespace Keyroost.Resolve

open Keyring

/-- A change to the keyring that the naming pass asks for. The pass itself changes no record; the
updates are made after it, on the ring as it is then. -/
inductive NameUpdate where
  | firstSeen (serial name : RustStr)
  | dropStale (serial current : RustStr)
  | unrecordable (name : RustStr)
deriving DecidableEq, Repr

/-- The last four characters. -/
def serialTail (serial : RustStr) : RustStr := serial.drop (serial.length - 4)

def shownTail (serial : RustStr) : RustStr :=
  (serialTail serial).map fun c =>
    if isControl c || RustStr.isWhitespace c || isSpoofingChar c then '?' else c

/-- By row id; a row without an entry was not read. -/
abbrev Labels : Type := List (DeviceId × KeyLabel)

def onKeyLabel (labels : Labels) (d : Device) : KeyLabel :=
  match labels.lookup d.id with
  | some (.present l) => KeyLabel.fromText l
  | some other => other
  | none => .notRead

section Pass

variable (h : Hasher)

/-- The usable serials that a row may be known by. -/
def knownSerials (serial : RustStr) (hidSerial formerSerial : Option RustStr) : List RustStr :=
  (serial :: hidSerial.toList ++ formerSerial.toList).filter fun s =>
    !(canonicalSerial h s).isEmpty

def Device.known (d : Device) : List RustStr := knownSerials h d.serial d.hidSerial d.formerSerial

/-- The loop over a row's serials; `seen` are the canonical forms it has passed. -/
def staleUpdates (ring : Ring) (l : RustStr) : List RustStr → List RustStr → List NameUpdate
  | _, [] => []
  | seen, s :: known =>
      let c := canonicalSerial h s
      if c ∈ seen then staleUpdates ring l seen known
      else
        (if (ring.recordsFor h s).any fun r => decide (r.stored = .key) && decide (r.name ≠ l)
          then [.dropStale s l] else []) ++ staleUpdates ring l (seen ++ [c]) known

/-- One row named: what it shows, what it asks for, and the names claimed after it. The claims are
what a later row of the same pass is told of the rows before it. -/
structure Named where
  naming : Naming
  shown : Option RustStr
  updates : List NameUpdate
  claimed : List (RustStr × RustStr)
deriving DecidableEq, Repr

def Device.named (d : Device) (n : Named) : Device :=
  { d with name := n.shown, naming := n.naming }

/-- Who claims a name in a pass: the serial, or for a key without a usable one the row. -/
def claimOf (d : Device) : RustStr :=
  let canon := canonicalSerial h d.serial
  if canon.isEmpty then "row:".toList ++ d.id else canon

/-- No other row has claimed the name in this pass. -/
def firstHere (claimed : List (RustStr × RustStr)) (l claim : RustStr) : Bool :=
  match claimed.lookup l with
  | some claimant => decide (claimant = claim)
  | none => true

/-- A row whose key carries the name `l`. It is shown as it is where no other key has it, by the
keyring or by a row before; otherwise the end of the serial is put behind it, if there is a serial.
-/
def nameFromKey (ring : Ring) (claimed : List (RustStr × RustStr)) (d : Device) (l : RustStr) :
    Named :=
  let canon := canonicalSerial h d.serial
  let known := d.known h
  let naming : Naming :=
    { Naming.unnamed with onKey := .present l, source := some .key, plain := some l }
  let stale := staleUpdates h ring l [] known
  if (ring.holder l).isNone && firstHere claimed l (claimOf h d) then
    let first : List NameUpdate := if (claimed.lookup l).isSome then []
      else if canon.isEmpty then [.unrecordable l] else [.firstSeen d.serial l]
    { naming := { naming with selectable := true }, shown := some l, updates := first ++ stale,
      claimed := (l, claimOf h d) :: claimed }
  else if !canon.isEmpty && (ring.holder l).any fun r =>
      r.fingerprint.isSome && known.any fun s => decide (ring.fingerprintOf h s = r.fingerprint)
      then
    { naming := { naming with selectable := true }, shown := some l, updates := stale,
      claimed := if (claimed.lookup l).isSome then claimed else (l, canon) :: claimed }
  else if !canon.isEmpty then
    { naming, shown := some (l ++ " (".toList ++ shownTail d.serial ++ ")".toList),
      updates := stale, claimed }
  else { naming, shown := some l, updates := stale, claimed }

/-- A row whose key carries no name, or none that was read. A name recorded as stored on the key is
missing only when the key was read and has none. -/
def nameFromComputer (ring : Ring) (claimed : List (RustStr × RustStr)) (d : Device)
    (onKey : KeyLabel) : Named :=
  let known := d.known h
  let missing := if onKey = .absent then
      known.findSome? fun s =>
        ((ring.recordsFor h s).find? fun r => decide (r.stored = .key)).map (·.name)
    else none
  let naming : Naming := { Naming.unnamed with onKey, missingOnKey := missing }
  match known.findSome? (ring.localNameFor h) with
  | some n =>
      { naming := { naming with source := some .computer, plain := some n, selectable := true },
        shown := some n, updates := [], claimed }
  | none => { naming, shown := none, updates := [], claimed }

def nameRow (ring : Ring) (labels : Labels) (claimed : List (RustStr × RustStr)) (d : Device) :
    Named :=
  match onKeyLabel labels d with
  | .present l => nameFromKey h ring claimed d l
  | onKey => nameFromComputer h ring claimed d onKey

/-- The state of the loop over the rows. -/
structure NamePass where
  devices : List Device
  updates : List NameUpdate
  claimed : List (RustStr × RustStr)
deriving DecidableEq, Repr

def NamePass.turn (ring : Ring) (labels : Labels) (st : NamePass) (i : Nat) : NamePass :=
  match st.devices[i]? with
  | none => st
  | some d =>
      let named := nameRow h ring labels st.claimed d
      { devices := st.devices.set i (d.named named), updates := st.updates ++ named.updates,
        claimed := named.claimed }

def applyNames (devices : List Device) (ring : Ring) (labels : Labels) : NamePass :=
  (listOrder devices).foldl (NamePass.turn h ring labels)
    { devices, updates := [], claimed := [] }

/-! ### The keyring after a pass -/

/-- The numbers of records added and dropped, and the ring. The source returns the two numbers and
changes the ring in place. -/
structure Updated where
  recorded : Nat
  dropped : Nat
  ring : Ring
deriving DecidableEq, Repr

def Updated.update (fresh : Except KeyringError Salt) (st : Updated) : NameUpdate → Updated
  | .firstSeen serial name =>
      let (added, ring) := st.ring.recordFirstSeen h fresh serial name
      { st with recorded := if added then st.recorded + 1 else st.recorded, ring }
  | .dropStale serial current =>
      let (gone, ring) := st.ring.dropStaleKeyRecords h serial current
      { st with dropped := st.dropped + gone, ring }
  | .unrecordable _ => st

/-- `fresh k` is what the random source gives while the `k`-th update is applied. -/
def applyUpdatesFrom : (Nat → Except KeyringError Salt) → Updated → List NameUpdate → Updated
  | _, st, [] => st
  | fresh, st, u :: updates =>
      applyUpdatesFrom (fun k => fresh (k + 1)) (st.update h (fresh 0) u) updates

def applyUpdates (fresh : Nat → Except KeyringError Salt) (ring : Ring)
    (updates : List NameUpdate) : Updated :=
  applyUpdatesFrom h fresh { recorded := 0, dropped := 0, ring } updates

/-! ### Passes after each other -/

/-- A number of passes over the same keys, each followed by its updates. -/
def namingRounds (labels : Labels) (random : Nat → Nat → Except KeyringError Salt) :
    Nat → List Device × Ring → List Device × Ring
  | 0, st => st
  | n + 1, st =>
      let st := namingRounds labels random n st
      let pass := applyNames h st.1 st.2 labels
      (pass.devices, (applyUpdates h (random n) st.2 pass.updates).ring)

/-- What a further pass asks for after a number of rounds. -/
def askedAfter (labels : Labels) (random : Nat → Nat → Except KeyringError Salt) (n : Nat)
    (st : List Device × Ring) : List NameUpdate :=
  let st := namingRounds h labels random n st
  (applyNames h st.1 st.2 labels).updates

end Pass

end Keyroost.Resolve
