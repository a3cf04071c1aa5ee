import Keyroost.Resolve.Readers
import Keyroost.Resolve.Device

/-!
# One row for each physical key

The correlation of FIDO nodes and reader probes into device rows, as it stands before the rows are
sorted for display and named. Modelled from `keyroost-resolve/src/device.rs`.

Readers make the first rows: tokens without a FIDO sibling, programmable tokens, and smart-card
keys. The nodes are then merged one at a time: into the row of their reader, into one that has their
serial, or as a row of their own. A `Row` is a device row with the positions of the nodes merged
into it, so that the loop (`mergeTurn`) leaves behind which keys a row was made of.
-/

namespace Keyroost.Resolve

open Hid Transport Keyring Slots

/-! ### Rows of readers -/

def hasFidoHidSibling (p : ReaderProbe) (hids : List HidDevice) : Bool :=
  hids.any fun h => sameUsbDevice p.usbDevice h.usbDevice

/-- A row without any FIDO node. -/
def readerRow (id : DeviceId) (serial : RustStr) (kind : DeviceKind) (p : ReaderProbe)
    (formerSerial : Option RustStr) : Device :=
  { id, name := none, serial, kind, hidPath := none, reader := some p.readerName,
    hidSerial := none, formerSerial, naming := .unnamed }

def moltoRow (p : ReaderProbe) : Device :=
  readerRow ("molto:".toList ++ p.readerName) (p.serial.getD []) .token p none

def progRow (p : ReaderProbe) : Device :=
  readerRow ("prog:".toList ++ p.readerName) (p.progSerial.getD []) .progToken p none

def cardRow (p : ReaderProbe) : Device :=
  let serial := (p.yubikeySerial.or p.serial).getD []
  let id := if serial.isEmpty then "reader:".toList ++ p.readerName
    else "serial:".toList ++ serial
  readerRow id serial .key p p.formerSerial

/-- Some applet answered: the row would have a capability. -/
def answersApplet (p : ReaderProbe) : Bool :=
  p.hasOath || p.hasOpenpgp || p.hasPiv || p.hasFido || p.hasOtp

/-- Tokens without a FIDO sibling, programmable tokens, and smart-card keys. -/
def readerRows (nodes : List HidDevice) (probes : List ReaderProbe) : List Device :=
  (probes.filter fun p => p.isMolto2 && !hasFidoHidSibling p nodes).map moltoRow ++
    (probes.filter (·.isProg)).map progRow ++
    (probes.filter fun p => !p.isMolto2 && answersApplet p).map cardRow

/-! ### Merging the FIDO nodes -/

/-- A row, and the positions of the FIDO nodes merged into it so far, first to last. -/
structure Row where
  device : Device
  nodes : List Nat
deriving DecidableEq, Repr

/-- What a node is joined by: its serial, if that is evidence of the key, and its reader. A node
that has neither gets a row to itself. -/
structure Joint where
  serial : RustStr
  bySerial : Bool
  reader : Option RustStr
deriving DecidableEq, Repr

def Joint.fits (j : Joint) (d : Device) : Bool :=
  decide (d.kind = .key) && ((j.reader.isSome && decide (d.reader = j.reader)) ||
    (j.bySerial && decide (d.serial = j.serial)))

section Merge

variable (h : Hasher)

def Row.merge (row : Row) (i : Nat) (hid : HidDevice) (serial : RustStr) : Row :=
  let dev := row.device
  let hidSerial :=
    if dev.serial.isEmpty then dev.hidSerial
    else if canonicalSerial h serial ≠ canonicalSerial h dev.serial ∧
        (canonicalSerial h serial).isEmpty = false then some serial
    else dev.hidSerial
  { device := { dev with
      hidPath := some hid.path
      serial := if dev.serial.isEmpty then serial else dev.serial
      hidSerial }
    nodes := row.nodes ++ [i] }

def Row.ofNode (i : Nat) (hid : HidDevice) (j : Joint) : Row :=
  { device :=
      { id := if j.serial.isEmpty then "hid:".toList ++ hid.path
          else "serial:".toList ++ j.serial
        name := none, serial := j.serial, kind := .key, hidPath := some hid.path,
        reader := j.reader, hidSerial := none, formerSerial := none, naming := .unnamed }
    nodes := [i] }

/-- One node: merged into the first row it fits, else a row of its own. -/
def mergeTurn (joint : Nat → Joint) (rows : List Row) (i : Nat) (hid : HidDevice) : List Row :=
  match rows.findIdx? fun row => (joint i).fits row.device with
  | some k => rows.modify k fun row => row.merge h i hid (joint i).serial
  | none => rows ++ [Row.ofNode i hid (joint i)]

end Merge

/-- An id that several rows share is told apart by the row's reader or path. -/
def tellApart (rows : List Row) : List Row :=
  rows.map fun row =>
    if 1 < (rows.map (·.device.id)).count row.device.id then
      let suffix := (row.device.reader.or row.device.hidPath).getD []
      { row with device := { row.device with id := row.device.id ++ '#' :: suffix } }
    else row

def withoutTopology (hids : List HidDevice) (probes : List ReaderProbe) :
    List HidDevice × List ReaderProbe :=
  (hids.map fun h => { h with usbDevice := none }, probes.map fun p => { p with usbDevice := none })

/-! ### What each node is joined by -/

section Joints

variable (nodes : List HidDevice) (probes : List ReaderProbe) (ids : Identities)
  (opts : MatchOptions)

def nodeSerial (i : Nat) : RustStr :=
  (slot (nodeSerials nodes (ykReaders probes) ids opts) i).getD []

def keyRowSerials : List RustStr :=
  (((readerRows nodes probes).filter fun d => decide (d.kind = .key)).map (·.serial)).filter
    (!·.isEmpty)

/-- Serials that tell no two keys apart. -/
def dupSerials : List RustStr :=
  duplicated ((nodeSerials nodes (ykReaders probes) ids opts).filterMap id) ++
    duplicated (keyRowSerials nodes probes)

def boundReader (i : Nat) : Option RustStr :=
  (slot (bindReaders nodes probes (ykReaders probes) ids opts) i).map (·.1)

def jointOf (i : Nat) : Joint :=
  let serial := nodeSerial nodes probes ids opts i
  { serial
    bySerial := !serial.isEmpty && !(nodes[i]?).any (serialFromIdentity ids) &&
      !(dupSerials nodes probes ids opts).contains serial
    reader := boundReader nodes probes ids opts i }

end Joints

/-- The rows of `correlate_with`. -/
def correlateRows (h : Hasher) (hids : List HidDevice) (probes : List ReaderProbe)
    (ids : Identities) (opts : MatchOptions) : List Row :=
  let (hids, probes) := if opts.skipTopology then withoutTopology hids probes else (hids, probes)
  let nodes := hids.filter HidDevice.isFido
  tellApart (turns (mergeTurn h (jointOf nodes probes ids opts))
    ((readerRows nodes probes).map fun device => { device, nodes := [] }) nodes)

end Keyroost.Resolve
