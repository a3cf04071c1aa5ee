import Keyroost.Ctap.DeviceLabel

/-!
# The large-blob array

The array's elements with the bytes they were read as, the edits keyroost makes to them, and the
serialized form with its checksum, from `keyroost-ctap/src/large_blobs.rs`.

An element is an entry that conforms to the specification or raw bytes that do not (`Item`), and
the latter are kept as they are by every edit. Entries are numbered as they are listed, so the
edits by number look for the element's position in the whole array first (`itemIndex`). The name
entry of `DeviceLabel` is one of the entries, found by decrypting them and not by its number.
-/

namespace Keyroost.Ctap

open Cbor

def ENTRY_CIPHERTEXT : UInt64 := 1
def ENTRY_NONCE : UInt64 := 2
def ENTRY_ORIG_SIZE : UInt64 := 3

/-- Length of the truncated SHA-256 checksum trailer. -/
def CHECKSUM_LEN : Nat := 16

/-- One element of the array: a conforming entry, or anything else with the bytes it
was read as. -/
inductive Item where
  | entry (e : LargeBlobEntry)
  | skipped (raw : List UInt8)
deriving DecidableEq, Repr

structure LargeBlobArray where
  items : List Item
  /-- The bytes read from the key; empty for an array changed here. -/
  rawArray : List UInt8
  /-- How many bytes were read after the array's end. -/
  trailing : Nat
deriving DecidableEq, Repr

/-- The canonical `{1: ciphertext, 2: nonce, 3: origSize}` map of an entry. -/
def encodeEntry (e : LargeBlobEntry) : List UInt8 :=
  encode (.map [(.uInt ENTRY_CIPHERTEXT, .bytes e.ciphertext), (.uInt ENTRY_NONCE, .bytes e.nonce),
    (.uInt ENTRY_ORIG_SIZE, .uInt e.origSize)])

namespace Item

def asEntry : Item → Option LargeBlobEntry
  | entry e => some e
  | skipped _ => none

/-- The bytes `array_bytes` emits for an element. -/
def bytes : Item → List UInt8
  | entry e => e.original.getD (encodeEntry e)
  | skipped raw => raw

/-- Whether the element is a name entry. -/
def isLabelItem (c : Crypto) : Item → Bool
  | entry e => (DeviceLabel.decodeEntry c e).isSome
  | skipped _ => false

end Item

/-! ### Reading -/

/-- The required keys of an entry map that have been read. A map is an entry only when it has all
three, whatever else it has. -/
structure EntryFields where
  ciphertext : Option (List UInt8) := none
  nonce : Option (List UInt8) := none
  origSize : Option UInt64 := none
deriving DecidableEq, Repr

/-- A required key's value goes into its slot, if it has the right type and the slot
is free. -/
def EntryFields.put (f : EntryFields) (key : UInt64) (value : Value) : Option EntryFields :=
  match value with
  | .bytes b =>
      if key = ENTRY_CIPHERTEXT then
        if f.ciphertext.isSome then none else some { f with ciphertext := some b }
      else if key = ENTRY_NONCE ∧ b.length = 12 then
        if f.nonce.isSome then none else some { f with nonce := some b }
      else none
  | .uInt n =>
      if key = ENTRY_ORIG_SIZE then
        if f.origSize.isSome then none else some { f with origSize := some n }
      else none
  | _ => none

/-- One turn of `conforming_entry`'s loop. Keys other than 1 to 3 are left alone. -/
def entryStep (f : EntryFields) (pair : List UInt8 × List UInt8) : Option EntryFields :=
  match decode pair.1 with
  | .ok (.uInt key, []) =>
      if ENTRY_CIPHERTEXT ≤ key ∧ key ≤ ENTRY_ORIG_SIZE then
        match decode pair.2 with
        | .ok (value, []) => f.put key value
        | _ => none
      else some f
  | _ => some f

/-- `raw` as an entry, if it is a conforming entry map. -/
def conformingEntry (raw : List UInt8) : Option LargeBlobEntry :=
  match splitMap raw with
  | .ok (pairs, []) => do
      let f ← pairs.foldlM entryStep {}
      return {
        ciphertext := ← f.ciphertext
        nonce := ← f.nonce
        origSize := ← f.origSize
        original := some raw }
  | _ => none

/-- An element as read. -/
def itemOf (raw : List UInt8) : Item :=
  match conformingEntry raw with
  | some e => .entry e
  | none => .skipped raw

/-- The array's elements, and how many bytes follow the array. -/
def parseItems (arrayBytes : List UInt8) : Except CtapError (List Item × Nat) :=
  if (arrayBytes.head?.map fun b : UInt8 => b >>> 5) ≠ some 4 then
    .error (.invalidResponseShape "largeBlobs: not an array")
  else
    match splitArray arrayBytes with
    | .error e => .error (.cbor e)
    | .ok (elements, rest) => .ok (elements.map itemOf, rest.length)

namespace LargeBlobArray

/-- Parse a serialized array, without its checksum. -/
def parse (arrayBytes : List UInt8) : Except CtapError LargeBlobArray := do
  let (items, trailing) ← parseItems arrayBytes
  return { items, rawArray := arrayBytes, trailing }

/-- The checks at the end of `read`: the trailer is the checksum of what precedes it,
and that parses as an array. -/
def parseChecked (c : Crypto) (data : List UInt8) : Except CtapError LargeBlobArray := do
  if data.length < CHECKSUM_LEN then
    throw (.invalidResponseShape "largeBlobs: array shorter than checksum")
  let arrayBytes := data.take (data.length - CHECKSUM_LEN)
  let trailer := data.drop (data.length - CHECKSUM_LEN)
  if trailer ≠ c.left16Sha256 arrayBytes then
    throw (.invalidResponseShape "largeBlobs: checksum mismatch")
  parse arrayBytes

/-! ### Entries -/

/-- Conforming entries in array order. -/
def entries (a : LargeBlobArray) : List LargeBlobEntry := a.items.filterMap Item.asEntry

/-- The conforming entry numbered `idx`. -/
def entry (a : LargeBlobArray) (idx : Nat) : Option LargeBlobEntry := a.entries[idx]?

/-- Position in `items` of the conforming entry numbered `idx`. -/
def itemIndex (a : LargeBlobArray) (idx : Nat) : Option Nat :=
  (((a.items.zipIdx).filter fun x => x.1.asEntry.isSome).map (·.2))[idx]?

/-! ### Writing -/

/-- The elements behind a canonical header, without the checksum. -/
def arrayBytes (a : LargeBlobArray) : List UInt8 :=
  arrayHeader a.items.length ++ (a.items.map Item.bytes).flatten

/-- The array and its checksum, unless there were bytes after the array's end. -/
def serializeWithChecksum (c : Crypto) (a : LargeBlobArray) : Except CtapError (List UInt8) :=
  if 0 < a.trailing then
    .error (.invalidResponseShape ("largeBlobs: the stored array has extra bytes after its end; " ++
      "refusing to rewrite it, which would drop them"))
  else .ok (a.arrayBytes ++ c.left16Sha256 a.arrayBytes)

/-- `items` as a changed copy of the array. -/
def changed (a : LargeBlobArray) (items : List Item) : LargeBlobArray :=
  { items, rawArray := [], trailing := a.trailing }

def withTextNote (a : LargeBlobArray) (text : RustStr) : LargeBlobArray :=
  a.changed (a.items ++ [.entry (.fromText text)])

/-- Replace the keyroost note at `idx`, and nothing else. -/
def withReplacedNote (a : LargeBlobArray) (idx : Nat) (text : RustStr) :
    Option LargeBlobArray := do
  if (← a.entry idx).isKrNote = false then none
  let pos ← a.itemIndex idx
  return a.changed (a.items.set pos (.entry (.fromText text)))

def withoutEntry (a : LargeBlobArray) (idx : Nat) : Option LargeBlobArray := do
  let pos ← a.itemIndex idx
  return a.changed (a.items.eraseIdx pos)

/-- Every name entry removed and, if there is a `label`, one new name entry
at the end. -/
def withLabel (c : Crypto) (a : LargeBlobArray) (label : Option DeviceLabel) (nonce : Nonce) :
    Except LabelError LargeBlobArray :=
  let items := a.items.filter fun i => !i.isLabelItem c
  match label with
  | none => .ok (a.changed items)
  | some l => do
      let e ← DeviceLabel.encodeEntry c l nonce
      return a.changed (items ++ [.entry e])

/-- The name entries alone, as read. -/
def onlyLabel (c : Crypto) (a : LargeBlobArray) : LargeBlobArray :=
  a.changed (a.items.filter fun i => i.isLabelItem c)

end LargeBlobArray

end Keyroost.Ctap
