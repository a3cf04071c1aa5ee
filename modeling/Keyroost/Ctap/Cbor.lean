import Keyroost.Library.Bytes
import Keyroost.Library.Reader
import Keyroost.Library.Utf8

/-!
# The CBOR codec of CTAP2

`encode` and `decode` of `keyroost-ctap/src/cbor.rs` for the major types authenticators use, and
the second walker, `itemLen`, which only measures an item and so also takes tags and floats. With
it `splitArray` and `splitMap` cut a container into the bytes of its elements.

The decoders are readers (`Reader` of the library): from the bytes left to a value and the bytes
after it. Depths are counted down: `left` levels of nesting may still be opened, and the recursion
is on that number, so the limit of the source and the termination of the model are one thing. A
header's argument is a `UInt64`; lengths become indices only after the comparison with what is
left.
-/

namespace Keyroost.Ctap.Cbor

def MT_UINT : UInt8 := 0
def MT_NINT : UInt8 := 1
def MT_BYTES : UInt8 := 2
def MT_TEXT : UInt8 := 3
def MT_ARRAY : UInt8 := 4
def MT_MAP : UInt8 := 5
def MT_TAG : UInt8 := 6
def MT_SIMPLE : UInt8 := 7

def SIMPLE_FALSE : UInt8 := 20
def SIMPLE_TRUE : UInt8 := 21
def SIMPLE_NULL : UInt8 := 22
def SIMPLE_UNDEFINED : UInt8 := 23

def DECODE_DEPTH_LIMIT : Nat := 16

/-- A decoded or to-be-encoded CBOR value. `nInt n` is the integer `-(n + 1)`, and a
map keeps its entries in insertion order. -/
inductive Value where
  | uInt (n : UInt64)
  | nInt (n : UInt64)
  | bytes (b : List UInt8)
  | text (s : RustStr)
  | array (items : List Value)
  | map (entries : List (Value × Value))
  | bool (b : Bool)
  | null
deriving Repr

inductive CborError where
  | unexpectedEnd
  | invalidUtf8
  | unsupportedType (major : UInt8)
  | unsupportedAdditional (additional : UInt8)
  | depthLimit
deriving DecidableEq, Repr

namespace Value

def asUInt : Value → Option UInt64
  | uInt n => some n
  | _ => none

def asText : Value → Option RustStr
  | text s => some s
  | _ => none

def asBytes : Value → Option (List UInt8)
  | bytes b => some b
  | _ => none

def asMap : Value → Option (List (Value × Value))
  | map entries => some entries
  | _ => none

/-- The value of the first entry whose key is the unsigned integer `key`. -/
def getUIntKey (v : Value) (key : UInt64) : Option Value :=
  v.asMap.bind fun entries =>
    (entries.find? fun entry => entry.1.asUInt == some key).map (·.2)

end Value

/-! ### Encoding -/

/-- The first byte of an item, and its argument in the shortest form. -/
def encodeHeader (major : UInt8) (n : UInt64) : List UInt8 :=
  let mt := major <<< 5
  if n < 24 then [mt ||| n.toUInt8]
  else if n ≤ 0xFF then [mt ||| 24, n.toUInt8]
  else if n ≤ 0xFFFF then (mt ||| 25) :: Bytes.be 2 n.toNat
  else if n ≤ 0xFFFFFFFF then (mt ||| 26) :: Bytes.be 4 n.toNat
  else (mt ||| 27) :: Bytes.be 8 n.toNat

mutual

/-- `encode`, whose `encode_into` appends to a buffer. -/
def encode : Value → List UInt8
  | .uInt n => encodeHeader MT_UINT n
  | .nInt n => encodeHeader MT_NINT n
  | .bytes b => encodeHeader MT_BYTES b.length.toUInt64 ++ b
  | .text s => encodeHeader MT_TEXT s.len.toUInt64 ++ s.asBytes
  | .array items => encodeHeader MT_ARRAY items.length.toUInt64 ++ encodeItems items
  | .map entries => encodeHeader MT_MAP entries.length.toUInt64 ++ encodeEntries entries
  | .bool b => [(MT_SIMPLE <<< 5) ||| if b then SIMPLE_TRUE else SIMPLE_FALSE]
  | .null => [(MT_SIMPLE <<< 5) ||| SIMPLE_NULL]

def encodeItems : List Value → List UInt8
  | [] => []
  | v :: items => encode v ++ encodeItems items

def encodeEntries : List (Value × Value) → List UInt8
  | [] => []
  | (k, v) :: entries => encode k ++ encode v ++ encodeEntries entries

end

/-- The shortest header of an array of `len` items. -/
def arrayHeader (len : Nat) : List UInt8 := encodeHeader MT_ARRAY len.toUInt64

/-! ### Decoding -/

/-- A big-endian argument of `width` bytes. -/
def readBe (width : Nat) : Reader CborError UInt64 :=
  Reader.andThen (Reader.bytes .unexpectedEnd width) fun a =>
    Reader.done (UInt64.ofNat (Bytes.ofBe a))

/-- The argument that the low five bits of an item's first byte announce. -/
def readArg (additional : UInt8) : Reader CborError UInt64 :=
  if additional ≤ 23 then Reader.done additional.toUInt64
  else if additional = 24 then readBe 1
  else if additional = 25 then readBe 2
  else if additional = 26 then readBe 4
  else if additional = 27 then readBe 8
  else fun _ => .error (.unsupportedAdditional additional)

/-- The first byte of an item, cut into its major type and its low five bits, and
the argument. -/
structure Header where
  major : UInt8
  additional : UInt8
  arg : UInt64
deriving DecidableEq, Repr

def splitFirst : Reader CborError UInt8
  | [] => .error .unexpectedEnd
  | b :: rest => .ok (b, rest)

def readHeader : Reader CborError Header :=
  Reader.andThen splitFirst fun b =>
    Reader.andThen (readArg (b &&& 0x1f)) fun arg =>
      Reader.done { major := b >>> 5, additional := b &&& 0x1f, arg }

/-- `std::str::from_utf8`, with the decoder's error. -/
def textOf (bytes : List UInt8) : Reader CborError Value :=
  match Utf8.fromUtf8 bytes with
  | some s => Reader.done (.text s)
  | none => fun _ => .error .invalidUtf8

/-- The simple values CTAP2 has. -/
def simpleValue (additional : UInt8) : Reader CborError Value :=
  if additional = SIMPLE_FALSE then Reader.done (.bool false)
  else if additional = SIMPLE_TRUE then Reader.done (.bool true)
  else if additional = SIMPLE_NULL ∨ additional = SIMPLE_UNDEFINED then Reader.done .null
  else fun _ => .error (.unsupportedAdditional additional)

/-- What `decode_at` reads after a header; `item` decodes one level deeper. -/
def decodeBody (item : Reader CborError Value) (h : Header) : Reader CborError Value :=
  if h.major = MT_UINT then Reader.done (.uInt h.arg)
  else if h.major = MT_NINT then Reader.done (.nInt h.arg)
  else if h.major = MT_BYTES then
    Reader.andThen (Reader.bytes .unexpectedEnd h.arg.toNat) fun b => Reader.done (.bytes b)
  else if h.major = MT_TEXT then
    Reader.andThen (Reader.bytes .unexpectedEnd h.arg.toNat) textOf
  else if h.major = MT_ARRAY then
    Reader.andThen (Reader.many item h.arg.toNat) fun items => Reader.done (.array items)
  else if h.major = MT_MAP then
    Reader.andThen (Reader.many (Reader.pair item item) h.arg.toNat) fun entries =>
      Reader.done (.map entries)
  else if h.major = MT_SIMPLE then simpleValue h.additional
  else fun _ => .error (.unsupportedType h.major)

/-- `decode_at` with `left` levels to go. -/
def decodeAt : Nat → Reader CborError Value
  | 0 => fun _ => .error .depthLimit
  | left + 1 => Reader.andThen readHeader (decodeBody (decodeAt left))

/-- Decode a CBOR value, and give back the bytes after it. -/
def decode : Reader CborError Value := decodeAt (DECODE_DEPTH_LIMIT + 1)

/-! ### Measuring -/

/-- The loop over a container's items, from offset `at`. -/
def measureItems (measure : List UInt8 → Except CborError Nat) (data : List UInt8) :
    Nat → Nat → Except CborError Nat
  | 0, pos => .ok pos
  | count + 1, pos => do
      let len ← measure (data.drop pos)
      measureItems measure data count (pos + len)

/-- `item_len_at` with `left` levels to go. It measures an item without decoding it, so texts are
not looked at and nothing is kept. -/
def itemLenAt : Nat → List UInt8 → Except CborError Nat
  | 0, _ => .error .depthLimit
  | left + 1, data => do
      let (h, after) ← readHeader data
      let header := data.length - after.length
      let bodyFrom (len : Nat) : Except CborError Nat :=
        if data.length < header + len then .error .unexpectedEnd else .ok (header + len)
      if h.major = MT_UINT ∨ h.major = MT_NINT then return header
      else if h.major = MT_BYTES ∨ h.major = MT_TEXT then bodyFrom h.arg.toNat
      else if h.major = MT_ARRAY then measureItems (itemLenAt left) data h.arg.toNat header
      else if h.major = MT_MAP then
        -- The number of keys and values has to fit 64 bits.
        if 2 ^ 64 ≤ h.arg.toNat * 2 then throw .unexpectedEnd
        measureItems (itemLenAt left) data (h.arg.toNat * 2) header
      else if h.major = MT_TAG then
        let len ← itemLenAt left (data.drop header)
        bodyFrom len
      else return header

/-- Byte length of the item at the start of `data`, from its structure alone. -/
def itemLen (data : List UInt8) : Except CborError Nat := itemLenAt (DECODE_DEPTH_LIMIT + 1) data

/-- One item measured at depth 1, as raw bytes. -/
def rawItem : Reader CborError (List UInt8) := fun rest => do
  let len ← itemLenAt DECODE_DEPTH_LIMIT rest
  return (rest.take len, rest.drop len)

/-- The loop that `split_array` and `split_map` share, after the check of the first
byte. -/
def splitItems {α : Type} (major : UInt8) (item : Reader CborError α) : Reader CborError (List α) :=
  Reader.andThen splitFirst fun b =>
    if b >>> 5 ≠ major then fun _ => .error (.unsupportedType (b >>> 5))
    else Reader.andThen (readArg (b &&& 0x1f)) fun count => Reader.many item count.toNat

/-- The raw bytes of every element of an array, and the bytes after it. -/
def splitArray : Reader CborError (List (List UInt8)) := splitItems MT_ARRAY rawItem

/-- The raw bytes of every key and value of a map, and the bytes after it. -/
def splitMap : Reader CborError (List (List UInt8 × List UInt8)) :=
  splitItems MT_MAP (Reader.pair rawItem rawItem)

end Keyroost.Ctap.Cbor
