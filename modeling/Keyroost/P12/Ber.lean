import Keyroost.Library.Bytes
import Keyroost.Library.Reader

/-!
# Reading BER

Elements of definite or indefinite length, and constructed OCTET STRINGs, whose segments are
joined, from `keyroost-p12/src/ber.rs`.

The reader finds an element's extent first (`extent`), which for an indefinite length means to walk
through its members, and then cuts it out of its input. Both walks go down one level at a time and
recurse on the levels that are left, up to the limit of the source; the loops over members have the
length of their input as fuel, which is enough since each member takes at least one byte.
-/

namespace Keyroost.P12

inductive P12Error where
  | malformed (what : String)
  | wrongPassword
  | unsupported (what : String)
  | noKey
  | tooLarge
deriving DecidableEq, Repr

variable {α : Type}

def bad (what : String) : Except P12Error α := .error (.malformed what)

/-- Deepest nesting the reader follows. -/
def MAX_DEPTH : Nat := 32

structure Tlv where
  tag : UInt8
  constructed : Bool
  value : List UInt8
deriving DecidableEq, Repr

/-- The tag, the length unless it is indefinite, and the length of both. Lengths need not be in
their shortest form, and tags of several bytes are refused. -/
def header (input : List UInt8) : Except P12Error (UInt8 × Option Nat × Nat) :=
  match input with
  | [] => bad "truncated element"
  | tag :: rest =>
      if tag &&& 0x1F = 0x1F then bad "multi-byte tags are not used"
      else
        match rest with
        | [] => bad "truncated length"
        | first :: body =>
            if first < 0x80 then .ok (tag, some first.toNat, 2)
            else
              let n := (first &&& 0x7F).toNat
              if n = 0 then
                if tag &&& 0x20 = 0 then bad "indefinite length on a primitive element"
                else .ok (tag, none, 2)
              else if 8 < n then bad "length too large"
              else if body.length < n then bad "truncated length"
              else .ok (tag, some (Bytes.ofBe (body.take n)), 2 + n)

/-- Where one element sits in its input: the lengths of its header, of its content without
an end-of-contents marker, and of all of it. -/
structure Extent where
  tag : UInt8
  hlen : Nat
  clen : Nat
  total : Nat
deriving DecidableEq, Repr

/-- Walk the elements of an indefinite content up to its marker. Every element takes a byte, so
the length of the content is enough fuel. -/
def contentsEnd (inner : List UInt8 → Except P12Error Extent) (body : List UInt8) :
    Nat → Nat → Except P12Error Nat
  | 0, _ => bad "missing end of contents"
  | fuel + 1, pos =>
      let here := body.drop pos
      if here.length < 2 then bad "missing end of contents"
      else if here.take 2 = [0, 0] then .ok pos
      else do
        let e ← inner here
        contentsEnd inner body fuel (pos + e.total)

/-- `levels` is what is left of `MAX_DEPTH`. An indefinite length is that of the elements up to
the end marker, so only there the element's contents are looked into. -/
def extent : Nat → List UInt8 → Except P12Error Extent
  | 0, _ => bad "nesting too deep"
  | levels + 1, input => do
      let (tag, len, hlen) ← header input
      if input.length < hlen then bad "truncated element"
      else
        let body := input.drop hlen
        match len with
        | some clen =>
            if body.length < clen then bad "length exceeds input"
            else return ⟨tag, hlen, clen, hlen + clen⟩
        | none =>
            let pos ← contentsEnd (extent levels) body (body.length + 1) 0
            return ⟨tag, hlen, pos, hlen + pos + 2⟩

/-- The content of an element, and what follows the element. -/
def cut (input : List UInt8) (e : Extent) : Except P12Error (List UInt8 × List UInt8) :=
  if input.length < e.hlen + e.clen ∨ input.length < e.total then bad "truncated element"
  else .ok ((input.drop e.hlen).take e.clen, input.drop e.total)

/-- One segment of a constructed OCTET STRING. -/
def readSegment (inner : List UInt8 → Except P12Error Extent)
    (nested : List UInt8 → Except P12Error (List UInt8)) : Reader P12Error (List UInt8) :=
  fun rest => do
    let e ← inner rest
    let (segment, rest) ← cut rest e
    if e.tag = 0x04 then return (segment, rest)
    else if e.tag = 0x24 then return (← nested segment, rest)
    else bad "unexpected element inside an octet string"

def flattenOctets : Nat → List UInt8 → Except P12Error (List UInt8)
  | 0, _ => bad "nesting too deep"
  | levels + 1, content => do
      let segments ← Reader.toEnd (.malformed "truncated element")
        (readSegment (extent levels) (flattenOctets levels)) content.length content
      return segments.flatten

def readTlv : Reader P12Error Tlv := fun input => do
  let e ← extent MAX_DEPTH input
  let (content, rest) ← cut input e
  let value ← if e.tag = 0x24 then flattenOctets MAX_DEPTH content else pure content
  return (⟨e.tag, e.tag &&& 0x20 != 0, value⟩, rest)

/-- The elements of a constructed element. -/
def children (value : List UInt8) : Except P12Error (List Tlv) :=
  Reader.toEnd (.malformed "truncated element") readTlv value.length value

end Keyroost.P12
