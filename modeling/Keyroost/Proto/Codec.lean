import Keyroost.Library.RustStr

/-!
# The base32 and base64 readers of the protocol crate

The readers of `keyroost-proto/src/codec.rs` and its base64 writer. Both readers keep the bits not
yet turned into bytes in a buffer, tolerate white space, take `=` only at the end, and refuse
left-over bits that are not zero.

Each loop is a fold of one step over the characters, with the buffer, the count of its bits and the
bytes written out as its state, at the widths of the source. The base32 reader also skips dashes and
takes letters of either case; the base64 reader takes the letters of both alphabets that are in use.
-/

namespace Keyroost.Proto.Codec

inductive DecodeError where
  | invalidLength
  | invalidChar
deriving DecidableEq, Repr

/-! ### base32 -/

/-- The loop's variables: bits read and not yet written out, and whether a `=`
was seen. -/
structure Base32State where
  buf : UInt64 := 0
  bits : UInt64 := 0
  out : List UInt8 := []
  padded : Bool := false
deriving DecidableEq, Repr

/-- The five bits a base32 character stands for. -/
def base32Value (c : Char) : Option UInt64 :=
  if 'A' ≤ c ∧ c ≤ 'Z' then some (c.toNat - 'A'.toNat).toUInt64
  else if 'a' ≤ c ∧ c ≤ 'z' then some (c.toNat - 'a'.toNat).toUInt64
  else if '2' ≤ c ∧ c ≤ '7' then some (c.toNat - '2'.toNat + 26).toUInt64
  else none

/-- One turn of `base32_decode`'s loop. Separators and padding give no bits; after padding only
separators and more of it are accepted. -/
def base32Step (s : Base32State) (c : Char) : Except DecodeError Base32State :=
  if c = ' ' ∨ c = '-' ∨ c = '\t' ∨ c = '\n' ∨ c = '\r' then .ok s
  else if c = '=' then .ok { s with padded := true }
  else if s.padded then .error .invalidChar
  else
    match base32Value c with
    | none => .error .invalidChar
    | some v =>
        let buf := (s.buf <<< 5) ||| v
        let bits := s.bits + 5
        if 8 ≤ bits then
          .ok { s with
            buf := buf
            bits := bits - 8
            out := s.out ++ [((buf >>> (bits - 8)) &&& 0xff).toUInt8] }
        else .ok { s with buf := buf, bits := bits }

/-- RFC 4648 base32. -/
def base32Decode (s : RustStr) : Except DecodeError (List UInt8) := do
  let final ← s.foldlM base32Step {}
  if 0 < final.bits ∧ final.buf &&& ((1 <<< final.bits) - 1) ≠ 0 then
    throw .invalidLength
  return final.out

/-! ### base64 -/

/-- The loop's variables of `base64_decode`, whose buffer has 32 bits. -/
structure Base64State where
  buf : UInt32 := 0
  bits : UInt32 := 0
  out : List UInt8 := []
  padded : Bool := false
deriving DecidableEq, Repr

/-- The six bits a base64 character stands for, in either alphabet. -/
def base64Value (c : Char) : Option UInt32 :=
  if 'A' ≤ c ∧ c ≤ 'Z' then some (c.toNat - 'A'.toNat).toUInt32
  else if 'a' ≤ c ∧ c ≤ 'z' then some (c.toNat - 'a'.toNat + 26).toUInt32
  else if '0' ≤ c ∧ c ≤ '9' then some (c.toNat - '0'.toNat + 52).toUInt32
  else if c = '+' ∨ c = '-' then some 62
  else if c = '/' ∨ c = '_' then some 63
  else none

/-- One turn of `base64_decode`'s loop. White space and padding give no bits; after padding only
white space and more of it are accepted. -/
def base64Step (s : Base64State) (c : Char) : Except DecodeError Base64State :=
  if c = ' ' ∨ c = '\t' ∨ c = '\n' ∨ c = '\r' then .ok s
  else if c = '=' then .ok { s with padded := true }
  else if s.padded then .error .invalidChar
  else
    match base64Value c with
    | none => .error .invalidChar
    | some v =>
        let buf := (s.buf <<< 6) ||| v
        let bits := s.bits + 6
        if 8 ≤ bits then
          .ok { s with
            buf := buf
            bits := bits - 8
            out := s.out ++ [((buf >>> (bits - 8)) &&& 0xff).toUInt8] }
        else .ok { s with buf := buf, bits := bits }

/-- RFC 4648 base64, in the standard and the URL-safe alphabet. -/
def base64Decode (s : RustStr) : Except DecodeError (List UInt8) := do
  let final ← s.foldlM base64Step {}
  if 0 < final.bits ∧ final.buf &&& ((1 <<< final.bits) - 1) ≠ 0 then
    throw .invalidLength
  return final.out

def ALPHABET : RustStr :=
  "ABCDEFGHIJKLMNOPQRSTUVWXYZabcdefghijklmnopqrstuvwxyz0123456789+/".toList

/-- The character of the last six bits. -/
def base64Char (n : UInt32) : Char := ALPHABET.getD (n &&& 0x3f).toNat '='

/-- One chunk of the bytes, three but at the end. -/
def base64Chunk (b0 : UInt8) (b1 b2 : Option UInt8) : RustStr :=
  let n := (b0.toUInt32 <<< 16) ||| ((b1.getD 0).toUInt32 <<< 8) ||| (b2.getD 0).toUInt32
  [base64Char (n >>> 18), base64Char (n >>> 12),
    if b1.isSome then base64Char (n >>> 6) else '=', if b2.isSome then base64Char n else '=']

def base64Encode : List UInt8 → RustStr
  | [] => []
  | [b0] => base64Chunk b0 none none
  | [b0, b1] => base64Chunk b0 (some b1) none
  | b0 :: b1 :: b2 :: bytes => base64Chunk b0 (some b1) (some b2) ++ base64Encode bytes

end Keyroost.Proto.Codec
