import Keyroost.Library.RustStr

/-!
# UTF-8 on byte lists

`String::from_utf8` and `String::from_utf8_lossy`. One character is decoded by the core decoder;
these functions repeat it over a whole byte string.

The strict reader is the exact inverse of `RustStr.asBytes`: it reads what that writes
(`fromUtf8_asBytes`) and nothing else (`asBytes_of_fromUtf8`). The lossy one agrees with it on text
that is UTF-8 and puts a replacement character for what is not.
-/

namespace Utf8

open RustStr (asBytes)

/-- The character at the front of `bytes`, if one is encoded there. A character
takes at most four bytes, so no more are looked at. -/
def decodeChar? (bytes : List UInt8) : Option Char :=
  (bytes.take 4).toByteArray.utf8DecodeChar? 0

theorem take_four_encodeChar_append (c : Char) (rest : List UInt8) :
    ∃ more, (String.utf8EncodeChar c ++ rest).take 4 = String.utf8EncodeChar c ++ more := by
  refine ⟨rest.take (4 - (String.utf8EncodeChar c).length), ?_⟩
  have hsize : (String.utf8EncodeChar c).length ≤ 4 := by
    simpa using c.utf8Size_le_four
  rw [List.take_append, List.take_of_length_le hsize]

theorem decodeChar?_encode (c : Char) (rest : List UInt8) :
    decodeChar? (String.utf8EncodeChar c ++ rest) = some c := by
  obtain ⟨more, hmore⟩ := take_four_encodeChar_append c rest
  rw [decodeChar?, hmore, List.toByteArray_append]
  exact ByteArray.utf8DecodeChar?_utf8EncodeChar_append

/-- A decoded character is the one whose encoding stands in front. -/
theorem eq_encode_of_decodeChar? {bytes : List UInt8} {c : Char}
    (h : decodeChar? bytes = some c) :
    bytes = String.utf8EncodeChar c ++ bytes.drop c.utf8Size := by
  obtain ⟨more, hmore⟩ := ByteArray.exists_of_utf8DecodeChar?_eq_some h
  have hlist : bytes.take 4 = String.utf8EncodeChar c ++ more.data.toList := by
    have hdata := congrArg (fun array => array.data.toList) hmore
    simpa using hdata
  have hlen : (String.utf8EncodeChar c).length = c.utf8Size := by simp
  have hfront : bytes = String.utf8EncodeChar c ++ (more.data.toList ++ bytes.drop 4) := by
    rw [← List.append_assoc, ← hlist, List.take_append_drop]
  have hrest : bytes.drop c.utf8Size = more.data.toList ++ bytes.drop 4 := by
    conv_lhs => rw [hfront]
    rw [← hlen, List.drop_left]
  rw [hrest]
  exact hfront

/-! ### Strict decoding -/

/-- Decode with at most `fuel` characters left to read. -/
def fromUtf8Fuel : Nat → List UInt8 → Option RustStr
  | _, [] => some []
  | 0, _ :: _ => none
  | fuel + 1, b :: bytes => do
      let c ← decodeChar? (b :: bytes)
      let rest ← fromUtf8Fuel fuel ((b :: bytes).drop c.utf8Size)
      return c :: rest

/-- `String::from_utf8`. Every character takes a byte, so the length is enough
fuel. -/
def fromUtf8 (bytes : List UInt8) : Option RustStr := fromUtf8Fuel bytes.length bytes

/-- The bytes of a text start with its first character, and the rest follows. -/
theorem asBytes_cons_eq (c : Char) (s : RustStr) :
    ∃ b bytes, RustStr.asBytes (c :: s) = b :: bytes ∧ decodeChar? (b :: bytes) = some c ∧
      (b :: bytes).drop c.utf8Size = asBytes s := by
  have hpos : String.utf8EncodeChar c ≠ [] := by
    intro hnil
    have hlen := congrArg List.length hnil
    simp [c.utf8Size_pos.ne'] at hlen
  obtain ⟨b, bytes, hb⟩ := List.exists_cons_of_ne_nil
    (show RustStr.asBytes (c :: s) ≠ [] by simp [hpos])
  refine ⟨b, bytes, hb, ?_, ?_⟩
  · rw [← hb, RustStr.asBytes_cons, decodeChar?_encode]
  · rw [← hb, RustStr.asBytes_cons, ← String.length_utf8EncodeChar, List.drop_left]

theorem fromUtf8Fuel_asBytes (s : RustStr) :
    ∀ fuel, s.length ≤ fuel → fromUtf8Fuel fuel s.asBytes = some s := by
  induction s with
  | nil =>
      intro fuel _
      cases fuel <;> rfl
  | cons c s ih =>
      intro fuel hfuel
      obtain ⟨fuel, rfl⟩ : ∃ n, fuel = n + 1 := ⟨fuel - 1, by simp at hfuel; omega⟩
      obtain ⟨b, bytes, hb, hdecode, hdrop⟩ := asBytes_cons_eq c s
      rw [hb]
      simp only [fromUtf8Fuel, hdecode, Option.bind_eq_bind, Option.bind_some, hdrop,
        ih fuel (by simpa using hfuel)]
      rfl

theorem length_le_len (s : RustStr) : s.length ≤ s.len := by
  induction s with
  | nil => simp
  | cons c s ih =>
      have hpos := c.utf8Size_pos
      simp only [List.length_cons, RustStr.len_cons]
      omega

theorem len_le (s : RustStr) : s.len ≤ 4 * s.length := by
  induction s with
  | nil => simp
  | cons c s ih =>
      have hsize := c.utf8Size_le_four
      simp only [List.length_cons, RustStr.len_cons]
      omega

/-- Text survives the trip through its bytes. -/
@[simp] theorem fromUtf8_asBytes (s : RustStr) : fromUtf8 s.asBytes = some s :=
  fromUtf8Fuel_asBytes s _ (length_le_len s)

theorem asBytes_of_fromUtf8Fuel (fuel : Nat) :
    ∀ (bytes : List UInt8) (s : RustStr), fromUtf8Fuel fuel bytes = some s → s.asBytes = bytes := by
  induction fuel with
  | zero =>
      intro bytes s h
      cases bytes with
      | nil =>
          simp only [fromUtf8Fuel, Option.some.injEq] at h
          subst h
          rfl
      | cons b bytes => simp [fromUtf8Fuel] at h
  | succ fuel ih =>
      intro bytes s h
      cases bytes with
      | nil =>
          simp only [fromUtf8Fuel, Option.some.injEq] at h
          subst h
          rfl
      | cons b bytes =>
          simp only [fromUtf8Fuel, Option.bind_eq_bind, Option.bind_eq_some_iff] at h
          obtain ⟨c, hdecode, rest, hrest, hs⟩ := h
          obtain rfl : c :: rest = s := by simpa using hs
          rw [RustStr.asBytes_cons, ih _ rest hrest]
          exact (eq_encode_of_decodeChar? hdecode).symm

/-- Only the bytes of a text decode to it. -/
theorem asBytes_of_fromUtf8 {bytes : List UInt8} {s : RustStr}
    (h : fromUtf8 bytes = some s) : s.asBytes = bytes :=
  asBytes_of_fromUtf8Fuel _ bytes s h

/-! ### Lossy decoding -/

/-- A continuation byte. -/
def isTail (b : Option UInt8) : Bool :=
  match b with
  | some b => b &&& 0xC0 == 0x80
  | none => false

def inRange (b : Option UInt8) (low high : UInt8) : Bool :=
  match b with
  | some b => low ≤ b && b ≤ high
  | none => false

/-- Whether `second` may follow the lead byte `first` of a three- or four-byte
character. -/
def secondFits (first : UInt8) (second : Option UInt8) : Bool :=
  if first = 0xE0 then inRange second 0xA0 0xBF
  else if first = 0xED then inRange second 0x80 0x9F
  else if 0xE1 ≤ first && first ≤ 0xEF then inRange second 0x80 0xBF
  else if first = 0xF0 then inRange second 0x90 0xBF
  else if 0xF1 ≤ first && first ≤ 0xF3 then inRange second 0x80 0xBF
  else if first = 0xF4 then inRange second 0x80 0x8F
  else false

/-- How many bytes one replacement character stands for, where `bytes` starts
with no valid character: the longest start of a character that is there, or the
one byte that starts none. -/
def invalidLen (bytes : List UInt8) : Nat :=
  match bytes with
  | [] => 0
  | first :: _ =>
      if secondFits first bytes[1]? = false then 1
      else if first ≤ 0xEF then 2
      else if isTail bytes[2]? = false then 2
      else 3

/-- `String::from_utf8_lossy`, with at most `fuel` characters left to read. -/
def fromUtf8LossyFuel : Nat → List UInt8 → RustStr
  | _, [] => []
  | 0, _ :: _ => []
  | fuel + 1, b :: bytes =>
      match decodeChar? (b :: bytes) with
      | some c => c :: fromUtf8LossyFuel fuel ((b :: bytes).drop c.utf8Size)
      | none => '\uFFFD' :: fromUtf8LossyFuel fuel ((b :: bytes).drop (invalidLen (b :: bytes)))

/-- `String::from_utf8_lossy`: every part that is no character becomes U+FFFD. -/
def fromUtf8Lossy (bytes : List UInt8) : RustStr := fromUtf8LossyFuel bytes.length bytes

theorem fromUtf8LossyFuel_asBytes (s : RustStr) :
    ∀ fuel, s.length ≤ fuel → fromUtf8LossyFuel fuel s.asBytes = s := by
  induction s with
  | nil =>
      intro fuel _
      cases fuel <;> rfl
  | cons c s ih =>
      intro fuel hfuel
      cases fuel with
      | zero => cases hfuel
      | succ fuel =>
          obtain ⟨b, bytes, hb, hdecode, hdrop⟩ := asBytes_cons_eq c s
          rw [hb]
          simp only [fromUtf8LossyFuel, hdecode, hdrop]
          rw [ih fuel (Nat.le_of_succ_le_succ hfuel)]

/-- Nothing is lost of a text. -/
theorem fromUtf8Lossy_asBytes (s : RustStr) : fromUtf8Lossy s.asBytes = s :=
  fromUtf8LossyFuel_asBytes s _ (length_le_len s)

end Utf8
