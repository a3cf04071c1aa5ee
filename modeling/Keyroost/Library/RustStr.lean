import Mathlib.Algebra.Ring.Nat
import Mathlib.Data.List.DropRight

/-!
# Rust text on character lists

A Rust `str` is a sequence of Unicode scalar values stored as UTF-8. Here it is the list of its
characters, and the byte view (`asBytes`, `len`) is derived from it. The functions carry the names
of the `str` methods they follow, with their documented behaviour: what counts as white space, where
a split leaves an empty piece, which numbers are read.

The lemmas are the ones needed to reason about text that is cut at a separator and put together
again, and about decimal numbers that are written and read (`parseUnsigned_decimal`).
-/

/-- A Rust `String` or `&str`. -/
abbrev RustStr := List Char

namespace RustStr

/-! ### The byte view -/

/-- `str::as_bytes`. -/
def asBytes (s : RustStr) : List UInt8 := s.flatMap String.utf8EncodeChar

/-- `str::len`: the length in bytes. -/
def len (s : RustStr) : Nat := s.asBytes.length

@[simp] theorem asBytes_nil : asBytes [] = [] := rfl

@[simp] theorem asBytes_cons (c : Char) (s : RustStr) :
    asBytes (c :: s) = String.utf8EncodeChar c ++ asBytes s := rfl

@[simp] theorem asBytes_append (s t : RustStr) :
    asBytes (s ++ t) = asBytes s ++ asBytes t := by
  simp [asBytes]

@[simp] theorem len_nil : len [] = 0 := rfl

@[simp] theorem len_cons (c : Char) (s : RustStr) : len (c :: s) = c.utf8Size + len s := by
  simp [len]

@[simp] theorem len_append (s t : RustStr) : len (s ++ t) = len s + len t := by
  simp [len]

/-- `str::is_char_boundary`. -/
def isCharBoundary : RustStr → Nat → Bool
  | _, 0 => true
  | [], _ + 1 => false
  | c :: s, n + 1 => decide (c.utf8Size ≤ n + 1) && isCharBoundary s (n + 1 - c.utf8Size)

/-- `&s[..n]`, for an `n` on a character boundary. -/
def takeBytes : RustStr → Nat → RustStr
  | [], _ => []
  | c :: s, n => if c.utf8Size ≤ n then c :: takeBytes s (n - c.utf8Size) else []

theorem len_takeBytes_le (s : RustStr) (n : Nat) : len (takeBytes s n) ≤ n := by
  induction s generalizing n with
  | nil => simp [takeBytes]
  | cons c s ih =>
      simp only [takeBytes]
      split
      · rename_i hfits
        have htail := ih (n - c.utf8Size)
        simp only [len_cons]
        omega
      · simp

/-! ### Character classes and case -/

/-- `char::is_whitespace`: the Unicode property White_Space. -/
def isWhitespace (c : Char) : Bool :=
  let n := c.toNat
  (9 ≤ n && n ≤ 13) || n == 0x20 || n == 0x85 || n == 0xA0 || n == 0x1680 ||
    (0x2000 ≤ n && n ≤ 0x200A) || n == 0x2028 || n == 0x2029 || n == 0x202F ||
    n == 0x205F || n == 0x3000

/-- `u8::is_ascii_digit`, on the character (every byte of a non-ASCII
character is past the digits). -/
def isAsciiDigit (c : Char) : Bool := c.isDigit

/-- `str::is_ascii`. -/
def isAscii (s : RustStr) : Bool := s.all fun c => decide (c.toNat < 128)

/-- `str::to_ascii_uppercase`. -/
def toAsciiUppercase (s : RustStr) : RustStr := s.map Char.toUpper

/-- `str::to_ascii_lowercase`. -/
def toAsciiLowercase (s : RustStr) : RustStr := s.map Char.toLower

/-- `str::contains`, for text. -/
def containsStr (s pat : RustStr) : Bool := s.tails.any fun t => pat.isPrefixOf t

/-- `str::eq_ignore_ascii_case`. -/
def eqIgnoreAsciiCase (s t : RustStr) : Bool := s.map Char.toLower == t.map Char.toLower

/-! ### Trimming and prefixes -/

/-- `str::trim_start`. -/
def trimStart (s : RustStr) : RustStr := s.dropWhile isWhitespace

/-- `str::trim`. -/
def trim (s : RustStr) : RustStr := (trimStart s).rdropWhile isWhitespace

/-- `str::strip_prefix`. -/
def stripPrefix : RustStr → RustStr → Option RustStr
  | [], s => some s
  | _ :: _, [] => none
  | p :: ps, c :: s => if p = c then stripPrefix ps s else none

/-- `str::starts_with`. -/
def startsWith (s pre : RustStr) : Bool := pre.isPrefixOf s

/-! ### Cutting at a separator -/

/-- `str::split_once`, for a one-character separator. -/
def splitOnce (sep : Char) : RustStr → Option (RustStr × RustStr)
  | [] => none
  | c :: s =>
      if c = sep then some ([], s)
      else (splitOnce sep s).map fun halves => (c :: halves.1, halves.2)

theorem splitOnce_eq_none (sep : Char) (s : RustStr) :
    splitOnce sep s = none ↔ sep ∉ s := by
  induction s with
  | nil => simp [splitOnce]
  | cons c s ih =>
      by_cases hc : c = sep
      · simp [splitOnce, hc]
      · simp [splitOnce, hc, ih, Ne.symm hc]

/-- The cut is at the first separator. -/
theorem splitOnce_eq_some (sep : Char) (s head tail : RustStr) :
    splitOnce sep s = some (head, tail) ↔ s = head ++ sep :: tail ∧ sep ∉ head := by
  induction s generalizing head with
  | nil => simp [splitOnce]
  | cons c s ih =>
      by_cases hc : c = sep
      · subst hc
        simp only [splitOnce, if_true, Option.some.injEq, Prod.mk.injEq]
        cases head with
        | nil => simp [eq_comm]
        | cons h head => simp +contextual
      · cases head with
        | nil => simp [splitOnce, hc]
        | cons h head =>
            have htail := ih head
            simp only [splitOnce, hc, if_false, Option.map_eq_some_iff, Prod.mk.injEq,
              List.cons.injEq, List.cons_append, List.mem_cons, not_or, Prod.exists]
            constructor
            · rintro ⟨first, second, hsplit, ⟨rfl, rfl⟩, rfl⟩
              obtain ⟨hs, hnotin⟩ := htail.mp hsplit
              exact ⟨⟨rfl, hs⟩, Ne.symm hc, hnotin⟩
            · rintro ⟨⟨rfl, hs⟩, -, hnotin⟩
              exact ⟨head, tail, htail.mpr ⟨hs, hnotin⟩, ⟨rfl, rfl⟩, rfl⟩

/-- Cutting text that was put together around a separator. -/
theorem splitOnce_append (sep : Char) (head tail : RustStr) (hnotin : sep ∉ head) :
    splitOnce sep (head ++ sep :: tail) = some (head, tail) :=
  (splitOnce_eq_some sep _ head tail).mpr ⟨rfl, hnotin⟩

/-- A line without its carriage return, if it ends in one. -/
def stripCarriageReturn (s : RustStr) : RustStr :=
  if s.getLast? = some '\r' then s.dropLast else s

/-- `str::lines`: a final line needs no line feed, and a carriage return is
dropped only in front of one. -/
def lines (s : RustStr) : List RustStr :=
  let pieces := s.splitOn '\n'
  pieces.dropLast.map stripCarriageReturn ++
    (match pieces.getLast? with
    | none | some [] => []
    | some last => [last])

/-! ### Decimal numbers -/

/-- `format!("{}", n)` for an unsigned number. -/
def decimal (n : Nat) : RustStr := Nat.toDigits 10 n

/-- `str::parse` for an unsigned type of `bits` bits: an optional plus sign,
then decimal digits that stay in range. -/
def parseUnsigned (bits : Nat) (s : RustStr) : Option Nat :=
  let digits := match s with
    | '+' :: rest => rest
    | _ => s
  if digits ≠ [] ∧ digits.all isAsciiDigit = true ∧ Nat.ofDigitChars 10 digits 0 < 2 ^ bits then
    some (Nat.ofDigitChars 10 digits 0)
  else none

/-- `str::parse::<u32>`. -/
def parseU32 (s : RustStr) : Option UInt32 := (parseUnsigned 32 s).map UInt32.ofNat

/-- `str::parse::<u64>`. -/
def parseU64 (s : RustStr) : Option UInt64 := (parseUnsigned 64 s).map UInt64.ofNat

theorem decimal_ne_nil (n : Nat) : decimal n ≠ [] := Nat.toDigits_ne_nil

theorem decimal_all_isAsciiDigit (n : Nat) : (decimal n).all isAsciiDigit = true := by
  rw [List.all_eq_true]
  intro c hc
  exact Nat.isDigit_of_mem_toDigits (by decide) (by decide) hc

theorem not_mem_decimal {c : Char} (hc : isAsciiDigit c = false) (n : Nat) : c ∉ decimal n := by
  intro hmem
  have hdigit := List.all_eq_true.mp (decimal_all_isAsciiDigit n) c hmem
  rw [hc] at hdigit
  exact absurd hdigit (by decide)

/-- A number printed in decimal is read back. -/
theorem parseUnsigned_decimal {bits n : Nat} (hn : n < 2 ^ bits) :
    parseUnsigned bits (decimal n) = some n := by
  have hplus : '+' ∉ decimal n := not_mem_decimal (by decide) n
  have hdigits : (match decimal n with
      | '+' :: rest => rest
      | _ => decimal n) = decimal n := by
    split
    · rename_i rest heq
      exact absurd (by simp [heq]) hplus
    · rfl
  have hvalue : Nat.ofDigitChars 10 (decimal n) 0 = n := Nat.ofDigitChars_ten_toDigits
  simp only [parseUnsigned, hdigits, hvalue]
  rw [if_pos ⟨decimal_ne_nil n, decimal_all_isAsciiDigit n, hn⟩]

theorem parseU32_decimal (n : UInt32) : parseU32 (decimal n.toNat) = some n := by
  rw [parseU32, parseUnsigned_decimal n.toNat_lt]
  simp

end RustStr
