import Keyroost.OpenPgp.Types
import Keyroost.Library.LeadingZeros

/-!
# BER-TLV objects of the OpenPGP card

Tags, lengths and objects as `keyroost-openpgp/src/lib.rs` writes and reads them. Writing goes up
to any length a `usize` holds; reading takes lengths of at most two bytes.

A tag is one or two bytes, and the reader tells which by the low bits of the first. `readLen` has
the cases of the source, and `readLen_berLen` and `readLen_berLen_long` say which lengths come
back. `parseTlvsFrom` is the loop over objects, with one step of fuel for each;
`parseTlvsFrom_berTlv` is its step for an object that was written.
-/

namespace Keyroost.OpenPgp

/-! ### Writing -/

def minimalBe (n : Nat) : List UInt8 :=
  if n = 0 then [0x00] else Bytes.strip (Bytes.be 8 n)

def berLen (len : Nat) : List UInt8 :=
  if len < 0x80 then [len.toUInt8]
  else (0x80 ||| (minimalBe len).length.toUInt8) :: minimalBe len

def berTag (tag : UInt16) : List UInt8 :=
  if 0xFF < tag then [(tag >>> 8).toUInt8, (tag &&& 0xFF).toUInt8] else [tag.toUInt8]

def berTlv (tag : UInt16) (value : List UInt8) : List UInt8 :=
  berTag tag ++ berLen value.length ++ value

/-! ### Reading -/

/-- The tag in front and the number of its bytes. -/
def readTag : List UInt8 → Except ParseError (UInt16 × Nat)
  | [] => .error .truncated
  | first :: rest =>
      if first &&& 0x1F ≠ 0x1F then .ok (first.toUInt16, 1)
      else
        match rest with
        | [] => .error .truncated
        | second :: _ =>
            if second &&& 0x80 ≠ 0 then .error .badTag
            else .ok (first.toUInt16 <<< 8 ||| second.toUInt16, 2)

/-- The length in front and the number of its own bytes. -/
def readLen : List UInt8 → Except ParseError (Nat × Nat)
  | [] => .error .truncated
  | first :: rest =>
      if first &&& 0x80 = 0 then .ok (first.toNat, 1)
      else if first = 0x81 then
        match rest with
        | n :: _ => .ok (n.toNat, 2)
        | [] => .error .truncated
      else if first = 0x82 then
        match rest with
        | hi :: lo :: _ => .ok (hi.toNat * 256 + lo.toNat, 3)
        | _ => .error .truncated
      else .error .unexpectedLength

structure Tlv where
  tag : UInt16
  constructed : Bool
  value : List UInt8
deriving DecidableEq, Repr

/-- The loop of `parse_tlvs`: the number counts down the bytes that may be left. -/
def parseTlvsFrom : Nat → List UInt8 → Except ParseError (List Tlv)
  | 0, _ => .ok []
  | _, [] => .ok []
  | left + 1, first :: rest => do
      let buf := first :: rest
      let (tag, tagLen) ← readTag buf
      let (len, lenLen) ← readLen (buf.drop tagLen)
      if buf.length < tagLen + lenLen + len then .error .truncated
      else
        let tail ← parseTlvsFrom left (buf.drop (tagLen + lenLen + len))
        return ⟨tag, first &&& 0x20 != 0, (buf.drop (tagLen + lenLen)).take len⟩ :: tail

def parseTlvs (buf : List UInt8) : Except ParseError (List Tlv) := parseTlvsFrom buf.length buf

/-! ### Lengths -/

theorem minimalBe_eq {n : Nat} (hpos : n ≠ 0) (h : n < 256 ^ 8) :
    minimalBe n = Bytes.minimal n := by
  rw [minimalBe, if_neg hpos, Bytes.strip_eq_minimal, Bytes.ofBe_be h]

theorem minimalBe_of_head {n : Nat} (width : Nat) (hlow : 256 ^ width ≤ n) (hhigh : n < 256 ^ (width + 1))
    (hwidth : width < 8) : minimalBe n = Bytes.be (width + 1) n := by
  have hpos : n ≠ 0 := by
    intro hzero
    rw [hzero] at hlow
    exact absurd hlow (Nat.not_le.mpr (Nat.pow_pos (by decide)))
  have hn : n < 256 ^ 8 := lt_of_lt_of_le hhigh (Nat.pow_le_pow_right (by decide) hwidth)
  have hfit : Bytes.ofBe (Bytes.be (width + 1) n) = n := Bytes.ofBe_be hhigh
  have hlen : (Bytes.strip (Bytes.be (width + 1) n)).length = width + 1 := by
    refine le_antisymm ?_ ?_
    · have h := Bytes.length_strip_le (Bytes.be (width + 1) n)
      rwa [Bytes.length_be] at h
    · by_contra hshort
      have hlt := Bytes.ofBe_lt (Bytes.strip (Bytes.be (width + 1) n))
      rw [Bytes.ofBe_strip, hfit] at hlt
      have hle : 256 ^ (Bytes.strip (Bytes.be (width + 1) n)).length ≤ 256 ^ width :=
        Nat.pow_le_pow_right (by decide) (by omega)
      omega
  have hsame : Bytes.strip (Bytes.be (width + 1) n) = Bytes.be (width + 1) n := by
    refine Bytes.eq_of_ofBe_eq ?_ (Bytes.ofBe_strip _)
    rw [hlen, Bytes.length_be]
  rw [minimalBe_eq hpos hn, ← hsame, Bytes.strip_eq_minimal, hfit]

theorem berLen_short {len : Nat} (h : len < 0x80) : berLen len = [len.toUInt8] := if_pos h

theorem berLen_one {len : Nat} (hlow : 0x80 ≤ len) (hhigh : len < 0x100) :
    berLen len = 0x81 :: Bytes.be 1 len := by
  have hmin : minimalBe len = Bytes.be 1 len :=
    minimalBe_of_head 0 (by omega) (by omega) (by decide)
  rw [berLen, if_neg (Nat.not_lt.mpr hlow), hmin, Bytes.length_be]
  rfl

theorem berLen_two {len : Nat} (hlow : 0x100 ≤ len) (hhigh : len < 0x10000) :
    berLen len = 0x82 :: Bytes.be 2 len := by
  have hmin : minimalBe len = Bytes.be 2 len :=
    minimalBe_of_head 1 (by omega) (by omega) (by decide)
  rw [berLen, if_neg (by omega), hmin, Bytes.length_be]
  rfl

theorem readLen_berLen {len : Nat} (h : len ≤ 0xFFFF) (tail : List UInt8) :
    readLen (berLen len ++ tail) = .ok (len, (berLen len).length) := by
  rcases Nat.lt_or_ge len 0x80 with hshort | hlong
  · have hlen : len.toUInt8.toNat = len := by
      rw [Nat.toUInt8, UInt8.toNat_ofNat']
      omega
    have hbit : len.toUInt8 &&& 0x80 = 0 := by
      have hall : ∀ b : Fin 128, (UInt8.ofNat b.val) &&& 0x80 = 0 := by decide
      exact hall ⟨len, hshort⟩
    rw [berLen_short hshort, List.singleton_append, readLen.eq_def]
    calc _ = Except.ok (len.toUInt8.toNat, 1) := if_pos hbit
      _ = .ok (len, 1) := by rw [hlen]
  · rcases Nat.lt_or_ge len 0x100 with hone | htwo
    · obtain ⟨n, hbe⟩ : ∃ n, Bytes.be 1 len = [n] := ⟨_, rfl⟩
      have hvalue : n.toNat = len := by
        have hback := Bytes.ofBe_be (show len < 256 ^ 1 by omega)
        rw [hbe] at hback
        have hone' : Bytes.ofBe [n] = n.toNat + 256 * 0 := rfl
        omega
      rw [berLen_one hlong hone, hbe]
      show Except.ok (n.toNat, 2) = _
      rw [hvalue]
      rfl
    · obtain ⟨hi, lo, hbe⟩ : ∃ hi lo, Bytes.be 2 len = [hi, lo] := ⟨_, _, rfl⟩
      have hvalue : hi.toNat * 256 + lo.toNat = len := by
        have hback := Bytes.ofBe_be (show len < 256 ^ 2 by omega)
        rw [hbe] at hback
        have htwo' : Bytes.ofBe [hi, lo] = lo.toNat + 256 * (hi.toNat + 256 * 0) := rfl
        omega
      rw [berLen_two htwo (by omega), hbe]
      show Except.ok (hi.toNat * 256 + lo.toNat, 3) = _
      rw [hvalue]
      rfl

/-- A length of three bytes or more is not read. -/
theorem readLen_berLen_long {len : Nat} (h : 0x10000 ≤ len) (hfit : len < 256 ^ 8)
    (tail : List UInt8) : readLen (berLen len ++ tail) = .error .unexpectedLength := by
  have hpos : len ≠ 0 := by omega
  have hmin := minimalBe_eq hpos hfit
  have hlow : 2 < (minimalBe len).length := by
    by_contra hshort
    rw [hmin] at hshort
    have hlt := Bytes.lt_of_length_minimal_le (Nat.le_of_not_lt hshort)
    omega
  have hhigh : (minimalBe len).length ≤ 8 := by
    rw [hmin]
    exact Bytes.length_minimal_le hfit
  have hall : ∀ k : Fin 9, 2 < k.val → ¬ (0x80 ||| UInt8.ofNat k.val) &&& 0x80 = 0 ∧
      (0x80 ||| UInt8.ofNat k.val) ≠ 0x81 ∧ (0x80 ||| UInt8.ofNat k.val) ≠ 0x82 := by decide
  obtain ⟨hflag, h81, h82⟩ := hall ⟨_, Nat.lt_succ_of_le hhigh⟩ hlow
  rw [berLen, if_neg (by omega), List.cons_append, readLen.eq_def]
  exact (if_neg hflag).trans ((if_neg h81).trans (if_neg h82))

/-! ### Objects -/

/-- A tag reads back as itself, and whether it says a constructed object. -/
def TagReads (tag : UInt16) (constructed : Bool) : Prop :=
  ∃ first more, berTag tag = first :: more ∧ (first &&& 0x20 != 0) = constructed ∧
    ∀ tail, readTag (first :: (more ++ tail)) = .ok (tag, more.length + 1)

/-- **One object** in front of others reads back, tag, value and rest. -/
theorem parseTlvsFrom_berTlv {tag : UInt16} {constructed : Bool} (htag : TagReads tag constructed)
    {value : List UInt8} (h : value.length ≤ 0xFFFF) (tail : List UInt8) (left : Nat) :
    parseTlvsFrom (left + 1) (berTlv tag value ++ tail) =
      (parseTlvsFrom left tail).map fun rest => ⟨tag, constructed, value⟩ :: rest := by
  obtain ⟨first, more, hbytes, hbit, hread⟩ := htag
  have hsplit : berTlv tag value ++ tail =
      first :: (more ++ (berLen value.length ++ (value ++ tail))) := by
    rw [berTlv, hbytes]
    simp only [List.append_assoc, List.cons_append]
  have hdropTag : (first :: (more ++ (berLen value.length ++ (value ++ tail)))).drop
      (more.length + 1) = berLen value.length ++ (value ++ tail) := by
    rw [List.drop_succ_cons, List.drop_left]
  have hdropLen : (first :: (more ++ (berLen value.length ++ (value ++ tail)))).drop
      (more.length + 1 + (berLen value.length).length) = value ++ tail := by
    rw [← List.drop_drop, hdropTag, List.drop_left]
  have hdropValue : (first :: (more ++ (berLen value.length ++ (value ++ tail)))).drop
      (more.length + 1 + (berLen value.length).length + value.length) = tail := by
    rw [← List.drop_drop, hdropLen, List.drop_left]
  have hroom : ¬ (first :: (more ++ (berLen value.length ++ (value ++ tail)))).length <
      more.length + 1 + (berLen value.length).length + value.length := by
    simp only [List.length_cons, List.length_append]
    omega
  rw [hsplit, parseTlvsFrom, hread]
  simp only [bind, Except.bind, hdropTag, readLen_berLen h, hroom, if_false, hdropLen, hdropValue,
    List.take_left, hbit]
  cases parseTlvsFrom left tail <;> rfl

theorem parseTlvsFrom_nil (left : Nat) : parseTlvsFrom left [] = .ok [] := by
  cases left <;> rfl

/-- An object whose value is too long for two bytes of length is not read. -/
theorem parseTlvs_berTlv_long {tag : UInt16} {constructed : Bool}
    (htag : TagReads tag constructed) {value : List UInt8} (h : 0x10000 ≤ value.length)
    (hfit : value.length < 256 ^ 8) : parseTlvs (berTlv tag value) = .error .unexpectedLength := by
  obtain ⟨first, more, hbytes, -, hread⟩ := htag
  have hsplit : berTlv tag value = first :: (more ++ (berLen value.length ++ value)) := by
    rw [berTlv, hbytes]
    simp only [List.append_assoc, List.cons_append]
  have hdropTag : (first :: (more ++ (berLen value.length ++ value))).drop (more.length + 1) =
      berLen value.length ++ value := by
    rw [List.drop_succ_cons, List.drop_left]
  rw [parseTlvs, hsplit, List.length_cons, parseTlvsFrom, hread]
  simp only [bind, Except.bind, hdropTag, readLen_berLen_long h hfit]

end Keyroost.OpenPgp
