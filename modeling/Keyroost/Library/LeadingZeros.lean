import Keyroost.Library.Bytes
import Mathlib.Data.Nat.Digits.Lemmas

/-!
# Integers with zero bytes in front

The big-endian integer that bytes stand for is that of the bytes without the zeros in front, and the
integer determines these: `strip_eq_strip` says that two byte strings stand for one integer exactly
if they are the same without their zeros.

Formats that write an integer in as few bytes as it takes, and code that drops zeros by hand, are
related through `strip_eq_minimal`.
-/

/-! ### Numbers in as few bytes as they take -/

namespace Bytes

/-- A natural number, most significant byte first, with no zero byte in front. -/
def minimal (n : Nat) : List UInt8 := ((Nat.digits 256 n).map UInt8.ofNat).reverse

/-- A number with bytes put behind it. -/
def foldBe (n : Nat) (bytes : List UInt8) : Nat := bytes.foldl (fun n b => n * 256 + b.toNat) n

@[simp] theorem foldBe_nil (n : Nat) : foldBe n [] = n := rfl

@[simp] theorem foldBe_cons (n : Nat) (b : UInt8) (bytes : List UInt8) :
    foldBe n (b :: bytes) = foldBe (n * 256 + b.toNat) bytes := rfl

theorem foldBe_minimal (n : Nat) : foldBe 0 (minimal n) = n := by
  rw [foldBe, minimal, List.foldl_reverse, List.foldr_map]
  conv_rhs => rw [← Nat.ofDigits_digits 256 n, Nat.ofDigits_eq_foldr]
  have hdigits : ∀ d ∈ Nat.digits 256 n, d < 256 := fun d hd => Nat.digits_lt_base (by decide) hd
  generalize Nat.digits 256 n = digits at hdigits
  induction digits with
  | nil => rfl
  | cons d digits ih =>
      rw [List.foldr_cons, List.foldr_cons, ih fun d hd => hdigits d (List.mem_cons_of_mem _ hd),
        UInt8.toNat_ofNat_of_lt' (hdigits d List.mem_cons_self), Nat.cast_id,
        add_comm, mul_comm]

theorem length_minimal_le {n width : Nat} (hn : n < 256 ^ width) : (minimal n).length ≤ width := by
  rw [minimal, List.length_reverse, List.length_map]
  exact (Nat.digits_length_le_iff (by decide) n).mpr hn

theorem lt_of_length_minimal_le {n width : Nat} (h : (minimal n).length ≤ width) :
    n < 256 ^ width := by
  rw [minimal, List.length_reverse, List.length_map] at h
  exact (Nat.digits_length_le_iff (by decide) n).mp h

theorem minimal_ne_nil {n : Nat} (hn : n ≠ 0) : minimal n ≠ [] := by
  rw [minimal, Ne, List.reverse_eq_nil_iff, List.map_eq_nil_iff]
  exact Nat.digits_ne_nil_iff_ne_zero.mpr hn

end Bytes

/-! ### Integers with zero bytes in front -/

namespace Bytes

/-- The bytes from the first that is not zero. -/
def strip (bytes : List UInt8) : List UInt8 := bytes.dropWhile fun b => b == 0

/-- Zeros in front, up to a width. -/
def padTo (width : Nat) (bytes : List UInt8) : List UInt8 :=
  List.replicate (width - bytes.length) 0 ++ bytes

theorem ofLe_append_zero (bytes : List UInt8) : ofLe (bytes ++ [0]) = ofLe bytes := by
  induction bytes with
  | nil => rfl
  | cons b bytes ih => rw [List.cons_append, ofLe, ofLe, ih]

theorem ofBe_zero_cons (bytes : List UInt8) : ofBe (0 :: bytes) = ofBe bytes := by
  rw [ofBe, List.reverse_cons, ofLe_append_zero, ofBe]

theorem strip_zero_cons (bytes : List UInt8) : strip (0 :: bytes) = strip bytes := rfl

theorem strip_cons {b : UInt8} (hb : b ≠ 0) (bytes : List UInt8) :
    strip (b :: bytes) = b :: bytes := by
  rw [strip, List.dropWhile_cons_of_neg]
  rw [beq_iff_eq]
  exact hb

theorem strip_replicate_append (n : Nat) (bytes : List UInt8) :
    strip (List.replicate n 0 ++ bytes) = strip bytes := by
  induction n with
  | zero => rfl
  | succ n ih => rw [List.replicate_succ, List.cons_append, strip_zero_cons, ih]

theorem ofBe_strip (bytes : List UInt8) : ofBe (strip bytes) = ofBe bytes := by
  induction bytes with
  | nil => rfl
  | cons b bytes ih =>
      by_cases hb : b = 0
      · rw [hb, strip_zero_cons, ofBe_zero_cons, ih]
      · rw [strip_cons hb]

theorem ofBe_padTo (width : Nat) (bytes : List UInt8) : ofBe (padTo width bytes) = ofBe bytes := by
  rw [← ofBe_strip, padTo, strip_replicate_append, ofBe_strip]

theorem length_padTo {width : Nat} {bytes : List UInt8} (h : bytes.length ≤ width) :
    (padTo width bytes).length = width := by
  rw [padTo, List.length_append, List.length_replicate]
  omega

theorem length_strip_le (bytes : List UInt8) : (strip bytes).length ≤ bytes.length :=
  (List.dropWhile_suffix _).length_le

/-- The zeros that were taken off are the ones that are put back. -/
theorem padTo_strip (bytes : List UInt8) : padTo bytes.length (strip bytes) = bytes := by
  induction bytes with
  | nil => rfl
  | cons b bytes ih =>
      by_cases hb : b = 0
      · have hlen := length_strip_le bytes
        rw [hb, strip_zero_cons, padTo, List.length_cons, Nat.succ_sub hlen, List.replicate_succ,
          List.cons_append]
        exact congrArg (0 :: ·) ih
      · rw [strip_cons hb, padTo, Nat.sub_self]
        rfl

theorem strip_head {bytes : List UInt8} {b : UInt8} {rest : List UInt8}
    (h : strip bytes = b :: rest) : b ≠ 0 := by
  induction bytes with
  | nil => cases h
  | cons a bytes ih =>
      by_cases ha : a = 0
      · rw [ha, strip_zero_cons] at h
        exact ih h
      · rw [strip_cons ha] at h
        cases h
        exact ha

theorem ofLe_eq_ofDigits (bytes : List UInt8) :
    ofLe bytes = Nat.ofDigits 256 (bytes.map UInt8.toNat) := by
  induction bytes with
  | nil => rfl
  | cons b bytes ih => rw [ofLe, ih, List.map_cons, Nat.ofDigits_cons]

theorem getLast_digits {bytes : List UInt8} (h : ∀ b rest, bytes = b :: rest → b ≠ 0)
    (hne : bytes.reverse.map UInt8.toNat ≠ []) :
    (bytes.reverse.map UInt8.toNat).getLast hne ≠ 0 := by
  cases bytes with
  | nil => exact absurd rfl hne
  | cons b rest =>
      have hb := h b rest rfl
      simp only [List.reverse_cons, List.map_append, List.map_cons, List.map_nil,
        List.getLast_append_singleton]
      exact fun hzero => hb (UInt8.toNat_inj.mp hzero)

/-- Without zeros in front, bytes are the integer's own. -/
theorem strip_eq_minimal (bytes : List UInt8) : strip bytes = minimal (ofBe bytes) := by
  have hvalue : ofBe bytes = Nat.ofDigits 256 ((strip bytes).reverse.map UInt8.toNat) := by
    rw [← ofBe_strip, ofBe, ofLe_eq_ofDigits]
  have hdigits : Nat.digits 256 (ofBe bytes) = (strip bytes).reverse.map UInt8.toNat := by
    rw [hvalue]
    refine Nat.digits_ofDigits 256 (by decide) _ (fun d hd => ?_) fun hne => ?_
    · obtain ⟨b, -, rfl⟩ := List.mem_map.mp hd
      exact b.toNat_lt
    · exact getLast_digits (fun b rest => strip_head) hne
  have hmap : ∀ l : List UInt8, (l.map UInt8.toNat).map UInt8.ofNat = l := by
    intro l
    rw [List.map_map]
    exact List.map_id'' (fun b => UInt8.ofNat_toNat) l
  rw [minimal, hdigits, hmap, List.reverse_reverse]

/-- Bytes for one integer differ in zeros in front only. -/
theorem strip_eq_strip {a b : List UInt8} : strip a = strip b ↔ ofBe a = ofBe b := by
  constructor
  · intro h
    rw [← ofBe_strip, h, ofBe_strip]
  · intro h
    rw [strip_eq_minimal, h, strip_eq_minimal]

/-- Bytes of one length for one integer are the same. -/
theorem eq_of_ofBe_eq {a b : List UInt8} (hlen : a.length = b.length) (h : ofBe a = ofBe b) :
    a = b := by
  rw [← padTo_strip a, ← padTo_strip b, hlen, strip_eq_strip.mpr h]

end Bytes
