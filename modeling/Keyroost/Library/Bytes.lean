import Mathlib.Tactic.Ring

/-!
# Integers as bytes

Fixed-width little-endian and big-endian forms of a natural number, `le`, `be`, `ofLe` and `ofBe`.
A number that fits its width comes back from its bytes, bytes come back from their number, and the
number is below the power that the width allows.

The lemmas on two bytes relate the big-endian form to `UInt16`, as it is used for status words and
lengths.
-/

namespace Bytes

/-- The low `width` bytes of `n`, least significant first. -/
def le : Nat → Nat → List UInt8
  | 0, _ => []
  | width + 1, n => UInt8.ofNat n :: le width (n / 256)

def ofLe : List UInt8 → Nat
  | [] => 0
  | b :: bytes => b.toNat + 256 * ofLe bytes

/-- The low `width` bytes of `n`, most significant first. -/
def be (width n : Nat) : List UInt8 := (le width n).reverse

def ofBe (bytes : List UInt8) : Nat := ofLe bytes.reverse

@[simp] theorem length_le (width n : Nat) : (le width n).length = width := by
  induction width generalizing n with
  | zero => rfl
  | succ width ih => rw [le, List.length_cons, ih]

@[simp] theorem length_be (width n : Nat) : (be width n).length = width := by
  rw [be, List.length_reverse, length_le]

theorem ofLe_le {width n : Nat} (hn : n < 256 ^ width) : ofLe (le width n) = n := by
  induction width generalizing n with
  | zero =>
      rw [pow_zero, Nat.lt_one_iff] at hn
      rw [hn]
      rfl
  | succ width ih =>
      rw [pow_succ, mul_comm] at hn
      rw [le, ofLe, ih (Nat.div_lt_of_lt_mul hn), UInt8.toNat_ofNat']
      exact Nat.mod_add_div n 256

theorem ofBe_be {width n : Nat} (hn : n < 256 ^ width) : ofBe (be width n) = n := by
  rw [ofBe, be, List.reverse_reverse, ofLe_le hn]

theorem le_ofLe (bytes : List UInt8) : le bytes.length (ofLe bytes) = bytes := by
  induction bytes with
  | nil => rfl
  | cons b bytes ih =>
      have hlow : UInt8.ofNat (b.toNat + 256 * ofLe bytes) = b := by
        rw [← UInt8.toNat_inj, UInt8.toNat_ofNat', Nat.add_mul_mod_self_left]
        exact Nat.mod_eq_of_lt b.toNat_lt
      have hhigh : (b.toNat + 256 * ofLe bytes) / 256 = ofLe bytes := by
        have hb : b.toNat < 256 := b.toNat_lt
        omega
      rw [List.length_cons, ofLe, le, hlow, hhigh, ih]

theorem be_ofBe (bytes : List UInt8) : be bytes.length (ofBe bytes) = bytes := by
  have hrev := le_ofLe bytes.reverse
  rw [List.length_reverse] at hrev
  rw [be, ofBe, hrev, List.reverse_reverse]

theorem ofLe_lt (bytes : List UInt8) : ofLe bytes < 256 ^ bytes.length := by
  induction bytes with
  | nil => exact Nat.one_pos
  | cons b bytes ih =>
      have hb := b.toNat_lt
      rw [ofLe, List.length_cons, pow_succ]
      omega

theorem ofBe_lt (bytes : List UInt8) : ofBe bytes < 256 ^ bytes.length := by
  have h := ofLe_lt bytes.reverse
  rwa [List.length_reverse] at h

/-! ### Two bytes -/

theorem be_two (n : Nat) :
    be 2 (n % 2 ^ 16) = [(n >>> 8).toUInt8, (n &&& 0xFF).toUInt8] := by
  have hhi : UInt8.ofNat (n % 2 ^ 16 / 256) = (n >>> 8).toUInt8 := by
    rw [← UInt8.toNat_inj, Nat.toUInt8, UInt8.toNat_ofNat', UInt8.toNat_ofNat',
      Nat.shiftRight_eq_div_pow]
    omega
  have hlo : UInt8.ofNat (n % 2 ^ 16) = (n &&& 0xFF).toUInt8 := by
    rw [← UInt8.toNat_inj, Nat.toUInt8, UInt8.toNat_ofNat', UInt8.toNat_ofNat',
      show 0xFF = 2 ^ 8 - 1 from rfl, Nat.and_two_pow_sub_one_eq_mod]
    omega
  rw [← hhi, ← hlo]
  rfl

theorem toUInt16_bytes (n : Nat) : (n.toUInt16 >>> 8).toUInt8 = (n >>> 8).toUInt8 ∧
    (n.toUInt16 &&& 0xFF).toUInt8 = (n &&& 0xFF).toUInt8 := by
  have hn : n.toUInt16.toNat = n % 2 ^ 16 := UInt16.toNat_ofNat'
  have hshift : (n.toUInt16 >>> 8).toNat = n % 2 ^ 16 / 2 ^ 8 := by
    rw [UInt16.toNat_shiftRight, hn, Nat.shiftRight_eq_div_pow]
    rfl
  have hand : (n.toUInt16 &&& 0xFF).toNat = n % 2 ^ 16 % 2 ^ 8 := by
    have hmask : (0xFF : UInt16).toNat = 2 ^ 8 - 1 := rfl
    rw [UInt16.toNat_and, hn, hmask, Nat.and_two_pow_sub_one_eq_mod]
  constructor
  · rw [← UInt8.toNat_inj, UInt16.toNat_toUInt8, hshift, Nat.toUInt8, UInt8.toNat_ofNat',
      Nat.shiftRight_eq_div_pow]
    omega
  · rw [← UInt8.toNat_inj, UInt16.toNat_toUInt8, hand, Nat.toUInt8, UInt8.toNat_ofNat',
      show 0xFF = 2 ^ 8 - 1 from rfl, Nat.and_two_pow_sub_one_eq_mod]
    omega

/-- The two bytes of a length as code shifts and masks them. -/
theorem be_two_toUInt16 (n : Nat) :
    be 2 (n % 2 ^ 16) = [(n.toUInt16 >>> 8).toUInt8, (n.toUInt16 &&& 0xFF).toUInt8] := by
  obtain ⟨hhi, hlo⟩ := toUInt16_bytes n
  rw [be_two, ← hhi, ← hlo]

end Bytes
