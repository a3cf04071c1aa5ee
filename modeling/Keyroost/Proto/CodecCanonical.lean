import Keyroost.Library.Checks
import Keyroost.Library.Regroup
import Keyroost.Proto.Codec

/-!
# Which texts the base32 and base64 readers take

A text that a reader of `Codec` takes is the one a writer makes of its bytes, up to its separators,
its letters and its padding, when a writer makes a text of its length.

Both loops are instances of `Regroup` of the library, which turns digits of one width into digits of
another: what is left for each alphabet is a table (`base32_table`, `base64_table`) and the step of
the loop on a digit, on a separator and on `=`. The base64 writer of the crate is shown to be the
one of the library (`base64Encode_eq`). `decode_canonical` is the result, and `decode_takes_others`
has texts of other lengths that are taken too.
-/

namespace Keyroost.Proto.Codec

open Regroup

/-! ### The two alphabets -/

def isSeparator32 (c : Char) : Bool :=
  decide (c = ' ' ∨ c = '-' ∨ c = '\t' ∨ c = '\n' ∨ c = '\r')

def isSeparator64 (c : Char) : Bool := decide (c = ' ' ∨ c = '\t' ∨ c = '\n' ∨ c = '\r')

def base32Digit (d : Nat) : Char := "ABCDEFGHIJKLMNOPQRSTUVWXYZ234567".toList.getD d '='

def base64Digit (d : Nat) : Char := ALPHABET.getD d '='

/-- The standard character for a URL-safe one. -/
def standardChar (c : Char) : Char := if c = '-' then '+' else if c = '_' then '/' else c

/-- Every character with a value is an ASCII one. -/
theorem ascii_of_base32Value {c : Char} {v : UInt64} (h : base32Value c = some v) :
    c.toNat < 128 := by
  rw [base32Value] at h
  split at h
  · rename_i hc
    exact Nat.lt_of_le_of_lt hc.2 (by decide)
  · split at h
    · rename_i hc
      exact Nat.lt_of_le_of_lt hc.2 (by decide)
    · split at h
      · rename_i hc
        exact Nat.lt_of_le_of_lt hc.2 (by decide)
      · cases h

theorem ascii_of_base64Value {c : Char} {v : UInt32} (h : base64Value c = some v) :
    c.toNat < 128 := by
  rw [base64Value] at h
  split at h
  · rename_i hc
    exact Nat.lt_of_le_of_lt hc.2 (by decide)
  · split at h
    · rename_i hc
      exact Nat.lt_of_le_of_lt hc.2 (by decide)
    · split at h
      · rename_i hc
        exact Nat.lt_of_le_of_lt hc.2 (by decide)
      · split at h
        · rename_i hc
          rcases hc with rfl | rfl
          all_goals decide
        · split at h
          · rename_i hc
            rcases hc with rfl | rfl
            all_goals decide
          · cases h

/-- The ASCII characters of base32 and their digits, one by one. -/
theorem base32_table :
    (∀ n < 128, (base32Value (Char.ofNat n)).all (fun v =>
      decide (v.toNat < 32) && decide (base32Digit v.toNat = (Char.ofNat n).toUpper)) = true) ∧
    ∀ d < 2 ^ 5, (base32Value (base32Digit d)).map UInt64.toNat = some d ∧
      isSeparator32 (base32Digit d) = false ∧ base32Digit d ≠ '=' := by
  decide

theorem base64_table :
    (∀ n < 128, (base64Value (Char.ofNat n)).all (fun v =>
      decide (v.toNat < 64) && decide (base64Digit v.toNat = standardChar (Char.ofNat n))) =
        true) ∧
    ∀ d < 2 ^ 6, (base64Value (base64Digit d)).map UInt32.toNat = some d ∧
      isSeparator64 (base64Digit d) = false ∧ base64Digit d ≠ '=' := by
  decide +kernel

theorem base32Value_spec {c : Char} {v : UInt64} (h : base32Value c = some v) :
    v.toNat < 32 ∧ base32Digit v.toNat = c.toUpper := by
  have hall := base32_table.1 c.toNat (ascii_of_base32Value h)
  rw [Char.ofNat_toNat, h, Option.all_some, Bool.and_eq_true, decide_eq_true_iff,
    decide_eq_true_iff] at hall
  exact hall

theorem base64Value_spec {c : Char} {v : UInt32} (h : base64Value c = some v) :
    v.toNat < 64 ∧ base64Digit v.toNat = standardChar c := by
  have hall := base64_table.1 c.toNat (ascii_of_base64Value h)
  rw [Char.ofNat_toNat, h, Option.all_some, Bool.and_eq_true, decide_eq_true_iff,
    decide_eq_true_iff] at hall
  exact hall

theorem base32Value_digit : ∀ d < 2 ^ 5,
    (base32Value (base32Digit d)).map UInt64.toNat = some d :=
  fun d hd => (base32_table.2 d hd).1

theorem base64Value_digit : ∀ d < 2 ^ 6,
    (base64Value (base64Digit d)).map UInt32.toNat = some d :=
  fun d hd => (base64_table.2 d hd).1

theorem base32Digit_plain : ∀ d < 2 ^ 5,
    isSeparator32 (base32Digit d) = false ∧ base32Digit d ≠ '=' :=
  fun d hd => (base32_table.2 d hd).2

theorem base64Digit_plain : ∀ d < 2 ^ 6,
    isSeparator64 (base64Digit d) = false ∧ base64Digit d ≠ '=' :=
  fun d hd => (base64_table.2 d hd).2

/-- Letters in upper case. -/
def base32Alphabet : Alphabet 5 where
  skip := isSeparator32
  value c := (base32Value c).map UInt64.toNat
  digit := base32Digit
  norm := Char.toUpper
  value_lt c d h := by
    obtain ⟨v, hv, rfl⟩ := Option.map_eq_some_iff.mp h
    exact (base32Value_spec hv).1
  digit_value c d h := by
    obtain ⟨v, hv, rfl⟩ := Option.map_eq_some_iff.mp h
    exact (base32Value_spec hv).2
  value_digit := base32Value_digit
  digit_plain := base32Digit_plain

/-- The standard alphabet. -/
def base64Alphabet : Alphabet 6 where
  skip := isSeparator64
  value c := (base64Value c).map UInt32.toNat
  digit := base64Digit
  norm := standardChar
  value_lt c d h := by
    obtain ⟨v, hv, rfl⟩ := Option.map_eq_some_iff.mp h
    exact (base64Value_spec hv).1
  digit_value c d h := by
    obtain ⟨v, hv, rfl⟩ := Option.map_eq_some_iff.mp h
    exact (base64Value_spec hv).2
  value_digit := base64Value_digit
  digit_plain := base64Digit_plain

/-- RFC 4648 base32, in groups of eight. -/
def base32Encode (bytes : List UInt8) : RustStr := base32Alphabet.text 8 bytes

/-- A base32 text in upper case without separators, padded to groups of eight. -/
def base32Normal (s : RustStr) : RustStr := base32Alphabet.normal 8 s

/-- A base64 text in the standard alphabet without white space, padded to groups of four. -/
def base64Normal (s : RustStr) : RustStr := base64Alphabet.normal 4 s

/-! ### The loops -/

/-- What the loop has read: the digits, as bytes written out and bits in the buffer. -/
structure Base32State.Reads (st : Base32State) (ds : List Nat) : Prop where
  holds : Holds 5 ds st.out st.bits.toNat (st.buf.toNat % 2 ^ st.bits.toNat)
  room : st.bits.toNat < 8

structure Base64State.Reads (st : Base64State) (ds : List Nat) : Prop where
  holds : Holds 6 ds st.out st.bits.toNat (st.buf.toNat % 2 ^ st.bits.toNat)
  room : st.bits.toNat < 8

theorem base32Step_skip {st : Base32State} {c : Char} (h : isSeparator32 c = true) :
    base32Step st c = .ok st := by
  rw [base32Step, if_pos (of_decide_eq_true h)]

theorem base64Step_skip {st : Base64State} {c : Char} (h : isSeparator64 c = true) :
    base64Step st c = .ok st := by
  rw [base64Step, if_pos (of_decide_eq_true h)]

theorem base64Step_pad {st : Base64State} {c : Char} (h : isSeparator64 c = false) (hc : c = '=') :
    base64Step st c = .ok { st with padded := true } := by
  rw [base64Step, if_neg (of_decide_eq_false h), if_pos hc]

theorem base32Step_pad {st : Base32State} {c : Char} (h : isSeparator32 c = false) (hc : c = '=') :
    base32Step st c = .ok { st with padded := true } := by
  rw [base32Step, if_neg (of_decide_eq_false h), if_pos hc]

/-- The byte that is written out, of a buffer of 64 bits. -/
theorem toNat_byte32 (buf : UInt64) {k : UInt64} (hk : k.toNat < 64) :
    ((buf >>> k) &&& 0xff).toUInt8.toNat = buf.toNat % 2 ^ (k.toNat + 8) / 2 ^ k.toNat := by
  rw [UInt64.toNat_toUInt8, UInt64.toNat_and, UInt64.toNat_shiftRight, Nat.mod_eq_of_lt hk,
    ← byte_eq]
  exact (congrArg (· % 256) (Nat.and_two_pow_sub_one_eq_mod _ 8)).trans (Nat.mod_mod _ _)

theorem toNat_byte64 (buf : UInt32) {k : UInt32} (hk : k.toNat < 32) :
    ((buf >>> k) &&& 0xff).toUInt8.toNat = buf.toNat % 2 ^ (k.toNat + 8) / 2 ^ k.toNat := by
  rw [UInt32.toNat_toUInt8, UInt32.toNat_and, UInt32.toNat_shiftRight, Nat.mod_eq_of_lt hk,
    ← byte_eq]
  exact (congrArg (· % 256) (Nat.and_two_pow_sub_one_eq_mod _ 8)).trans (Nat.mod_mod _ _)

theorem base32Step_digit {st : Base32State} {ds : List Nat} {c : Char} {v : UInt64}
    (hst : st.Reads ds) (hpad : st.padded = false) (hskip : isSeparator32 c = false)
    (hc : c ≠ '=') (hv : base32Value c = some v) :
    ∃ st', base32Step st c = .ok st' ∧ st'.padded = false ∧ st'.Reads (ds ++ [v.toNat]) := by
  obtain ⟨hholds, hroom⟩ := hst
  have hlt : v.toNat < 2 ^ 5 := (base32Value_spec hv).1
  have hbits : (st.bits + 5).toNat = st.bits.toNat + 5 := by
    rw [UInt64.toNat_add]
    exact Nat.mod_eq_of_lt (Nat.lt_of_lt_of_le (Nat.add_lt_add_right hroom 5) (by decide))
  have hbuf : ((st.buf <<< 5) ||| v).toNat % 2 ^ (st.bits.toNat + 5) =
      st.buf.toNat % 2 ^ st.bits.toNat * 2 ^ 5 + v.toNat := by
    rw [UInt64.toNat_or, UInt64.toNat_shiftLeft]
    exact push_mod hlt (show st.bits.toNat + 5 ≤ 64 by omega)
  have hkept := hholds.keep hlt
  rw [← hbuf, ← hbits] at hkept
  rw [base32Step, if_neg (of_decide_eq_false hskip), if_neg hc, hpad, if_neg Bool.false_ne_true,
    hv]
  dsimp only
  split
  · rename_i hfull
    have hle : 8 ≤ (st.bits + 5).toNat := UInt64.le_iff_toNat_le.mp hfull
    have hrest : (st.bits + 5 - 8).toNat + 8 = (st.bits + 5).toNat := by
      rw [UInt64.toNat_sub_of_le _ _ hfull]
      exact Nat.sub_add_cancel hle
    refine ⟨_, rfl, rfl, ?_, by dsimp only; omega⟩
    rw [← hrest] at hkept
    have hemit := hkept.emit (toNat_byte32 ((st.buf <<< 5) ||| v) (by omega))
    rw [Nat.mod_mod_of_dvd _ (pow_dvd_pow 2 (Nat.le_add_right _ 8))] at hemit
    exact hemit
  · rename_i hfull
    have hle : ¬ 8 ≤ (st.bits + 5).toNat := fun hle => hfull (UInt64.le_iff_toNat_le.mpr hle)
    exact ⟨_, rfl, rfl, hkept, Nat.lt_of_not_le hle⟩

theorem base64Step_digit {st : Base64State} {ds : List Nat} {c : Char} {v : UInt32}
    (hst : st.Reads ds) (hpad : st.padded = false) (hskip : isSeparator64 c = false)
    (hc : c ≠ '=') (hv : base64Value c = some v) :
    ∃ st', base64Step st c = .ok st' ∧ st'.padded = false ∧ st'.Reads (ds ++ [v.toNat]) := by
  obtain ⟨hholds, hroom⟩ := hst
  have hlt : v.toNat < 2 ^ 6 := (base64Value_spec hv).1
  have hbits : (st.bits + 6).toNat = st.bits.toNat + 6 := by
    rw [UInt32.toNat_add]
    exact Nat.mod_eq_of_lt (Nat.lt_of_lt_of_le (Nat.add_lt_add_right hroom 6) (by decide))
  have hbuf : ((st.buf <<< 6) ||| v).toNat % 2 ^ (st.bits.toNat + 6) =
      st.buf.toNat % 2 ^ st.bits.toNat * 2 ^ 6 + v.toNat := by
    rw [UInt32.toNat_or, UInt32.toNat_shiftLeft]
    exact push_mod hlt (show st.bits.toNat + 6 ≤ 32 by omega)
  have hkept := hholds.keep hlt
  rw [← hbuf, ← hbits] at hkept
  rw [base64Step, if_neg (of_decide_eq_false hskip), if_neg hc, hpad, if_neg Bool.false_ne_true,
    hv]
  dsimp only
  split
  · rename_i hfull
    have hle : 8 ≤ (st.bits + 6).toNat := UInt32.le_iff_toNat_le.mp hfull
    have hrest : (st.bits + 6 - 8).toNat + 8 = (st.bits + 6).toNat := by
      rw [UInt32.toNat_sub_of_le _ _ hfull]
      exact Nat.sub_add_cancel hle
    refine ⟨_, rfl, rfl, ?_, by dsimp only; omega⟩
    rw [← hrest] at hkept
    have hemit := hkept.emit (toNat_byte64 ((st.buf <<< 6) ||| v) (by omega))
    rw [Nat.mod_mod_of_dvd _ (pow_dvd_pow 2 (Nat.le_add_right _ 8))] at hemit
    exact hemit
  · rename_i hfull
    have hle : ¬ 8 ≤ (st.bits + 6).toNat := fun hle => hfull (UInt32.le_iff_toNat_le.mpr hle)
    exact ⟨_, rfl, rfl, hkept, Nat.lt_of_not_le hle⟩

def base32Loop : base32Alphabet.Loop Base32State DecodeError where
  step := base32Step
  padded := Base32State.padded
  reads := Base32State.Reads
  skip st c h := base32Step_skip h
  pad st h := ⟨_, base32Step_pad h rfl, fun _ hst => ⟨hst.holds, hst.room⟩⟩
  digit st ds c d hst hpad hskip hc hd := by
    obtain ⟨v, hv, rfl⟩ := Option.map_eq_some_iff.mp hd
    exact base32Step_digit hst hpad hskip hc hv
  refuse st c hskip hc h := by
    refine ⟨.invalidChar, ?_⟩
    rw [base32Step, if_neg (of_decide_eq_false hskip), if_neg hc]
    rcases h with hpad | hvalue
    · rw [hpad, if_pos rfl]
    · rw [Option.map_eq_none_iff.mp hvalue, ite_self]

def base64Loop : base64Alphabet.Loop Base64State DecodeError where
  step := base64Step
  padded := Base64State.padded
  reads := Base64State.Reads
  skip st c h := base64Step_skip h
  pad st h := ⟨_, base64Step_pad h rfl, fun _ hst => ⟨hst.holds, hst.room⟩⟩
  digit st ds c d hst hpad hskip hc hd := by
    obtain ⟨v, hv, rfl⟩ := Option.map_eq_some_iff.mp hd
    exact base64Step_digit hst hpad hskip hc hv
  refuse st c hskip hc h := by
    refine ⟨.invalidChar, ?_⟩
    rw [base64Step, if_neg (of_decide_eq_false hskip), if_neg hc]
    rcases h with hpad | hvalue
    · rw [hpad, if_pos rfl]
    · rw [Option.map_eq_none_iff.mp hvalue, ite_self]

/-! ### The readers -/

/-- The bits that are left in the buffer. -/
theorem toNat_left32 {buf bits : UInt64} (hbits : bits.toNat < 8) :
    (buf &&& ((1 <<< bits) - 1)).toNat = buf.toNat % 2 ^ bits.toNat := by
  have hpow : 2 ^ bits.toNat < 2 ^ 64 := Nat.pow_lt_pow_right (by decide) (by omega)
  have hone : ((1 : UInt64) <<< bits).toNat = 2 ^ bits.toNat := by
    rw [UInt64.toNat_shiftLeft, Nat.mod_eq_of_lt (show bits.toNat < 64 by omega), Nat.shiftLeft_eq]
    exact (Nat.mod_eq_of_lt ((Nat.one_mul _).symm ▸ hpow)).trans (Nat.one_mul _)
  have hle : (1 : UInt64) ≤ 1 <<< bits := by
    rw [UInt64.le_iff_toNat_le, hone]
    exact Nat.one_le_two_pow
  rw [UInt64.toNat_and, UInt64.toNat_sub_of_le _ _ hle, hone]
  exact Nat.and_two_pow_sub_one_eq_mod _ _

theorem left_iff32 {st : Base32State} (hroom : st.bits.toNat < 8) :
    (0 < st.bits ∧ st.buf &&& ((1 <<< st.bits) - 1) ≠ 0) ↔
      st.buf.toNat % 2 ^ st.bits.toNat ≠ 0 := by
  rw [← toNat_left32 hroom]
  constructor
  · rintro ⟨-, hleft⟩ hzero
    exact hleft (UInt64.toNat_inj.mp hzero)
  · intro hleft
    refine ⟨?_, fun hzero => hleft (congrArg UInt64.toNat hzero)⟩
    rw [UInt64.lt_iff_toNat_lt]
    refine Nat.pos_of_ne_zero ?_
    intro hzero
    rw [toNat_left32 hroom, show st.bits.toNat = 0 from hzero, pow_zero, Nat.mod_one] at hleft
    exact hleft rfl

/-- A text is taken when the loop comes through and leaves no bit. -/
theorem base32Decode_ok_iff {s : RustStr} {out : List UInt8} :
    base32Decode s = .ok out ↔ ∃ st, s.foldlM base32Step {} = .ok st ∧
      ¬ (0 < st.bits ∧ st.buf &&& ((1 <<< st.bits) - 1) ≠ 0) ∧ st.out = out := by
  rw [base32Decode, Checks.bind_eq_ok]
  simp only [Checks.throw_bind, Checks.check_eq_ok, Checks.pure_eq_ok]

theorem base32Decode_holds {s : RustStr} {out : List UInt8} (h : base32Decode s = .ok out) :
    (∀ c ∈ base32Alphabet.data s, (base32Alphabet.value c).isSome) ∧
      ∃ bits < 8, Holds 5 (base32Alphabet.digitsIn s) out bits 0 := by
  obtain ⟨st, hfold, hleft, rfl⟩ := base32Decode_ok_iff.mp h
  obtain ⟨hreads, hall⟩ := base32Loop.fold_reads hfold ⟨Holds.nil 5, Nat.zero_lt_succ 7⟩
  rw [left_iff32 hreads.room, not_not] at hleft
  have hholds := hreads.holds
  rw [hleft] at hholds
  exact ⟨hall, st.bits.toNat, hreads.room, hholds⟩

/-- The reader takes what a writer makes of digits without a bit left. -/
theorem base32Decode_text {ds : List Nat} {bytes : List UInt8} {bits : Nat}
    (hds : ∀ d ∈ ds, d < 2 ^ 5) (h : Holds 5 ds bytes bits 0) (hbits : bits < 8) (n : Nat) :
    base32Decode (ds.map base32Alphabet.digit ++ List.replicate n '=') = .ok bytes := by
  have hstart : Base32State.Reads {} [] := ⟨Holds.nil 5, Nat.zero_lt_succ 7⟩
  obtain ⟨st, hfold, hreads⟩ := base32Loop.fold_text (by decide) hds hstart rfl n
  obtain ⟨hout, -, hleft⟩ := hreads.holds.bytes_eq h hreads.room hbits
  refine base32Decode_ok_iff.mpr ⟨st, hfold, ?_, hout⟩
  rw [left_iff32 hreads.room, not_not]
  exact hleft

/-- The bits that are left in the buffer. -/
theorem toNat_left64 {buf bits : UInt32} (hbits : bits.toNat < 8) :
    (buf &&& ((1 <<< bits) - 1)).toNat = buf.toNat % 2 ^ bits.toNat := by
  have hpow : 2 ^ bits.toNat < 2 ^ 32 := Nat.pow_lt_pow_right (by decide) (by omega)
  have hone : ((1 : UInt32) <<< bits).toNat = 2 ^ bits.toNat := by
    rw [UInt32.toNat_shiftLeft, Nat.mod_eq_of_lt (show bits.toNat < 32 by omega), Nat.shiftLeft_eq]
    exact (Nat.mod_eq_of_lt ((Nat.one_mul _).symm ▸ hpow)).trans (Nat.one_mul _)
  have hle : (1 : UInt32) ≤ 1 <<< bits := by
    rw [UInt32.le_iff_toNat_le, hone]
    exact Nat.one_le_two_pow
  rw [UInt32.toNat_and, UInt32.toNat_sub_of_le _ _ hle, hone]
  exact Nat.and_two_pow_sub_one_eq_mod _ _

theorem left_iff64 {st : Base64State} (hroom : st.bits.toNat < 8) :
    (0 < st.bits ∧ st.buf &&& ((1 <<< st.bits) - 1) ≠ 0) ↔
      st.buf.toNat % 2 ^ st.bits.toNat ≠ 0 := by
  rw [← toNat_left64 hroom]
  constructor
  · rintro ⟨-, hleft⟩ hzero
    exact hleft (UInt32.toNat_inj.mp hzero)
  · intro hleft
    refine ⟨?_, fun hzero => hleft (congrArg UInt32.toNat hzero)⟩
    rw [UInt32.lt_iff_toNat_lt]
    refine Nat.pos_of_ne_zero ?_
    intro hzero
    rw [toNat_left64 hroom, show st.bits.toNat = 0 from hzero, pow_zero, Nat.mod_one] at hleft
    exact hleft rfl

/-- A text is taken when the loop comes through and leaves no bit. -/
theorem base64Decode_ok_iff {s : RustStr} {out : List UInt8} :
    base64Decode s = .ok out ↔ ∃ st, s.foldlM base64Step {} = .ok st ∧
      ¬ (0 < st.bits ∧ st.buf &&& ((1 <<< st.bits) - 1) ≠ 0) ∧ st.out = out := by
  rw [base64Decode, Checks.bind_eq_ok]
  simp only [Checks.throw_bind, Checks.check_eq_ok, Checks.pure_eq_ok]

theorem base64Decode_holds {s : RustStr} {out : List UInt8} (h : base64Decode s = .ok out) :
    (∀ c ∈ base64Alphabet.data s, (base64Alphabet.value c).isSome) ∧
      ∃ bits < 8, Holds 6 (base64Alphabet.digitsIn s) out bits 0 := by
  obtain ⟨st, hfold, hleft, rfl⟩ := base64Decode_ok_iff.mp h
  obtain ⟨hreads, hall⟩ := base64Loop.fold_reads hfold ⟨Holds.nil 6, Nat.zero_lt_succ 7⟩
  rw [left_iff64 hreads.room, not_not] at hleft
  have hholds := hreads.holds
  rw [hleft] at hholds
  exact ⟨hall, st.bits.toNat, hreads.room, hholds⟩

/-- The reader takes what a writer makes of digits without a bit left. -/
theorem base64Decode_text {ds : List Nat} {bytes : List UInt8} {bits : Nat}
    (hds : ∀ d ∈ ds, d < 2 ^ 6) (h : Holds 6 ds bytes bits 0) (hbits : bits < 8) (n : Nat) :
    base64Decode (ds.map base64Alphabet.digit ++ List.replicate n '=') = .ok bytes := by
  have hstart : Base64State.Reads {} [] := ⟨Holds.nil 6, Nat.zero_lt_succ 7⟩
  obtain ⟨st, hfold, hreads⟩ := base64Loop.fold_text (by decide) hds hstart rfl n
  obtain ⟨hout, -, hleft⟩ := hreads.holds.bytes_eq h hreads.room hbits
  refine base64Decode_ok_iff.mpr ⟨st, hfold, ?_, hout⟩
  rw [left_iff64 hreads.room, not_not]
  exact hleft

/-! ### The writer -/

theorem base64Char_eq (n : UInt32) : base64Char n = base64Digit (n.toNat % 64) := by
  rw [base64Char, UInt32.toNat_and]
  exact congrArg base64Digit (Nat.and_two_pow_sub_one_eq_mod _ 6)

theorem base64Char_shift (n : UInt32) {k : UInt32} (hk : k.toNat < 32) :
    base64Char (n >>> k) = base64Digit (n.toNat / 2 ^ k.toNat % 64) := by
  rw [base64Char_eq, UInt32.toNat_shiftRight, Nat.mod_eq_of_lt hk, Nat.shiftRight_eq_div_pow]

/-- The number that a chunk is. -/
theorem toNat_chunk (b0 b1 b2 : UInt8) :
    ((b0.toUInt32 <<< 16) ||| (b1.toUInt32 <<< 8) ||| b2.toUInt32).toNat =
      bytesValue [b0, b1, b2] := by
  have h0 := b0.toNat_lt
  have h1 := b1.toNat_lt
  have h2 := b2.toNat_lt
  have hvalue : bytesValue [b0, b1, b2] = 2 ^ 16 * b0.toNat + (2 ^ 8 * b1.toNat + b2.toNat) := by
    simp [bytesValue, value, Nat.ofDigits_cons]
    ring
  have hhigh : (b0.toUInt32 <<< 16).toNat = 2 ^ 16 * b0.toNat := by
    rw [UInt32.toNat_shiftLeft, UInt8.toNat_toUInt32, Nat.shiftLeft_eq, mul_comm]
    exact Nat.mod_eq_of_lt (show 2 ^ 16 * b0.toNat < 2 ^ 32 by omega)
  have hlow : (b1.toUInt32 <<< 8).toNat = 2 ^ 8 * b1.toNat := by
    rw [UInt32.toNat_shiftLeft, UInt8.toNat_toUInt32, Nat.shiftLeft_eq, mul_comm]
    exact Nat.mod_eq_of_lt (show 2 ^ 8 * b1.toNat < 2 ^ 32 by omega)
  rw [UInt32.toNat_or, UInt32.toNat_or, hhigh, hlow, UInt8.toNat_toUInt32, Nat.or_assoc,
    ← Nat.two_pow_add_eq_or_of_lt h2, ← Nat.two_pow_add_eq_or_of_lt (by omega), hvalue]

theorem base64Chunk_three (b0 b1 b2 : UInt8) : base64Chunk b0 (some b1) (some b2) =
    (digitsOf (2 ^ 6) 4 (bytesValue [b0, b1, b2])).map base64Digit := by
  rw [base64Chunk, ← toNat_chunk]
  dsimp only [Option.getD_some]
  rw [base64Char_shift _ (by decide), base64Char_shift _ (by decide),
    base64Char_shift _ (by decide), base64Char_eq]
  simp only [digitsOf, Nat.div_div_eq_div_mul]
  rfl

theorem base64Chunk_two (b0 b1 : UInt8) : base64Chunk b0 (some b1) none =
    (digitsOf (2 ^ 6) 3 (bytesValue [b0, b1, 0] / 2 ^ 6)).map base64Digit ++ ['='] := by
  rw [base64Chunk, ← toNat_chunk]
  dsimp only [Option.getD_some, Option.getD_none]
  rw [base64Char_shift _ (by decide), base64Char_shift _ (by decide),
    base64Char_shift _ (by decide)]
  simp only [digitsOf, Nat.div_div_eq_div_mul]
  rfl

theorem base64Chunk_one (b0 : UInt8) : base64Chunk b0 none none =
    (digitsOf (2 ^ 6) 2 (bytesValue [b0, 0, 0] / 2 ^ 12)).map base64Digit ++ ['=', '='] := by
  rw [base64Chunk, ← toNat_chunk]
  dsimp only [Option.getD_none]
  rw [base64Char_shift _ (by decide), base64Char_shift _ (by decide)]
  simp only [digitsOf, Nat.div_div_eq_div_mul]
  rfl

/-- Bytes that are zero only move the ones before them. -/
theorem bytesValue_two (b0 b1 : UInt8) :
    bytesValue [b0, b1, 0] / 2 ^ 6 = bytesValue [b0, b1] * 2 ^ 2 := by
  have hmore : bytesValue [b0, b1, 0] = bytesValue [b0, b1] * 256 + 0 :=
    bytesValue_concat [b0, b1] 0
  omega

theorem bytesValue_one (b0 : UInt8) : bytesValue [b0, 0, 0] / 2 ^ 12 = bytesValue [b0] * 2 ^ 4 := by
  have hmore : bytesValue [b0, 0, 0] = bytesValue [b0, 0] * 256 + 0 := bytesValue_concat [b0, 0] 0
  have hmore' : bytesValue [b0, 0] = bytesValue [b0] * 256 + 0 := bytesValue_concat [b0] 0
  omega

theorem holds_three (b0 b1 b2 : UInt8) :
    Holds 6 (digitsOf (2 ^ 6) 4 (bytesValue [b0, b1, b2])) [b0, b1, b2] 0 0 := by
  have hholds : Holds 6 (digitsOf (2 ^ 6) 4 (bytesValue [b0, b1, b2] * 2 ^ 0)) [b0, b1, b2] 0 0 :=
    holds_digitsOf rfl
  rw [pow_zero, Nat.mul_one] at hholds
  exact hholds

theorem holds_two (b0 b1 : UInt8) :
    Holds 6 (digitsOf (2 ^ 6) 3 (bytesValue [b0, b1, 0] / 2 ^ 6)) [b0, b1] 2 0 := by
  rw [bytesValue_two]
  exact holds_digitsOf rfl

theorem holds_one (b0 : UInt8) :
    Holds 6 (digitsOf (2 ^ 6) 2 (bytesValue [b0, 0, 0] / 2 ^ 12)) [b0] 4 0 := by
  rw [bytesValue_one]
  exact holds_digitsOf rfl

/-- What the writer makes: digits of the bytes, padded to a multiple of four. -/
theorem base64Encode_digits : ∀ bytes : List UInt8, ∃ ds bits, Holds 6 ds bytes bits 0 ∧ bits < 6 ∧
    (∀ d ∈ ds, d < 2 ^ 6) ∧ base64Encode bytes = Alphabet.padTo 4 (ds.map base64Digit)
  | [] => ⟨[], 0, Holds.nil 6, by decide, nofun, rfl⟩
  | [b0] => ⟨_, 4, holds_one b0, by decide, fun _ => lt_of_mem_digitsOf (by decide),
      base64Chunk_one b0⟩
  | [b0, b1] => ⟨_, 2, holds_two b0 b1, by decide, fun _ => lt_of_mem_digitsOf (by decide),
      base64Chunk_two b0 b1⟩
  | b0 :: b1 :: b2 :: bytes => by
      obtain ⟨ds, bits, hholds, hbits, hlt, htext⟩ := base64Encode_digits bytes
      refine ⟨_, bits, (holds_three b0 b1 b2).append hholds, hbits, ?_, ?_⟩
      · intro d hd
        rcases List.mem_append.mp hd with hd | hd
        · exact lt_of_mem_digitsOf (by decide) hd
        · exact hlt d hd
      · rw [base64Encode, base64Chunk_three, htext, Alphabet.padTo, Alphabet.padTo, List.map_append,
          List.length_append, List.length_map, List.length_map, length_digitsOf, Nat.add_mod_left,
          List.append_assoc]

/-- **The chunks of the writer are the RFC's text of the bytes.** -/
theorem base64Encode_eq (bytes : List UInt8) :
    base64Encode bytes = base64Alphabet.text 4 bytes := by
  obtain ⟨ds, bits, hholds, hbits, hlt, htext⟩ := base64Encode_digits bytes
  obtain ⟨bits', hbits', hencode⟩ := encode_holds (show 0 < 6 by decide) bytes
  have hsize := hholds.size
  have hsize' := hencode.size
  obtain rfl : bits = bits' := by omega
  rw [htext, Alphabet.text,
    hholds.digits_eq (by decide) hencode hlt (fun _ => lt_of_mem_encode)]
  rfl

/-! ### Canonical texts -/

/-- The number of characters is one that a writer makes for some bytes. -/
def Writable32 (s : RustStr) : Prop :=
  let n := (base32Alphabet.data s).length % 8
  n ≠ 1 ∧ n ≠ 3 ∧ n ≠ 6

def Writable64 (s : RustStr) : Prop := (base64Alphabet.data s).length % 4 ≠ 1

instance (s : RustStr) : Decidable (Writable32 s) := inferInstanceAs (Decidable (_ ∧ _ ∧ _))

instance (s : RustStr) : Decidable (Writable64 s) := inferInstanceAs (Decidable (_ ≠ _))

theorem base32Decode_canonical {s : RustStr} {bytes : List UInt8}
    (h : base32Decode s = .ok bytes) (hlength : Writable32 s) :
    base32Encode bytes = base32Normal s := by
  obtain ⟨hall, bits, hbits, hholds⟩ := base32Decode_holds h
  have hsize := hholds.size
  rw [(Alphabet.map_digits hall).2] at hsize
  refine (Alphabet.normal_eq_text (by decide) hall hholds ?_).symm
  obtain ⟨h1, h3, h6⟩ := hlength
  have hcases : (base32Alphabet.data s).length % 8 = 0 ∨ (base32Alphabet.data s).length % 8 = 2 ∨
      (base32Alphabet.data s).length % 8 = 4 ∨ (base32Alphabet.data s).length % 8 = 5 ∨
      (base32Alphabet.data s).length % 8 = 7 := by omega
  rcases hcases with hn | hn | hn | hn | hn
  all_goals omega

theorem base64Decode_canonical {s : RustStr} {bytes : List UInt8}
    (h : base64Decode s = .ok bytes) (hlength : Writable64 s) :
    base64Encode bytes = base64Normal s := by
  obtain ⟨hall, bits, hbits, hholds⟩ := base64Decode_holds h
  have hsize := hholds.size
  rw [(Alphabet.map_digits hall).2] at hsize
  rw [Writable64] at hlength
  rw [base64Encode_eq]
  refine (Alphabet.normal_eq_text (by decide) hall hholds ?_).symm
  omega

theorem base32Decode_encode (bytes : List UInt8) :
    base32Decode (base32Encode bytes) = .ok bytes := by
  obtain ⟨bits, hbits, hholds⟩ := encode_holds (show 0 < 5 by decide) bytes
  exact base32Decode_text (fun _ => lt_of_mem_encode) hholds (by omega) _

theorem base64Decode_encode (bytes : List UInt8) :
    base64Decode (base64Encode bytes) = .ok bytes := by
  obtain ⟨bits, hbits, hholds⟩ := encode_holds (show 0 < 6 by decide) bytes
  rw [base64Encode_eq]
  exact base64Decode_text (fun _ => lt_of_mem_encode) hholds (by omega) _

/-- **Of the lengths that a writer makes, the readers take the writer's own texts alone**, up to
separators, the case of letters, the two alphabets and padding; and what a writer made of any bytes
is read as these bytes. -/
theorem decode_canonical :
    (∀ s bytes, base32Decode s = .ok bytes → Writable32 s →
      base32Encode bytes = base32Normal s) ∧
    (∀ bytes, base32Decode (base32Encode bytes) = .ok bytes) ∧
    (∀ s bytes, base64Decode s = .ok bytes → Writable64 s →
      base64Encode bytes = base64Normal s) ∧
    ∀ bytes, base64Decode (base64Encode bytes) = .ok bytes :=
  ⟨fun _ _ => base32Decode_canonical, base32Decode_encode, fun _ _ => base64Decode_canonical,
    base64Decode_encode⟩

theorem decode_canonical_samples :
    base32Encode [0x66] = base32Normal "m y".toList ∧
      base32Decode (base32Encode [0x66]) = .ok [0x66] ∧
      base64Encode [0xfb] = base64Normal "-w".toList ∧
      base64Decode (base64Encode [0xfb]) = .ok [0xfb] :=
  ⟨decode_canonical.1 "m y".toList [0x66] rfl (by decide),
    decode_canonical.2.1 [0x66],
    decode_canonical.2.2.1 "-w".toList [0xfb] rfl (by decide),
    decode_canonical.2.2.2 [0xfb]⟩

/-- A base64 text in the URL-safe alphabet is taken; and so is a character that adds no byte. -/
theorem decode_takes_others :
    (base64Decode "-w==".toList = .ok [0xfb] ∧ base64Encode [0xfb] = "+w==".toList ∧
      "-w==".toList ≠ "+w==".toList) ∧
    (base32Decode "MYA".toList = .ok [0x66] ∧ base32Normal "MYA".toList ≠ base32Encode [0x66]) ∧
    base64Decode "A".toList = .ok [] ∧ base64Normal "A".toList ≠ base64Encode [] := by
  decide

end Keyroost.Proto.Codec
