import Mathlib.Data.List.Basic
import Mathlib.Data.List.DropRight

/-!
# Padding to whole blocks

Two paddings: a mark and zeros, and bytes that say how many of them there are. Either way data come
back from what was padded (`unpad_pad`, once for each), the padded length is a whole number of
blocks, and nothing is padded to nothing.

Some formats leave the padding out where the data fill their blocks already. `Pads.eq_iff` says what
that costs: padded data are told apart but for data that end in what looks like their own padding.
-/

/-! ### Padding with one mark and zeros

Data, then a mark, then zeros. The data are what stands before the last byte that is not zero,
so however many zeros there are, they come back. -/

namespace Padding

variable {α : Type} {mark zero : α}

def pad (mark zero : α) (zeros : Nat) (data : List α) : List α :=
  data ++ mark :: List.replicate zeros zero

theorem length_pad (zeros : Nat) (data : List α) :
    (pad mark zero zeros data).length = data.length + 1 + zeros := by
  rw [pad, List.length_append, List.length_cons, List.length_replicate]
  omega

variable [DecidableEq α]

/-- The data in front of the last mark. -/
def unpad (zero : α) (padded : List α) : List α :=
  ((padded.reverse.dropWhile fun a => decide (a = zero)).drop 1).reverse

theorem dropWhile_zeros (hmark : mark ≠ zero) (zeros : Nat) (rest : List α) :
    (List.replicate zeros zero ++ mark :: rest).dropWhile (fun a => decide (a = zero)) =
      mark :: rest := by
  induction zeros with
  | zero => exact List.dropWhile_cons_of_neg (by rwa [decide_eq_true_iff])
  | succ zeros ih =>
      rw [List.replicate_succ, List.cons_append, List.dropWhile_cons, if_pos (decide_eq_true rfl),
        ih]

/-- **What was padded comes back.** -/
theorem unpad_pad (hmark : mark ≠ zero) (zeros : Nat) (data : List α) :
    unpad zero (pad mark zero zeros data) = data := by
  have hreverse : (pad mark zero zeros data).reverse =
      List.replicate zeros zero ++ mark :: data.reverse := by
    rw [pad, List.reverse_append, List.reverse_cons, List.reverse_replicate, List.append_assoc]
    rfl
  rw [unpad, hreverse, dropWhile_zeros hmark, List.drop_succ_cons, List.drop_zero,
    List.reverse_reverse]

theorem pad_injective (hmark : mark ≠ zero) {n m : Nat} {a b : List α}
    (h : pad mark zero n a = pad mark zero m b) : a = b := by
  rw [← unpad_pad hmark n a, h, unpad_pad hmark]

/-! ### Zeros alone -/

/-- Data without the zeros they end in. -/
def strip (zero : α) (data : List α) : List α := data.rdropWhile fun a => decide (a = zero)

theorem strip_append_zeros (data : List α) (zeros : Nat) :
    strip zero (data ++ List.replicate zeros zero) = strip zero data := by
  induction zeros with
  | zero => rw [List.replicate_zero, List.append_nil]
  | succ zeros ih =>
      have hzero : decide (zero = zero) = true := decide_eq_true rfl
      rw [List.replicate_succ', ← List.append_assoc, strip,
        List.rdropWhile_concat_pos (fun a => decide (a = zero)) _ zero hzero]
      exact ih

/-- Zeros alone are taken for padding only at the end. -/
theorem strip_eq_self_iff (data : List α) :
    strip zero data = data ↔ data.getLast? ≠ some zero := by
  rw [strip, List.rdropWhile_eq_self_iff]
  constructor
  · intro h hlast
    have hne : data ≠ [] := by
      rintro rfl
      cases hlast
    rw [List.getLast?_eq_some_getLast hne, Option.some.injEq] at hlast
    exact h hne (decide_eq_true hlast)
  · intro h hne hzero
    rw [List.getLast?_eq_some_getLast hne] at h
    exact h (congrArg some (of_decide_eq_true hzero))

/-! ### Padding where it is needed -/

/-- Data are left as they are or padded. -/
def Pads (mark zero : α) (p : List α → List α) : Prop :=
  ∀ data, p data = data ∨ ∃ zeros, p data = pad mark zero zeros data

/-- Data left as they are that other data are padded to. -/
def Confused (p : List α → List α) (a b : List α) : Prop := p a = a ∧ p b = a

/-- **Where padding is left out**, padded data are told apart but for data that end in their
own padding. -/
theorem Pads.eq_iff {p : List α → List α} (hp : Pads mark zero p) (hmark : mark ≠ zero)
    (a b : List α) : p a = p b ↔ a = b ∨ Confused p a b ∨ Confused p b a := by
  constructor
  · intro h
    rcases hp a with ha | ⟨n, ha⟩
    · exact .inr (.inl ⟨ha, h.symm.trans ha⟩)
    · rcases hp b with hb | ⟨m, hb⟩
      · exact .inr (.inr ⟨hb, h.trans hb⟩)
      · have hsame : pad mark zero n a = pad mark zero m b := by rw [← ha, h, hb]
        exact .inl (pad_injective hmark hsame)
  · rintro (rfl | ⟨ha, hb⟩ | ⟨hb, ha⟩)
    · rfl
    · rw [ha, hb]
    · rw [ha, hb]

end Padding

/-! ### Padding that counts itself

Data are filled up to whole blocks with bytes that each say how many of them there are. There is
always at least one. -/

namespace Pkcs7

/-- How many bytes are missing to whole blocks. -/
def missing (size len : Nat) : Nat := size - len % size

def pad (size : Nat) (data : List UInt8) : List UInt8 :=
  data ++ List.replicate (missing size data.length) (UInt8.ofNat (missing size data.length))

/-- The data, where the last block ends as it should. -/
def unpad (size : Nat) (padded : List UInt8) : Option (List UInt8) :=
  let n := (padded.getLast?.getD 0).toNat
  if n = 0 ∨ size < n ∨ padded.length < n then none
  else if (padded.drop (padded.length - n)).all (·.toNat == n) then
    some (padded.take (padded.length - n))
  else none

variable {size : Nat}

theorem missing_pos (hsize : 0 < size) (len : Nat) : 0 < missing size len :=
  Nat.sub_pos_of_lt (Nat.mod_lt len hsize)

theorem missing_le (len : Nat) : missing size len ≤ size := Nat.sub_le _ _

theorem length_pad (data : List UInt8) :
    (pad size data).length = data.length + missing size data.length := by
  rw [pad, List.length_append, List.length_replicate]

/-- Padded data are whole blocks. -/
theorem dvd_length_pad (hsize : 0 < size) (data : List UInt8) : size ∣ (pad size data).length := by
  have hdiv := Nat.div_add_mod data.length size
  have hlt := Nat.mod_lt data.length hsize
  refine ⟨data.length / size + 1, ?_⟩
  rw [length_pad, missing, Nat.mul_add, Nat.mul_one]
  omega

theorem pad_ne_nil (hsize : 0 < size) (data : List UInt8) : pad size data ≠ [] := by
  intro h
  have hlen : (pad size data).length = data.length + missing size data.length := length_pad data
  have hpos := missing_pos hsize data.length
  rw [h, List.length_nil] at hlen
  omega

/-- **What was padded comes back.** -/
theorem unpad_pad (hsize : 0 < size) (hbyte : size < 256) (data : List UInt8) :
    unpad size (pad size data) = some data := by
  have hpos := missing_pos hsize data.length
  have hle : missing size data.length ≤ size := missing_le data.length
  have hcount : (UInt8.ofNat (missing size data.length)).toNat = missing size data.length := by
    rw [UInt8.toNat_ofNat', Nat.mod_eq_of_lt (by omega)]
  have hlast : ((pad size data).getLast?.getD 0).toNat = missing size data.length := by
    obtain ⟨k, hk⟩ := Nat.exists_eq_succ_of_ne_zero (Nat.ne_of_gt hpos)
    rw [pad, hk, List.replicate_succ', ← List.append_assoc, List.getLast?_concat,
      Option.getD_some, ← hk, hcount]
  have hlen : (pad size data).length = data.length + missing size data.length := length_pad data
  have hcut : (pad size data).length - missing size data.length = data.length := by omega
  have hdrop : (pad size data).drop data.length =
      List.replicate (missing size data.length) (UInt8.ofNat (missing size data.length)) :=
    List.drop_left
  have htake : (pad size data).take data.length = data := List.take_left
  have hall : ((List.replicate (missing size data.length)
      (UInt8.ofNat (missing size data.length))).all fun b =>
        b.toNat == missing size data.length) = true := by
    rw [List.all_eq_true]
    intro b hb
    rw [List.eq_of_mem_replicate hb, hcount, beq_self_eq_true]
  rw [unpad, hlast, if_neg (by omega), hcut, hdrop, if_pos hall, htake]

end Pkcs7
