import Mathlib.Data.Nat.Digits.Defs
import Mathlib.Data.Nat.Digits.Lemmas
import Mathlib.Tactic.Ring

/-!
# Digits regrouped as bytes

A text writes bytes with digits of `w` bits, as base64 does with six and base32 with five. A reader
keeps the bits that make no complete byte yet; a writer fills the last digit up with zero bits. What
the digits say about the bytes is proved here once, for every width up to eight bits.

Implementations keep the bits in a machine word and shift; `Buffers of machine words` says when such
a word stands for the bits. `normal_eq_text` is the canonical form: a text with fewer zero bits at
its end than a digit has is the one that a writer makes of its bytes.
-/

namespace Regroup

/-- The number that digits write, most significant first. -/
def value (base : Nat) (digits : List Nat) : Nat := Nat.ofDigits base digits.reverse

@[simp] theorem value_nil (base : Nat) : value base [] = 0 := rfl

theorem value_concat (base : Nat) (digits : List Nat) (d : Nat) :
    value base (digits ++ [d]) = value base digits * base + d := by
  rw [value, List.reverse_append, List.reverse_singleton, List.singleton_append, Nat.ofDigits_cons,
    value]
  ring

theorem value_append (base : Nat) (digits digits' : List Nat) :
    value base (digits ++ digits') =
      value base digits * base ^ digits'.length + value base digits' := by
  rw [value, List.reverse_append, Nat.ofDigits_append, List.length_reverse, value, value]
  ring

theorem value_inj {base : Nat} (hbase : 1 < base) {digits digits' : List Nat}
    (hlength : digits.length = digits'.length) (hlt : ∀ d ∈ digits, d < base)
    (hlt' : ∀ d ∈ digits', d < base) (h : value base digits = value base digits') :
    digits = digits' := by
  refine List.reverse_injective (Nat.ofDigits_inj_of_len_eq hbase ?_ ?_ ?_ h)
  · rw [List.length_reverse, List.length_reverse, hlength]
  · exact fun d hd => hlt d (List.mem_reverse.mp hd)
  · exact fun d hd => hlt' d (List.mem_reverse.mp hd)

def bytesValue (bytes : List UInt8) : Nat := value 256 (bytes.map UInt8.toNat)

theorem bytesValue_concat (bytes : List UInt8) (b : UInt8) :
    bytesValue (bytes ++ [b]) = bytesValue bytes * 256 + b.toNat := by
  rw [bytesValue, bytesValue, List.map_append, List.map_singleton, value_concat]

theorem bytesValue_inj {bytes bytes' : List UInt8} (hlength : bytes.length = bytes'.length)
    (h : bytesValue bytes = bytesValue bytes') : bytes = bytes' := by
  have hlt : ∀ bytes : List UInt8, ∀ d ∈ bytes.map UInt8.toNat, d < 256 := by
    intro bytes d hd
    obtain ⟨b, -, rfl⟩ := List.mem_map.mp hd
    exact b.toNat_lt
  refine List.map_injective_iff.mpr (fun a b => UInt8.toNat_inj.mp)
    (value_inj (by decide) ?_ (hlt bytes) (hlt bytes') h)
  rw [List.length_map, List.length_map, hlength]

/-! ### Reading -/

/-- The digits write the bytes and then `bits` bits, the number `left`. It is the invariant of a
reader that takes digits of one size and gives digits of another. -/
structure Holds (w : Nat) (digits : List Nat) (bytes : List UInt8) (bits left : Nat) : Prop where
  size : w * digits.length = 8 * bytes.length + bits
  number : value (2 ^ w) digits = bytesValue bytes * 2 ^ bits + left
  lt : left < 2 ^ bits

theorem Holds.nil (w : Nat) : Holds w [] [] 0 0 := ⟨rfl, rfl, Nat.one_pos⟩

variable {w : Nat} {digits digits' : List Nat} {bytes bytes' : List UInt8}
  {bits bits' left left' d : Nat}

/-- A digit whose bits are kept. -/
theorem Holds.keep (h : Holds w digits bytes bits left) (hd : d < 2 ^ w) :
    Holds w (digits ++ [d]) bytes (bits + w) (left * 2 ^ w + d) := by
  obtain ⟨hsize, hvalue, hlt⟩ := h
  refine ⟨?_, ?_, ?_⟩
  · rw [List.length_append, List.length_singleton, Nat.mul_add, hsize, Nat.mul_one, Nat.add_assoc]
  · rw [value_concat, hvalue, pow_add]
    ring
  · calc left * 2 ^ w + d < left * 2 ^ w + 2 ^ w := Nat.add_lt_add_left hd _
      _ = (left + 1) * 2 ^ w := by ring
      _ ≤ 2 ^ bits * 2 ^ w := Nat.mul_le_mul_right _ hlt
      _ = 2 ^ (bits + w) := (pow_add 2 bits w).symm

/-- Eight of the bits that are left are a byte. -/
theorem Holds.emit (h : Holds w digits bytes (bits + 8) left) {b : UInt8}
    (hb : b.toNat = left / 2 ^ bits) : Holds w digits (bytes ++ [b]) bits (left % 2 ^ bits) := by
  obtain ⟨hsize, hvalue, hlt⟩ := h
  refine ⟨?_, ?_, Nat.mod_lt _ (Nat.two_pow_pos bits)⟩
  · rw [hsize, List.length_append, List.length_singleton]
    ring
  · rw [hvalue, bytesValue, bytesValue, List.map_append, List.map_singleton, value_concat, hb]
    have hsplit := Nat.div_add_mod left (2 ^ bits)
    calc value 256 (bytes.map UInt8.toNat) * 2 ^ (bits + 8) + left
        = value 256 (bytes.map UInt8.toNat) * 2 ^ (bits + 8) +
            (2 ^ bits * (left / 2 ^ bits) + left % 2 ^ bits) := by rw [hsplit]
      _ = _ := by ring

/-- What is written whole may be followed by more. -/
theorem Holds.append (h : Holds w digits bytes 0 0) (h' : Holds w digits' bytes' bits left) :
    Holds w (digits ++ digits') (bytes ++ bytes') bits left := by
  have hbase : (2 ^ w) ^ digits'.length = 256 ^ bytes'.length * 2 ^ bits := by
    rw [← pow_mul, h'.size, pow_add, pow_mul]
    rfl
  refine ⟨?_, ?_, h'.lt⟩
  · rw [List.length_append, Nat.mul_add, h.size, h'.size, List.length_append]
    ring
  · have hvalue : value (2 ^ w) digits = bytesValue bytes := by rw [h.number]; ring
    rw [value_append, hvalue, h'.number, hbase, bytesValue, bytesValue, bytesValue,
      List.map_append, value_append, List.length_map]
    ring

/-- Digits write one sequence of bytes. -/
theorem Holds.bytes_eq (h : Holds w digits bytes bits left) (h' : Holds w digits bytes' bits' left')
    (hbits : bits < 8) (hbits' : bits' < 8) : bytes = bytes' ∧ bits = bits' ∧ left = left' := by
  have hsize := h.size.symm.trans h'.size
  have hlength : bytes.length = bytes'.length := by omega
  obtain rfl : bits = bits' := by omega
  have hvalue := h.number.symm.trans h'.number
  have hleft : left = left' := by
    have hmod := congrArg (· % 2 ^ bits) hvalue
    rw [Nat.mul_add_mod_self_right, Nat.mul_add_mod_self_right, Nat.mod_eq_of_lt h.lt,
      Nat.mod_eq_of_lt h'.lt] at hmod
    exact hmod
  subst hleft
  have hbytes : bytesValue bytes = bytesValue bytes' :=
    Nat.eq_of_mul_eq_mul_right (Nat.two_pow_pos bits) (Nat.add_right_cancel hvalue)
  exact ⟨bytesValue_inj hlength hbytes, rfl, rfl⟩

/-- As many digits as write the bytes and the same number of zero bits are the same digits. -/
theorem Holds.digits_eq (hw : 0 < w) (h : Holds w digits bytes bits 0)
    (h' : Holds w digits' bytes bits 0) (hlt : ∀ d ∈ digits, d < 2 ^ w)
    (hlt' : ∀ d ∈ digits', d < 2 ^ w) : digits = digits' := by
  refine value_inj (Nat.one_lt_two_pow hw.ne') ?_ hlt hlt' (h.number.trans h'.number.symm)
  exact Nat.eq_of_mul_eq_mul_left hw (h.size.trans h'.size.symm)

/-! ### Writing -/

/-- The last `k` digits of `n`. -/
def digitsOf (base : Nat) : Nat → Nat → List Nat
  | 0, _ => []
  | k + 1, n => digitsOf base k (n / base) ++ [n % base]

@[simp] theorem length_digitsOf (base k n : Nat) : (digitsOf base k n).length = k := by
  induction k generalizing n with
  | zero => rfl
  | succ k ih => rw [digitsOf, List.length_append, ih, List.length_singleton]

theorem lt_of_mem_digitsOf {base : Nat} (hbase : 0 < base) {k n d : Nat}
    (hd : d ∈ digitsOf base k n) : d < base := by
  induction k generalizing n with
  | zero => cases hd
  | succ k ih =>
      rw [digitsOf, List.mem_append, List.mem_singleton] at hd
      rcases hd with hd | rfl
      · exact ih hd
      · exact Nat.mod_lt _ hbase

theorem value_digitsOf {base k n : Nat} (hn : n < base ^ k) :
    value base (digitsOf base k n) = n := by
  induction k generalizing n with
  | zero => exact (Nat.lt_one_iff.mp hn).symm
  | succ k ih =>
      rw [pow_succ, mul_comm] at hn
      rw [digitsOf, value_concat, ih (Nat.div_lt_of_lt_mul hn)]
      exact Nat.div_add_mod' n base

/-- How many digits write `n` bytes. -/
def digitCount (w n : Nat) : Nat := (8 * n + (w - 1)) / w

/-- The bits of the bytes, filled up with zeros to whole digits. -/
def encode (w : Nat) (bytes : List UInt8) : List Nat :=
  let k := digitCount w bytes.length
  digitsOf (2 ^ w) k (bytesValue bytes * 2 ^ (w * k - 8 * bytes.length))

theorem bytesValue_lt (bytes : List UInt8) : bytesValue bytes < 2 ^ (8 * bytes.length) := by
  have hlt : ∀ d ∈ (bytes.map UInt8.toNat).reverse, d < 256 := by
    intro d hd
    obtain ⟨b, -, rfl⟩ := List.mem_map.mp (List.mem_reverse.mp hd)
    exact b.toNat_lt
  have h := Nat.ofDigits_lt_base_pow_length (by decide) hlt
  rw [List.length_reverse, List.length_map, show (256 : Nat) = 2 ^ 8 from rfl, ← pow_mul] at h
  exact h

/-- Digits that write the bytes and then zero bits. -/
theorem holds_digitsOf {k : Nat} (hsize : w * k = 8 * bytes.length + bits) :
    Holds w (digitsOf (2 ^ w) k (bytesValue bytes * 2 ^ bits)) bytes bits 0 := by
  refine ⟨?_, ?_, Nat.two_pow_pos bits⟩
  · rw [length_digitsOf, hsize]
  · rw [value_digitsOf, Nat.add_zero]
    calc bytesValue bytes * 2 ^ bits < 2 ^ (8 * bytes.length) * 2 ^ bits :=
          Nat.mul_lt_mul_of_pos_right (bytesValue_lt bytes) (Nat.two_pow_pos bits)
      _ = (2 ^ w) ^ k := by rw [← pow_add, ← hsize, pow_mul]

theorem encode_holds (hw : 0 < w) (bytes : List UInt8) :
    ∃ bits < w, Holds w (encode w bytes) bytes bits 0 := by
  have hdiv := Nat.div_add_mod (8 * bytes.length + (w - 1)) w
  have hmod := Nat.mod_lt (8 * bytes.length + (w - 1)) hw
  have hcount : w * digitCount w bytes.length =
      8 * bytes.length + (w * digitCount w bytes.length - 8 * bytes.length) := by
    rw [digitCount]
    omega
  refine ⟨w * digitCount w bytes.length - 8 * bytes.length, ?_, holds_digitsOf hcount⟩
  rw [digitCount]
  omega

theorem lt_of_mem_encode {d : Nat} (hd : d ∈ encode w bytes) : d < 2 ^ w :=
  lt_of_mem_digitsOf (Nat.two_pow_pos w) hd

/-! ### Buffers of machine words -/

/-- A digit pushed into a buffer of `N` bits, of which `bits` count. -/
theorem push_mod {N buf v : Nat} (hv : v < 2 ^ w) (hroom : bits + w ≤ N) :
    ((buf <<< w) % 2 ^ N ||| v) % 2 ^ (bits + w) = buf % 2 ^ bits * 2 ^ w + v := by
  have hcut : (buf <<< w) % 2 ^ N = 2 ^ w * (buf % 2 ^ (N - w)) := by
    obtain ⟨k, hk⟩ := Nat.exists_eq_add_of_le (Nat.le_trans (Nat.le_add_left w bits) hroom)
    rw [Nat.shiftLeft_eq, hk, Nat.add_sub_cancel_left, pow_add, mul_comm buf, Nat.mul_mod_mul_left]
  have hdvd : 2 ^ bits ∣ 2 ^ (N - w) := pow_dvd_pow 2 (by omega)
  rw [hcut, ← Nat.two_pow_add_eq_or_of_lt hv, pow_add, mul_comm (2 ^ bits), Nat.mod_mul,
    Nat.mul_add_mod, Nat.mod_eq_of_lt hv, Nat.mul_add_div (Nat.two_pow_pos w), Nat.div_eq_of_lt hv,
    Nat.add_zero, Nat.mod_mod_of_dvd _ hdvd]
  ring

/-- The byte above the last `bits` bits. -/
theorem byte_eq {buf : Nat} : (buf >>> bits) % 256 = buf % 2 ^ (bits + 8) / 2 ^ bits := by
  rw [Nat.shiftRight_eq_div_pow, pow_add, Nat.mod_mul_right_div_self]
  rfl

/-! ### Text -/

/-- The characters of a text with digits of `w` bits: those that are skipped, the digit that a
character is, and the form of a character that a writer uses. -/
structure Alphabet (w : Nat) where
  skip : Char → Bool
  value : Char → Option Nat
  digit : Nat → Char
  norm : Char → Char
  value_lt : ∀ c d, value c = some d → d < 2 ^ w
  digit_value : ∀ c d, value c = some d → digit d = norm c
  value_digit : ∀ d < 2 ^ w, value (digit d) = some d
  digit_plain : ∀ d < 2 ^ w, skip (digit d) = false ∧ digit d ≠ '='

namespace Alphabet

variable (a : Alphabet w)

/-- The characters that are neither skipped nor padding. -/
def data (s : List Char) : List Char := s.filter fun c => !a.skip c && decide (c ≠ '=')

def digitsIn (s : List Char) : List Nat := (a.data s).filterMap a.value

/-- Padded to a multiple of `group`. -/
def padTo (group : Nat) (s : List Char) : List Char :=
  s ++ List.replicate ((group - s.length % group) % group) '='

/-- A text without what is skipped, in the writer's characters and padding. -/
def normal (group : Nat) (s : List Char) : List Char := padTo group ((a.data s).map a.norm)

/-- The text that a writer makes of bytes. -/
def text (group : Nat) (bytes : List UInt8) : List Char :=
  padTo group ((Regroup.encode w bytes).map a.digit)

variable {a}

/-- The digits of a text whose characters all have one. -/
theorem map_digits {s : List Char} (h : ∀ c ∈ a.data s, (a.value c).isSome) :
    (a.digitsIn s).map a.digit = (a.data s).map a.norm ∧
      (a.digitsIn s).length = (a.data s).length := by
  rw [digitsIn]
  revert h
  induction a.data s with
  | nil => exact fun _ => ⟨rfl, rfl⟩
  | cons c cs ih =>
      intro h
      obtain ⟨d, hd⟩ := Option.isSome_iff_exists.mp (h c List.mem_cons_self)
      obtain ⟨hmap, hlength⟩ := ih fun c' hc' => h c' (List.mem_cons_of_mem c hc')
      rw [List.filterMap_cons_some hd]
      refine ⟨?_, ?_⟩
      · rw [List.map_cons, hmap, List.map_cons, a.digit_value c d hd]
      · rw [List.length_cons, hlength, List.length_cons]

theorem lt_of_mem_digits {s : List Char} {d : Nat} (hd : d ∈ a.digitsIn s) : d < 2 ^ w := by
  obtain ⟨c, -, hc⟩ := List.mem_filterMap.mp hd
  exact a.value_lt c d hc

/-- **A text with fewer zero bits at its end than a digit has is the one that a writer makes
of its bytes.** -/
theorem normal_eq_text (hw : 0 < w) {group : Nat} {s : List Char} {bytes : List UInt8} {bits : Nat}
    (h : ∀ c ∈ a.data s, (a.value c).isSome) (hs : Holds w (a.digitsIn s) bytes bits 0)
    (hbits : bits < w) : a.normal group s = a.text group bytes := by
  obtain ⟨bits', hbits', hencode⟩ := encode_holds hw bytes
  have hsize := hs.size
  have hsize' := hencode.size
  have hcount : (a.digitsIn s).length = (Regroup.encode w bytes).length := by
    rcases Nat.lt_trichotomy (a.digitsIn s).length (Regroup.encode w bytes).length with
      hlt | heq | hlt
    · have := Nat.mul_le_mul_left w hlt
      rw [Nat.mul_succ] at this
      omega
    · exact heq
    · have := Nat.mul_le_mul_left w hlt
      rw [Nat.mul_succ] at this
      omega
  rw [hcount] at hsize
  obtain rfl : bits = bits' := by omega
  have hdigits := hs.digits_eq hw hencode (fun d => lt_of_mem_digits) (fun d => lt_of_mem_encode)
  rw [normal, text, ← hdigits, (map_digits h).1]

/-! ### Loops over a text -/

/-- The loop of a reader: characters are skipped, end the digits, or are digits. Each reader of the
source shows these rules of its own loop, and what such a loop accepts is proved of them once. -/
structure Loop (a : Alphabet w) (State Error : Type) where
  step : State → Char → Except Error State
  padded : State → Bool
  reads : State → List Nat → Prop
  skip : ∀ st c, a.skip c = true → step st c = .ok st
  pad : ∀ st, a.skip '=' = false → ∃ st', step st '=' = .ok st' ∧ ∀ ds, reads st ds → reads st' ds
  digit : ∀ st ds c d, reads st ds → padded st = false → a.skip c = false → c ≠ '=' →
    a.value c = some d → ∃ st', step st c = .ok st' ∧ padded st' = false ∧ reads st' (ds ++ [d])
  refuse : ∀ st c, a.skip c = false → c ≠ '=' → (padded st = true ∨ a.value c = none) →
    ∃ e, step st c = .error e

theorem data_cons (c : Char) (s : List Char) :
    a.data (c :: s) = (if !a.skip c && decide (c ≠ '=') then [c] else []) ++ a.data s := by
  rw [data, List.filter_cons]
  split <;> rfl

variable {State Error : Type} (loop : a.Loop State Error)

/-- What a loop that comes through has read. -/
theorem Loop.fold_reads {st st' : State} {ds : List Nat} {s : List Char}
    (hfold : s.foldlM loop.step st = .ok st') (hst : loop.reads st ds) :
    loop.reads st' (ds ++ a.digitsIn s) ∧ ∀ c ∈ a.data s, (a.value c).isSome := by
  induction s generalizing st ds with
  | nil =>
      cases hfold
      rw [digitsIn, data, List.filter_nil, List.filterMap_nil, List.append_nil]
      exact ⟨hst, nofun⟩
  | cons c s ih =>
      rw [List.foldlM_cons] at hfold
      cases hskip : a.skip c with
      | true =>
          rw [loop.skip st c hskip] at hfold
          rw [digitsIn, data_cons, hskip]
          exact ih hfold hst
      | false =>
          by_cases hc : c = '='
          · subst hc
            obtain ⟨st₁, hstep, hreads⟩ := loop.pad st hskip
            rw [hstep] at hfold
            rw [digitsIn, data_cons, decide_eq_false (not_not_intro rfl), Bool.and_false]
            exact ih hfold (hreads ds hst)
          · cases hpadded : loop.padded st with
            | true =>
                obtain ⟨e, he⟩ := loop.refuse st c hskip hc (.inl hpadded)
                rw [he] at hfold
                cases hfold
            | false =>
                cases hvalue : a.value c with
                | none =>
                    obtain ⟨e, he⟩ := loop.refuse st c hskip hc (.inr hvalue)
                    rw [he] at hfold
                    cases hfold
                | some d =>
                    obtain ⟨st₁, hstep, -, hreads⟩ :=
                      loop.digit st ds c d hst hpadded hskip hc hvalue
                    rw [hstep] at hfold
                    obtain ⟨hrest, hall⟩ := ih hfold hreads
                    have hdata : a.data (c :: s) = c :: a.data s := by
                      rw [data_cons, hskip, decide_eq_true hc]
                      rfl
                    rw [digitsIn, hdata, List.filterMap_cons_some hvalue]
                    rw [List.append_assoc] at hrest
                    refine ⟨hrest, ?_⟩
                    intro c' hc'
                    rcases List.mem_cons.mp hc' with rfl | hc'
                    · rw [hvalue]
                      rfl
                    · exact hall c' hc'

theorem Loop.fold_padding {st : State} {ds : List Nat} (hpad : a.skip '=' = false)
    (hst : loop.reads st ds) (n : Nat) :
    ∃ st', (List.replicate n '=').foldlM loop.step st = .ok st' ∧ loop.reads st' ds := by
  induction n generalizing st with
  | zero => exact ⟨st, rfl, hst⟩
  | succ n ih =>
      obtain ⟨st₁, hstep, hreads⟩ := loop.pad st hpad
      obtain ⟨st', hfold, hst'⟩ := ih (hreads ds hst)
      refine ⟨st', ?_, hst'⟩
      rw [List.replicate_succ, List.foldlM_cons, hstep]
      exact hfold

/-- A loop comes through what a writer makes of digits. -/
theorem Loop.fold_text (hpad : a.skip '=' = false) {st : State} {ds es : List Nat}
    (hes : ∀ d ∈ es, d < 2 ^ w) (hst : loop.reads st ds) (hpadded : loop.padded st = false)
    (n : Nat) : ∃ st', (es.map a.digit ++ List.replicate n '=').foldlM loop.step st = .ok st' ∧
      loop.reads st' (ds ++ es) := by
  induction es generalizing st ds with
  | nil =>
      rw [List.append_nil]
      exact loop.fold_padding hpad hst n
  | cons d es ih =>
      have hd := hes d List.mem_cons_self
      obtain ⟨hskip, hne⟩ := a.digit_plain d hd
      obtain ⟨st₁, hstep, hpadded₁, hreads⟩ :=
        loop.digit st ds (a.digit d) d hst hpadded hskip hne (a.value_digit d hd)
      obtain ⟨st', hfold, hst'⟩ :=
        ih (fun d' hd' => hes d' (List.mem_cons_of_mem d hd')) hreads hpadded₁
      refine ⟨st', ?_, ?_⟩
      · rw [List.map_cons, List.cons_append, List.foldlM_cons, hstep]
        exact hfold
      · rw [List.append_assoc] at hst'
        exact hst'

end Alphabet

end Regroup
