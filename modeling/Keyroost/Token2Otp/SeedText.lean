import Keyroost.Library.Words
import Keyroost.Proto.CodecCanonical

/-!
# Seeds as text, for the two kinds of key

The Token2 crate (`keyroost-token2otp/src/lib.rs`) reads a seed with a base32 reader of its own.
Where it takes what the other reader, that of `Codec`, takes, with the same bytes.

Both are reduced to what a text spells (`Spells`): letters of the alphabet and padding, between
characters that a reader skips. The two loops are first run side by side on one letter
(`seedStep_same`), and each reader then gets its own exact statement
(`decodeBase32Seed_ok_iff`, `base32Decode_exact`). `seeds_agree_iff` compares these, with the three
things that may differ: dashes, white space that one of them does not skip, and bits left over.
-/

namespace Keyroost.Token2Otp

open Proto.Codec
open Regroup
open RustStr

/-! ### The reader of the Token2 crate -/

def validateSeedLen (decodedLen : Nat) : Except String Unit :=
  if 1 ≤ decodedLen ∧ decodedLen ≤ 64 then .ok ()
  else if decodedLen = 0 then .error "seed is empty after Base32 decode"
  else .error "seed exceeds 64 bytes after Base32 decode"

def SEED_ALPHABET : RustStr := "ABCDEFGHIJKLMNOPQRSTUVWXYZ234567".toList

structure SeedState where
  buffer : UInt64 := 0
  bits : UInt64 := 0
  out : List UInt8 := []
deriving DecidableEq, Repr

/-- One turn of the loop. A character that is not ASCII is refused at its first byte. -/
def seedStep (st : SeedState) (c : Char) : Except String SeedState :=
  match SEED_ALPHABET.idxOf? c with
  | none => .error "invalid Base32 character in seed"
  | some val =>
      let buffer := (st.buffer <<< 5) ||| val.toUInt64
      let bits := st.bits + 5
      if 8 ≤ bits then
        .ok ⟨buffer, bits - 8, st.out ++ [(buffer >>> (bits - 8)).toUInt8]⟩
      else .ok { st with buffer, bits }

def seedBase32Decode (s : RustStr) : Except String (List UInt8) := do
  let final ← s.foldlM seedStep {}
  return final.out

def decodeBase32Seed (s : RustStr) : Except String (List UInt8) := do
  let cleaned := s.filter (!isWhitespace ·)
  let upper := toAsciiUppercase (cleaned.rdropWhile (· = '='))
  let decoded ← seedBase32Decode upper
  validateSeedLen decoded.length
  return decoded

/-! ### The two loops side by side -/

/-- The variables that both loops have. -/
def SeedState.Same (st : SeedState) (st' : Base32State) : Prop :=
  st.buffer = st'.buf ∧ st.bits = st'.bits ∧ st.out = st'.out

theorem idxOf_table : ∀ n < 128, SEED_ALPHABET.idxOf? (Char.ofNat n).toUpper =
    (base32Value (Char.ofNat n)).map UInt64.toNat := by
  decide +kernel

theorem all_ascii : SEED_ALPHABET.all (fun c => decide (c.toNat < 128)) = true := by
  decide

/-- Both know the same digits. -/
theorem idxOf_toUpper (c : Char) :
    SEED_ALPHABET.idxOf? c.toUpper = (base32Value c).map UInt64.toNat := by
  by_cases hascii : c.toNat < 128
  · have htable := idxOf_table c.toNat hascii
    rwa [Char.ofNat_toNat] at htable
  · have hnone : base32Value c = none := by
      cases hvalue : base32Value c with
      | none => rfl
      | some v => exact absurd (ascii_of_base32Value hvalue) hascii
    have hupper : c.toUpper = c := by
      refine dif_neg ?_
      rintro ⟨-, hz⟩
      exact hascii (Nat.lt_of_le_of_lt hz (by decide))
    have hmem : c ∉ SEED_ALPHABET := by
      intro hmem
      exact hascii (of_decide_eq_true (List.all_eq_true.mp all_ascii c hmem))
    rw [hnone, hupper, Option.map_none, List.idxOf?_eq_none_iff]
    exact hmem

theorem toUInt8_and (x : UInt64) : (x &&& 0xff).toUInt8 = x.toUInt8 := by
  refine UInt8.toNat_inj.mp ?_
  rw [UInt64.toNat_toUInt8, UInt64.toNat_toUInt8, UInt64.toNat_and]
  exact (congrArg (· % 256) (Nat.and_two_pow_sub_one_eq_mod _ 8)).trans (Nat.mod_mod _ _)

theorem seedStep_same {st : SeedState} {st' : Base32State} (h : st.Same st')
    (hpad : st'.padded = false) {c : Char} (hsep : isSeparator32 c = false) (hc : c ≠ '=') :
    (∃ e e', seedStep st c.toUpper = .error e ∧ base32Step st' c = .error e') ∨
    ∃ t t', seedStep st c.toUpper = .ok t ∧ base32Step st' c = .ok t' ∧ t.Same t' ∧
      t'.padded = false := by
  obtain ⟨hbuf, hbits, hout⟩ := h
  rw [seedStep, idxOf_toUpper, base32Step, if_neg (of_decide_eq_false hsep), if_neg hc, hpad,
    if_neg Bool.false_ne_true]
  cases base32Value c with
  | none => exact .inl ⟨_, _, rfl, rfl⟩
  | some v =>
      refine .inr ?_
      dsimp only [Option.map_some]
      have hval : v.toNat.toUInt64 = v := UInt64.ofNat_toNat
      rw [hval, hbuf, hbits, hout]
      split
      · exact ⟨_, _, rfl, rfl, ⟨rfl, rfl, by rw [toUInt8_and]⟩, rfl⟩
      · exact ⟨_, _, rfl, rfl, ⟨rfl, rfl, rfl⟩, rfl⟩

/-! ### Texts of digits and padding -/

/-- The characters that are neither white space nor dashes. -/
def letters (s : RustStr) : RustStr := s.filter fun c => !isWhitespace c && decide (c ≠ '-')

/-- These characters are digits and then padding. -/
def Spells (t : RustStr) (ds : List Nat) : Prop :=
  ∃ body n, t = body ++ List.replicate n '=' ∧ body.map base32Alphabet.value = ds.map some

theorem digit_table : ∀ n < 128, (base32Value (Char.ofNat n)).isSome →
    isWhitespace (Char.ofNat n) = false ∧ isSeparator32 (Char.ofNat n) = false ∧
      Char.ofNat n ≠ '=' := by
  decide

theorem plain_of_value {c : Char} {d : Nat} (h : base32Alphabet.value c = some d) :
    isWhitespace c = false ∧ isSeparator32 c = false ∧ c ≠ '=' := by
  obtain ⟨v, hv, -⟩ := Option.map_eq_some_iff.mp h
  have htable := digit_table c.toNat (ascii_of_base32Value hv)
  rw [Char.ofNat_toNat, hv] at htable
  exact htable rfl

theorem value_of_mem {body : RustStr} {ds : List Nat}
    (h : body.map base32Alphabet.value = ds.map some) {c : Char} (hc : c ∈ body) :
    ∃ d, base32Alphabet.value c = some d := by
  have hmem := List.mem_map_of_mem (f := base32Alphabet.value) hc
  rw [h] at hmem
  obtain ⟨d, -, hd⟩ := List.mem_map.mp hmem
  exact ⟨d, hd.symm⟩

/-- Both loops come through digits, with the same bytes. -/
theorem fold_digits {body : RustStr} {ds ds₀ : List Nat}
    (h : body.map base32Alphabet.value = ds.map some) {st : SeedState} {st' : Base32State}
    (hsame : st.Same st') (hreads : st'.Reads ds₀) (hpad : st'.padded = false) :
    ∃ t t', (body.map Char.toUpper).foldlM seedStep st = .ok t ∧
      body.foldlM base32Step st' = .ok t' ∧ t.Same t' ∧ t'.Reads (ds₀ ++ ds) ∧
      t'.padded = false := by
  induction body generalizing ds ds₀ st st' with
  | nil =>
      obtain rfl : ds = [] := List.map_eq_nil_iff.mp h.symm
      rw [List.append_nil]
      exact ⟨st, st', rfl, rfl, hsame, hreads, hpad⟩
  | cons c body ih =>
      cases ds with
      | nil => cases h
      | cons d ds =>
          obtain ⟨hd, hrest⟩ := List.cons.inj h
          obtain ⟨-, hsep, hc⟩ := plain_of_value hd
          obtain ⟨u', hstep', hpad', hreads'⟩ :=
            base32Loop.digit st' ds₀ c d hreads hpad hsep hc hd
          rcases seedStep_same hsame hpad hsep hc with
            ⟨e, e', -, herror⟩ | ⟨u, v', hstep, hstep'', hsame', -⟩
          · cases herror.symm.trans hstep'
          · obtain rfl := Except.ok.inj (hstep''.symm.trans hstep')
            obtain ⟨t, t', hfold, hfold', hsame'', hreads'', hpad''⟩ :=
              ih hrest hsame' hreads' hpad'
            refine ⟨t, t', ?_, ?_, hsame'', ?_, hpad''⟩
            · rw [List.map_cons, List.foldlM_cons, hstep]
              exact hfold
            · rw [List.foldlM_cons, hstep'']
              exact hfold'
            · rw [List.append_assoc] at hreads''
              exact hreads''

theorem seed_fold_values {t : RustStr} {st st' : SeedState}
    (h : (t.map Char.toUpper).foldlM seedStep st = .ok st') :
    ∃ ds : List Nat, t.map base32Alphabet.value = ds.map some := by
  induction t generalizing st with
  | nil => exact ⟨[], rfl⟩
  | cons c t ih =>
      rw [List.map_cons, List.foldlM_cons] at h
      obtain ⟨st₁, hstep, hrest⟩ := Checks.bind_eq_ok.mp h
      obtain ⟨ds, hds⟩ := ih hrest
      cases hvalue : SEED_ALPHABET.idxOf? c.toUpper with
      | none =>
          rw [seedStep, hvalue] at hstep
          cases hstep
      | some d =>
          rw [idxOf_toUpper] at hvalue
          exact ⟨d :: ds, congrArg₂ List.cons hvalue hds⟩

/-! ### What each reader takes -/

theorem rdropWhile_pad {body : RustStr} (hbody : '=' ∉ body) (n : Nat) :
    (body ++ List.replicate n '=').rdropWhile (· = '=') = body := by
  induction n with
  | zero =>
      rw [List.replicate_zero, List.append_nil, List.rdropWhile_eq_self_iff]
      intro hne hlast
      rw [← of_decide_eq_true hlast] at hbody
      exact hbody (List.getLast_mem hne)
  | succ n ih =>
      rw [List.replicate_succ', ← List.append_assoc]
      exact (List.rdropWhile_concat_pos (fun c => decide (c = '=')) _ _ (by decide)).trans ih

theorem rdropWhile_split (t : RustStr) :
    ∃ n, t = t.rdropWhile (· = '=') ++ List.replicate n '=' := by
  refine ⟨(t.rtakeWhile (· = '=')).length, ?_⟩
  have hall : t.rtakeWhile (· = '=') = List.replicate (t.rtakeWhile (· = '=')).length '=' := by
    refine List.eq_replicate_iff.mpr ⟨rfl, fun c hc => ?_⟩
    rw [List.rtakeWhile, List.mem_reverse] at hc
    have hpad := List.mem_takeWhile_imp hc
    exact of_decide_eq_true hpad
  rw [← hall, List.rdropWhile_append_rtakeWhile]

theorem letters_of_no_dash {s : RustStr} (h : '-' ∉ s) :
    s.filter (!isWhitespace ·) = letters s := by
  refine List.filter_congr fun c hc => ?_
  have hne : c ≠ '-' := fun heq => h (heq ▸ hc)
  rw [decide_eq_true hne, Bool.and_true]

/-- **The Token2 reader** takes digits and padding between white space, whatever bits are left. -/
theorem decodeBase32Seed_ok_iff {s : RustStr} {b : List UInt8} :
    decodeBase32Seed s = .ok b ↔ '-' ∉ s ∧ (1 ≤ b.length ∧ b.length ≤ 64) ∧
      ∃ ds bits left, Spells (letters s) ds ∧ Holds 5 ds b bits left ∧ bits < 8 := by
  have hstart : (({} : SeedState).Same {}) := ⟨rfl, rfl, rfl⟩
  have hreads : Base32State.Reads {} [] := ⟨Holds.nil 5, by decide⟩
  have hlength : ∀ {b : List UInt8}, validateSeedLen b.length = .ok () ↔
      1 ≤ b.length ∧ b.length ≤ 64 := by
    intro b
    rw [validateSeedLen]
    split
    · exact ⟨fun _ => ‹_›, fun _ => rfl⟩
    · rename_i hno
      refine ⟨fun h => ?_, fun h => absurd h hno⟩
      split at h
      · cases h
      · cases h
  constructor
  · intro h
    obtain ⟨b', hdecode, h⟩ := Checks.bind_eq_ok.mp h
    obtain ⟨⟨⟩, hlen, h⟩ := Checks.bind_eq_ok.mp h
    cases h
    obtain ⟨final, hfold, hout⟩ := Checks.bind_eq_ok.mp hdecode
    cases hout
    obtain ⟨ds, hds⟩ := seed_fold_values hfold
    obtain ⟨t, t', hfold', -, ⟨-, -, hout⟩, hread, -⟩ := fold_digits hds hstart hreads rfl
    obtain rfl := Except.ok.inj (hfold'.symm.trans hfold)
    obtain ⟨n, hsplit⟩ := rdropWhile_split (s.filter (!isWhitespace ·))
    have hdash : '-' ∉ s := by
      intro hmem
      have hkept : '-' ∈ s.filter (!isWhitespace ·) := List.mem_filter.mpr ⟨hmem, by decide⟩
      rw [hsplit, List.mem_append] at hkept
      rcases hkept with hkept | hkept
      · obtain ⟨d, hd⟩ := value_of_mem hds hkept
        cases hd
      · exact absurd (List.eq_of_mem_replicate hkept) (by decide)
    refine ⟨hdash, hlength.mp hlen, ds, _, _, ⟨_, n, ?_, hds⟩, hout ▸ hread.holds, hread.room⟩
    rw [← letters_of_no_dash hdash]
    exact hsplit
  · rintro ⟨hdash, hlen, ds, bits, left, ⟨body, n, hletters, hds⟩, hholds, hbits⟩
    have hbody : '=' ∉ body := by
      intro hmem
      obtain ⟨d, hd⟩ := value_of_mem hds hmem
      exact (plain_of_value hd).2.2 rfl
    obtain ⟨t, t', hfold, -, ⟨-, -, hout⟩, hread, -⟩ := fold_digits hds hstart hreads rfl
    have hbytes := (hread.holds.bytes_eq hholds hread.room hbits).1
    rw [decodeBase32Seed, letters_of_no_dash hdash, hletters, rdropWhile_pad hbody,
      toAsciiUppercase, seedBase32Decode, hfold]
    dsimp only [Checks.ok_bind, pure, Except.pure]
    rw [hout, hbytes, hlength.mpr hlen]
    rfl

/-- A character that the other reader neither skips nor knows. -/
def Odd (s : RustStr) : Prop := ∃ c ∈ s, isWhitespace c = true ∧ isSeparator32 c = false

theorem base32Step_padded {st st' : Base32State} {c : Char} (hsep : isSeparator32 c = false)
    (hpad : st.padded = true) (h : base32Step st c = .ok st') : c = '=' ∧ st'.padded = true := by
  by_cases hc : c = '='
  · rw [base32Step_pad hsep hc] at h
    cases h
    exact ⟨hc, rfl⟩
  · obtain ⟨e, herror⟩ := base32Loop.refuse st c hsep hc (.inl hpad)
    cases herror.symm.trans h

theorem fold_padded {t : RustStr} (ht : ∀ c ∈ t, isSeparator32 c = false) {st st' : Base32State}
    (hpad : st.padded = true) (h : t.foldlM base32Step st = .ok st') :
    t = List.replicate t.length '=' := by
  induction t generalizing st with
  | nil => rfl
  | cons c t ih =>
      rw [List.foldlM_cons] at h
      obtain ⟨st₁, hstep, hrest⟩ := Checks.bind_eq_ok.mp h
      obtain ⟨rfl, hpad'⟩ := base32Step_padded (ht c List.mem_cons_self) hpad hstep
      have htail := ih (fun c hc => ht c (List.mem_cons_of_mem _ hc)) hpad' hrest
      rw [List.length_cons, List.replicate_succ, ← htail]

/-- A text without separators that the loop comes through is digits and then padding. -/
theorem spells_of_fold {t : RustStr} (ht : ∀ c ∈ t, isSeparator32 c = false)
    {st st' : Base32State} (hpad : st.padded = false) (h : t.foldlM base32Step st = .ok st') :
    ∃ ds, Spells t ds := by
  induction t generalizing st with
  | nil => exact ⟨[], [], 0, rfl, rfl⟩
  | cons c t ih =>
      have htail : ∀ c ∈ t, isSeparator32 c = false := fun c hc => ht c (List.mem_cons_of_mem _ hc)
      have hsep := ht c List.mem_cons_self
      rw [List.foldlM_cons] at h
      obtain ⟨st₁, hstep, hrest⟩ := Checks.bind_eq_ok.mp h
      by_cases hc : c = '='
      · subst hc
        rw [base32Step_pad hsep rfl] at hstep
        cases hstep
        have hrep := fold_padded htail rfl hrest
        refine ⟨[], [], t.length + 1, ?_, rfl⟩
        rw [List.replicate_succ, ← hrep]
        rfl
      · cases hvalue : base32Alphabet.value c with
        | none =>
            obtain ⟨e, herror⟩ := base32Loop.refuse st c hsep hc (.inr hvalue)
            cases herror.symm.trans hstep
        | some d =>
            have hpad' : st₁.padded = false := by
              rw [base32Step, if_neg (of_decide_eq_false hsep), if_neg hc, hpad,
                if_neg Bool.false_ne_true] at hstep
              split at hstep
              · cases hstep
              · dsimp only at hstep
                split at hstep
                all_goals
                  cases hstep
                  rfl
            obtain ⟨ds, body, n, rfl, hds⟩ := ih htail hpad' hrest
            refine ⟨d :: ds, c :: body, n, rfl, ?_⟩
            rw [List.map_cons, hvalue, hds]
            rfl

theorem fold_filter (s : RustStr) (st : Base32State) :
    s.foldlM base32Step st = (s.filter (!isSeparator32 ·)).foldlM base32Step st := by
  induction s generalizing st with
  | nil => rfl
  | cons c s ih =>
      rw [List.filter_cons]
      cases hsep : isSeparator32 c with
      | true =>
          rw [List.foldlM_cons, base32Step_skip hsep]
          exact ih st
      | false =>
          rw [List.foldlM_cons]
          refine (congrArg (base32Step st c >>= ·) (funext fun st' => ih st')).trans ?_
          rfl

/-- The other loop comes through digits and padding, and has read the digits. -/
theorem fold_spells {t : RustStr} {ds : List Nat} (h : Spells t ds) :
    ∃ st, t.foldlM base32Step {} = .ok st ∧ st.Reads ds := by
  obtain ⟨body, n, rfl, hds⟩ := h
  have hreads : Base32State.Reads {} [] := ⟨Holds.nil 5, Nat.zero_lt_succ 7⟩
  have hsame : (({} : SeedState).Same {}) := ⟨rfl, rfl, rfl⟩
  obtain ⟨-, st, -, hfold, -, hread, -⟩ := fold_digits hds hsame hreads rfl
  obtain ⟨st', hpads, hread'⟩ := base32Loop.fold_padding rfl hread n
  refine ⟨st', ?_, hread'⟩
  rw [List.foldlM_append, hfold]
  exact hpads

theorem letters_of_not_odd {s : RustStr} (h : ¬ Odd s) :
    s.filter (!isSeparator32 ·) = letters s := by
  refine List.filter_congr fun c hc => ?_
  have hsep : isSeparator32 c = false → isWhitespace c = false := by
    intro hsep
    refine Bool.eq_false_iff.mpr fun hspace => h ⟨c, hc, hspace, hsep⟩
  cases hcase : isSeparator32 c with
  | false =>
      have hne : c ≠ '-' := fun heq => absurd (heq ▸ hcase) (by decide)
      rw [hsep hcase, decide_eq_true hne]
      rfl
  | true =>
      rcases of_decide_eq_true hcase with rfl | rfl | rfl | rfl | rfl
      all_goals rfl

/-- **The other reader** takes digits and padding between its separators when no bit is left. -/
theorem base32Decode_exact {s : RustStr} {b : List UInt8} :
    base32Decode s = .ok b ↔ ¬ Odd s ∧
      ∃ ds bits, Spells (letters s) ds ∧ Holds 5 ds b bits 0 ∧ bits < 8 := by
  rw [base32Decode_ok_iff, fold_filter]
  constructor
  · rintro ⟨st, hfold, hleft, rfl⟩
    have hplain : ∀ c ∈ s.filter (!isSeparator32 ·), isSeparator32 c = false := by
      intro c hc
      have hkept := (List.mem_filter.mp hc).2
      rwa [Bool.not_eq_true'] at hkept
    obtain ⟨ds, hspells⟩ := spells_of_fold hplain rfl hfold
    have hodd : ¬ Odd s := by
      rintro ⟨c, hc, hspace, hsep⟩
      obtain ⟨body, n, hsplit, hds⟩ := hspells
      have hmem : c ∈ body ++ List.replicate n '=' := by
        rw [← hsplit, List.mem_filter, hsep]
        exact ⟨hc, rfl⟩
      rcases List.mem_append.mp hmem with hbody | hpad
      · obtain ⟨d, hd⟩ := value_of_mem hds hbody
        rw [(plain_of_value hd).1] at hspace
        cases hspace
      · rw [List.eq_of_mem_replicate hpad] at hspace
        exact absurd hspace (by decide)
    obtain ⟨st', hfold', hread⟩ := fold_spells hspells
    obtain rfl := Except.ok.inj (hfold.symm.trans hfold')
    rw [left_iff32 hread.room, not_not] at hleft
    have hholds := hread.holds
    rw [hleft] at hholds
    exact ⟨hodd, ds, _, letters_of_not_odd hodd ▸ hspells, hholds, hread.room⟩
  · rintro ⟨hodd, ds, bits, hspells, hholds, hbits⟩
    obtain ⟨st, hfold, hread⟩ := fold_spells hspells
    obtain ⟨hout, -, hleft⟩ := hread.holds.bytes_eq hholds hread.room hbits
    rw [letters_of_not_odd hodd]
    refine ⟨st, hfold, ?_, hout⟩
    rw [left_iff32 hread.room, not_not]
    exact hleft

/-! ### Where they agree -/

/-- The number that the bits after the last whole byte make. -/
def rest (ds : List Nat) : Nat := value 32 ds % 2 ^ (5 * ds.length % 8)

theorem left_eq_rest {ds : List Nat} {b : List UInt8} {bits left : Nat}
    (h : Holds 5 ds b bits left) (hbits : bits < 8) :
    left = rest ds ∧ b.length = 5 * ds.length / 8 := by
  have hsize := h.size
  have hmod : 5 * ds.length % 8 = bits := by omega
  refine ⟨?_, by omega⟩
  have hvalue : value 32 ds = bytesValue b * 2 ^ bits + left := h.number
  rw [rest, hmod, hvalue, Nat.mul_add_mod_self_right, Nat.mod_eq_of_lt h.lt]

theorem Spells.unique {t : RustStr} {ds ds' : List Nat} (h : Spells t ds) (h' : Spells t ds') :
    ds = ds' := by
  have hnone : ∀ {body : RustStr} {ds : List Nat}, body.map base32Alphabet.value = ds.map some →
      '=' ∉ body := by
    intro body ds hds hmem
    obtain ⟨d, hd⟩ := value_of_mem hds hmem
    exact (plain_of_value hd).2.2 rfl
  obtain ⟨body, n, rfl, hds⟩ := h
  obtain ⟨body', n', hsplit, hds'⟩ := h'
  have hbody : body = body' := by
    rw [← rdropWhile_pad (hnone hds) n, hsplit, rdropWhile_pad (hnone hds') n']
  subst hbody
  exact List.map_injective_iff.mpr (Option.some_injective _) (hds.symm.trans hds')

/-- Both readers take the same bytes from the text, or neither takes any. -/
def SeedsAgree (s : RustStr) : Prop :=
  ∀ b, decodeBase32Seed s = .ok b ↔ base32Decode s = .ok b ∧ 1 ≤ b.length ∧ b.length ≤ 64

/-- **Where the readers agree**: on a text that is not digits and padding of one to 64 bytes apart
from white space and dashes, and else where a dash stands exactly when there is white space that
the other reader does not skip or a bit left. -/
theorem seeds_agree_iff (s : RustStr) :
    SeedsAgree s ↔ ∀ ds, Spells (letters s) ds → 1 ≤ 5 * ds.length / 8 → 5 * ds.length / 8 ≤ 64 →
      ('-' ∉ s ↔ ¬ Odd s ∧ rest ds = 0) := by
  constructor
  · intro hagree ds hspells hfirst hlast
    obtain ⟨st, -, hread⟩ := fold_spells hspells
    obtain ⟨hleft, hlength⟩ := left_eq_rest hread.holds hread.room
    rw [← hlength] at hfirst hlast
    constructor
    · intro hdash
      have hseed := decodeBase32Seed_ok_iff.mpr
        ⟨hdash, ⟨hfirst, hlast⟩, ds, _, _, hspells, hread.holds, hread.room⟩
      obtain ⟨hodd, ds', bits', hspells', hholds', hbits'⟩ :=
        base32Decode_exact.mp ((hagree _).mp hseed).1
      refine ⟨hodd, ?_⟩
      rw [hspells.unique hspells']
      exact (left_eq_rest hholds' hbits').1.symm
    · rintro ⟨hodd, hrest⟩
      have hholds := hread.holds
      rw [hleft, hrest] at hholds
      have hproto := base32Decode_exact.mpr ⟨hodd, ds, _, hspells, hholds, hread.room⟩
      exact (decodeBase32Seed_ok_iff.mp ((hagree _).mpr ⟨hproto, hfirst, hlast⟩)).1
  · intro hcondition b
    constructor
    · intro hseed
      obtain ⟨hdash, ⟨hfirst, hlast⟩, ds, bits, left, hspells, hholds, hbits⟩ :=
        decodeBase32Seed_ok_iff.mp hseed
      obtain ⟨hleft, hlength⟩ := left_eq_rest hholds hbits
      obtain ⟨hodd, hrest⟩ :=
        (hcondition ds hspells (hlength ▸ hfirst) (hlength ▸ hlast)).mp hdash
      rw [hleft, hrest] at hholds
      exact ⟨base32Decode_exact.mpr ⟨hodd, ds, bits, hspells, hholds, hbits⟩, hfirst, hlast⟩
    · rintro ⟨hproto, hfirst, hlast⟩
      obtain ⟨hodd, ds, bits, hspells, hholds, hbits⟩ := base32Decode_exact.mp hproto
      obtain ⟨hleft, hlength⟩ := left_eq_rest hholds hbits
      have hdash := (hcondition ds hspells (hlength ▸ hfirst) (hlength ▸ hlast)).mpr
        ⟨hodd, hleft.symm⟩
      exact decodeBase32Seed_ok_iff.mpr
        ⟨hdash, ⟨hfirst, hlast⟩, ds, bits, 0, hspells, hholds, hbits⟩

/-- Two characters with two bits left: a seed for one kind of key, refused for the other. -/
theorem seeds_not_always_agree :
    ¬ (decodeBase32Seed "AB".toList = .ok [0x00] ↔
      base32Decode "AB".toList = .ok [0x00] ∧ 1 ≤ [0x00].length ∧ [0x00].length ≤ 64) ∧
      decodeBase32Seed "AB".toList = .ok [0x00] ∧
      base32Decode "AB".toList = .error .invalidLength := by
  decide

end Keyroost.Token2Otp
