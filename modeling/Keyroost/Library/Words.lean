import Keyroost.Library.RustStr

/-!
# Words between separators

The non-empty parts of a list between the elements that separate. Separators at either end, and how
many stand between two words, make no difference, so text that is trimmed has the words of the text
as it was. `splitAsciiWhitespace` of Rust is the case of ASCII white space.
-/

namespace Words

variable {α : Type} {sep : α → Bool}

def words (sep : α → Bool) (l : List α) : List (List α) :=
  (l.splitOnP sep).filter fun word => !word.isEmpty

theorem words_append_cons (xs ys : List α) {c : α} (hc : sep c = true) :
    words sep (xs ++ c :: ys) = words sep xs ++ words sep ys := by
  rw [words, List.splitOnP_append_cons xs ys hc, List.filter_append]
  rfl

theorem words_word {xs : List α} (hxs : ∀ x ∈ xs, sep x = false) (hne : xs ≠ []) :
    words sep xs = [xs] := by
  rw [words, List.splitOnP_eq_singleton hxs]
  cases xs with
  | nil => exact absurd rfl hne
  | cons x xs => rfl

theorem words_seps {ws : List α} (hws : ∀ x ∈ ws, sep x = true) : words sep ws = [] := by
  induction ws with
  | nil => rfl
  | cons c ws ih =>
      exact (words_append_cons [] ws (hws c List.mem_cons_self)).trans
        (ih fun x hx => hws x (List.mem_cons_of_mem c hx))

theorem words_append_left {ws : List α} (hws : ∀ x ∈ ws, sep x = true) (s : List α) :
    words sep (ws ++ s) = words sep s := by
  induction ws with
  | nil => rfl
  | cons c ws ih =>
      exact (words_append_cons [] (ws ++ s) (hws c List.mem_cons_self)).trans
        (ih fun x hx => hws x (List.mem_cons_of_mem c hx))

theorem words_append_right {ws : List α} (hws : ∀ x ∈ ws, sep x = true) (s : List α) :
    words sep (s ++ ws) = words sep s := by
  cases ws with
  | nil => rw [List.append_nil]
  | cons c ws =>
      rw [words_append_cons s ws (hws c List.mem_cons_self),
        words_seps fun x hx => hws x (List.mem_cons_of_mem c hx), List.append_nil]

end Words

namespace RustStr

/-- `char::is_ascii_whitespace`: no vertical tab. -/
def isAsciiWhitespace (c : Char) : Bool :=
  decide (c = '\t' ∨ c = '\n' ∨ c = '\x0c' ∨ c = '\r' ∨ c = ' ')

/-- `str::split_ascii_whitespace`. -/
def splitAsciiWhitespace (s : RustStr) : List RustStr := Words.words isAsciiWhitespace s

/-- `str::ends_with`. -/
def endsWith (s suffix : RustStr) : Bool := suffix.isSuffixOf s

/-- `str::strip_suffix`. -/
def stripSuffix (s suffix : RustStr) : Option RustStr :=
  if suffix.isSuffixOf s then some (s.take (s.length - suffix.length)) else none

theorem stripSuffix_eq_some {s suffix t : RustStr} :
    stripSuffix s suffix = some t ↔ s = t ++ suffix := by
  unfold stripSuffix
  constructor
  · intro h
    split at h
    · rename_i hsuffix
      obtain ⟨pre, rfl⟩ := List.isSuffixOf_iff_suffix.mp hsuffix
      rw [List.length_append, Nat.add_sub_cancel, List.take_left] at h
      rw [Option.some.inj h]
    · cases h
  · rintro rfl
    rw [if_pos (List.isSuffixOf_iff_suffix.mpr ⟨t, rfl⟩), List.length_append, Nat.add_sub_cancel,
      List.take_left]

/-- What `trim` takes off is white space. -/
theorem trim_spec (s : RustStr) : ∃ pre post, s = pre ++ (trim s ++ post) ∧
    (∀ c ∈ pre, isWhitespace c = true) ∧ ∀ c ∈ post, isWhitespace c = true := by
  refine ⟨s.takeWhile isWhitespace, (trimStart s).rtakeWhile isWhitespace, ?_, ?_, ?_⟩
  · have hend : trim s ++ (trimStart s).rtakeWhile isWhitespace = trimStart s := by
      rw [trim, List.rdropWhile, List.rtakeWhile, ← List.reverse_append,
        List.takeWhile_append_dropWhile, List.reverse_reverse]
    rw [hend]
    exact List.takeWhile_append_dropWhile.symm
  · exact fun c hc => List.mem_takeWhile_imp hc
  · exact fun c hc => List.mem_takeWhile_imp (List.mem_reverse.mp hc)

/-- Where all white space is ASCII white space, trimming keeps the words. -/
theorem splitAsciiWhitespace_trim {s : RustStr}
    (hs : ∀ c ∈ s, isWhitespace c = true → isAsciiWhitespace c = true) :
    splitAsciiWhitespace (trim s) = splitAsciiWhitespace s := by
  obtain ⟨pre, post, heq, hpre, hpost⟩ := trim_spec s
  have hmem : ∀ c, c ∈ pre ∨ c ∈ post → c ∈ s := by
    intro c hc
    rw [heq]
    rcases hc with hc | hc
    · exact List.mem_append_left _ hc
    · exact List.mem_append_right _ (List.mem_append_right _ hc)
  have hall : splitAsciiWhitespace (pre ++ (trim s ++ post)) = splitAsciiWhitespace (trim s) := by
    rw [splitAsciiWhitespace,
      Words.words_append_left (fun c hc => hs c (hmem c (.inl hc)) (hpre c hc)),
      Words.words_append_right (fun c hc => hs c (hmem c (.inr hc)) (hpost c hc))]
    rfl
  rw [← hall, ← heq]

end RustStr
