/-!
# Words of a POSIX shell

How a shell reads one word of a command line, up to the character that ends it: bare characters,
single quotes, double quotes and backslashes, one state for each.

A word with an expansion in it, or with a character that may stand for more than itself, is not
read: what the shell makes of it depends on more than the text. So a quoting function is right if
what it writes is read, and read as what was quoted.
-/

namespace ShellWord

/-- Blanks, the newline and the first characters of operators end a word. -/
def delimiters : List Char := [' ', '\t', '\n', '|', '&', ';', '<', '>', '(', ')']

/-- Unquoted, these start expansions, patterns, comments or reserved words. -/
def specials : List Char :=
  ['$', Char.ofNat 0x60, '*', '?', '[', ']', '#', '~', '!', '^', '{', '}', '\x00']

/-- Between double quotes, a backslash quotes these alone. -/
def escapable : List Char := ['$', Char.ofNat 0x60, '"', '\\']

inductive Quoting where
  | plain
  | single
  | double
deriving DecidableEq, Repr

/-- One character of a word, and the word behind it. -/
def push (c : Char) (read : Option (List Char × List Char)) : Option (List Char × List Char) :=
  read.map fun (word, rest) => (c :: word, rest)

/-- The rest of a word, without its quotes, and what follows it. -/
def read : Quoting → List Char → Option (List Char × List Char)
  | .plain, [] => some ([], [])
  | .single, [] => none
  | .double, [] => none
  | .plain, ['\\'] => none
  | .plain, '\\' :: c :: cs =>
      if c = '\n' then read .plain cs
      else if c = '\x00' then none
      else push c (read .plain cs)
  | .plain, c :: cs =>
      if c ∈ delimiters then some ([], c :: cs)
      else if c = '\'' then read .single cs
      else if c = '"' then read .double cs
      else if c ∈ specials then none
      else push c (read .plain cs)
  | .single, c :: cs =>
      if c = '\'' then read .plain cs
      else if c = '\x00' then none
      else push c (read .single cs)
  | .double, '\\' :: c :: cs =>
      if c = '\n' then read .double cs
      else if c ∈ escapable then push c (read .double cs)
      else push '\\' (read .double (c :: cs))
  | .double, c :: cs =>
      if c = '"' then read .plain cs
      else if c = '$' ∨ c = Char.ofNat 0x60 ∨ c = '\x00' then none
      else push c (read .double cs)

/-- The word at the front, if there is one. -/
def word : List Char → Option (List Char × List Char)
  | [] => none
  | c :: cs => if c ∈ delimiters then none else read .plain (c :: cs)

/-- A word ends here, and is not the number of a redirection. -/
def Ends (rest : List Char) : Prop := ∀ c ∈ rest.head?, c ∈ delimiters ∧ c ≠ '<' ∧ c ≠ '>'

/-! ### Reading -/

theorem read_plain {c : Char} (hback : c ≠ '\\') (cs : List Char) :
    read .plain (c :: cs) =
      if c ∈ delimiters then some ([], c :: cs)
      else if c = '\'' then read .single cs
      else if c = '"' then read .double cs
      else if c ∈ specials then none
      else push c (read .plain cs) := by
  rw [read]
  · rintro rfl
    exact absurd rfl hback
  · rintro c' cs' rfl
    exact absurd rfl hback

theorem read_end {rest : List Char} (h : Ends rest) : read .plain rest = some ([], rest) := by
  cases rest with
  | nil => rfl
  | cons c rest =>
      obtain ⟨hc, -⟩ := h c rfl
      have hback : c ≠ '\\' := by
        rintro rfl
        exact absurd hc (by decide)
      rw [read_plain hback, if_pos hc]

/-- A character that stands for itself. -/
def Literal (c : Char) : Prop :=
  c ∉ delimiters ∧ c ≠ '\'' ∧ c ≠ '"' ∧ c ≠ '\\' ∧ c ∉ specials

theorem read_literal {c : Char} (h : Literal c) (cs : List Char) :
    read .plain (c :: cs) = push c (read .plain cs) := by
  obtain ⟨hend, hsingle, hdouble, hback, hspecial⟩ := h
  rw [read_plain hback, if_neg hend, if_neg hsingle, if_neg hdouble, if_neg hspecial]

theorem read_literals {v rest : List Char} (hv : ∀ c ∈ v, Literal c) (hrest : Ends rest) :
    read .plain (v ++ rest) = some (v, rest) := by
  induction v with
  | nil => exact read_end hrest
  | cons c v ih =>
      rw [List.cons_append, read_literal (hv c List.mem_cons_self),
        ih fun c' hc' => hv c' (List.mem_cons_of_mem c hc')]
      rfl

theorem read_open (cs : List Char) : read .plain ('\'' :: cs) = read .single cs := rfl

theorem read_single (c : Char) (cs : List Char) :
    read .single (c :: cs) =
      if c = '\'' then read .plain cs
      else if c = '\x00' then none
      else push c (read .single cs) := rfl

theorem read_close (cs : List Char) : read .single ('\'' :: cs) = read .plain cs := rfl

theorem read_inside {c : Char} (hquote : c ≠ '\'') (hnul : c ≠ '\x00') (cs : List Char) :
    read .single (c :: cs) = push c (read .single cs) := by
  rw [read_single, if_neg hquote, if_neg hnul]

/-- A single quote between two quoted parts: `'\''`. -/
theorem read_quote (cs : List Char) :
    read .single ('\'' :: '\\' :: '\'' :: '\'' :: cs) = push '\'' (read .single cs) := rfl

end ShellWord
