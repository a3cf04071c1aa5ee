import Keyroost.Library.ShellWord
import Keyroost.Resolve.Select

/-!
# What a shell reads in a suggested value

A refusal suggests values to paste behind `--device`. Whatever the device made of its name, the
shell reads the quoted value back as one word.

`shellQuote` is the function of `keyroost-resolve/src/select.rs`; the shell is `ShellWord` of the
library, which knows nothing of it. A value of safe characters is left as it is, and any other is
put between single quotes, where a quote in it closes them, is written on its own and opens them
again.
-/

namespace Keyroost.Resolve

/-- The text between the quotes. -/
def quotedBody (v : RustStr) : RustStr :=
  v.flatMap fun c => if c = '\'' then "'\\''".toList else [c]

theorem literal_of_isShellSafe {c : Char} (h : isShellSafe c = true) : ShellWord.Literal c := by
  have hne : ∀ d, isShellSafe d = false → c ≠ d := by
    rintro d hd rfl
    exact absurd (h.symm.trans hd) (by decide)
  have hmem : ∀ l : List Char, (l.all fun d => !isShellSafe d) = true → c ∉ l := by
    intro l hl hc
    exact hne c ((Bool.not_eq_true' _).mp (List.all_eq_true.mp hl c hc)) rfl
  refine ⟨hmem _ (by decide), hne _ (by decide), hne _ (by decide), hne _ (by decide),
    hmem _ (by decide)⟩

/-- Between the quotes only the quote itself is written differently. -/
theorem read_quotedBody {v : RustStr} (hnul : '\x00' ∉ v) (cs : List Char) :
    ShellWord.read .single (quotedBody v ++ cs) =
      (ShellWord.read .single cs).map fun (word, rest) => (v ++ word, rest) := by
  induction v with
  | nil =>
      cases hread : ShellWord.read .single cs with
      | none => exact hread
      | some found => exact hread
  | cons c v ih =>
      obtain ⟨hc, hv⟩ := not_or.1 (mt List.mem_cons.2 hnul)
      have hpush : ShellWord.push c ((ShellWord.read .single cs).map fun (word, rest) =>
          (v ++ word, rest)) =
          (ShellWord.read .single cs).map fun (word, rest) => (c :: v ++ word, rest) := by
        cases ShellWord.read .single cs <;> rfl
      rw [← hpush, ← ih hv]
      by_cases hquote : c = '\''
      · subst hquote
        exact ShellWord.read_quote _
      · have hbody : quotedBody (c :: v) = c :: quotedBody v := by
          rw [quotedBody, List.flatMap_cons, if_neg hquote]
          rfl
        rw [hbody]
        exact ShellWord.read_inside hquote (Ne.symm hc) _

theorem word_quoted {v : RustStr} (hnul : '\x00' ∉ v) {rest : List Char}
    (hrest : ShellWord.Ends rest) :
    ShellWord.word (['\''] ++ quotedBody v ++ ['\''] ++ rest) = some (v, rest) := by
  have hquoted : ['\''] ++ quotedBody v ++ ['\''] ++ rest =
      '\'' :: (quotedBody v ++ '\'' :: rest) := by
    rw [List.append_assoc, List.append_assoc]
    rfl
  rw [hquoted, ShellWord.word, if_neg (by decide), ShellWord.read_open, read_quotedBody hnul,
    ShellWord.read_close, ShellWord.read_end hrest]
  exact congrArg (fun word => some (word, rest)) (List.append_nil v)

theorem word_safe {v : RustStr} (hv : v ≠ []) (hsafe : ∀ c ∈ v, isShellSafe c = true)
    {rest : List Char} (hrest : ShellWord.Ends rest) :
    ShellWord.word (v ++ rest) = some (v, rest) := by
  rcases v with - | ⟨c, v⟩
  · exact absurd rfl hv
  · have hfirst := (literal_of_isShellSafe (hsafe c List.mem_cons_self)).1
    rw [List.cons_append, ShellWord.word, if_neg hfirst, ← List.cons_append]
    exact ShellWord.read_literals (fun c hc => literal_of_isShellSafe (hsafe c hc)) hrest

/-- **A shell reads the quoted value back as one word, and nothing behind it.** The value has no
zero character, which no argument can have; what follows on the command line begins with something
that ends a word. -/
theorem shellQuote_exact (v : RustStr) (hnul : '\x00' ∉ v) (rest : List Char)
    (hrest : ShellWord.Ends rest) : ShellWord.word (shellQuote v ++ rest) = some (v, rest) := by
  rw [shellQuote]
  split
  · rename_i hplain
    obtain ⟨hv, hall⟩ := Bool.and_eq_true_iff.1 hplain
    refine word_safe ?_ (List.all_eq_true.1 hall) hrest
    rintro rfl
    exact absurd hv (by decide)
  · exact word_quoted hnul hrest

theorem shellQuote_exact_quote :
    ShellWord.word (shellQuote "it's".toList ++ " x".toList) =
      some ("it's".toList, " x".toList) :=
  shellQuote_exact "it's".toList (by decide) " x".toList (by
    rintro c hc
    obtain rfl : ' ' = c := Option.some.inj hc
    decide)

end Keyroost.Resolve
