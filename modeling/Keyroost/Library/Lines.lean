import Keyroost.Library.Words

/-!
# Lines without the white space at their end

The lines of a text as the armor of OpenPGP and similar formats read them: cut at line feeds, with
the white space at the end of each taken off. Text of ASCII characters is one byte for each of
them, so a format that is stated in bytes and one that is stated in characters agree on it.
-/

namespace RustStr

/-- `str::trim_end`. -/
def trimEnd (s : RustStr) : RustStr := s.rdropWhile isWhitespace

/-- The lines of a text, each trimmed at its end. -/
def trimmedLines (s : RustStr) : List RustStr := (lines s).map trimEnd

theorem trimEnd_eq_self {s : RustStr} (hs : ∀ c ∈ s, isWhitespace c = false) : trimEnd s = s := by
  rw [trimEnd, List.rdropWhile_eq_self_iff]
  intro hne hspace
  rw [hs _ (List.getLast_mem hne)] at hspace
  exact Bool.false_ne_true hspace

theorem mem_trimEnd {s : RustStr} {c : Char} (hc : c ∈ s) (hspace : isWhitespace c = false) :
    c ∈ trimEnd s := by
  rw [← List.rdropWhile_append_rtakeWhile (p := isWhitespace) (l := s), List.mem_append] at hc
  rcases hc with hc | hc
  · exact hc
  · rw [List.mem_takeWhile_imp (List.mem_reverse.mp hc)] at hspace
    cases hspace

theorem trimEnd_stripCarriageReturn (s : RustStr) :
    trimEnd (stripCarriageReturn s) = trimEnd s := by
  rw [stripCarriageReturn]
  split
  · rename_i hlast
    obtain ⟨init, rfl⟩ := List.getLast?_eq_some_iff.mp hlast
    rw [List.dropLast_concat, trimEnd, trimEnd, List.rdropWhile_concat_pos _ _ _ (by decide)]
  · rfl

/-- The pieces of a text that goes on behind a line feed. -/
theorem splitOn_append_lineFeed (t s : RustStr) :
    (t ++ '\n' :: s).splitOn '\n' = t.splitOn '\n' ++ s.splitOn '\n' :=
  List.splitOn_append_cons_of_beq t s rfl

theorem trimmedLines_append (t s : RustStr) :
    trimmedLines (t ++ '\n' :: s) = (t.splitOn '\n').map trimEnd ++ trimmedLines s := by
  have hne := List.splitOn_ne_nil '\n' s
  rw [trimmedLines, trimmedLines, lines, lines, splitOn_append_lineFeed]
  have htrim : (t.splitOn '\n').map (trimEnd ∘ stripCarriageReturn) =
      (t.splitOn '\n').map trimEnd :=
    List.map_congr_left fun l _ => trimEnd_stripCarriageReturn l
  rw [List.dropLast_append_of_ne_nil hne, List.getLast?_append_of_ne_nil _ hne, List.map_append,
    List.map_append, List.map_append, List.map_map, htrim, List.map_append, List.append_assoc]

theorem trimmedLines_cons {t : RustStr} (ht : '\n' ∉ t) (s : RustStr) :
    trimmedLines (t ++ '\n' :: s) = trimEnd t :: trimmedLines s := by
  rw [trimmedLines_append, List.splitOn_eq_singleton ht]
  rfl

/-- Lines that have no white space, each ended by a line feed. -/
theorem trimmedLines_flatMap {ls : List RustStr}
    (hls : ∀ l ∈ ls, ∀ c ∈ l, isWhitespace c = false) (s : RustStr) :
    trimmedLines (ls.flatMap (· ++ ['\n']) ++ s) = ls ++ trimmedLines s := by
  induction ls with
  | nil => rfl
  | cons l ls ih =>
      have hl := hls l List.mem_cons_self
      have hfeed : '\n' ∉ l := fun h => absurd (hl _ h) (by decide)
      rw [List.flatMap_cons, List.append_assoc, List.append_assoc, List.singleton_append,
        trimmedLines_cons hfeed, trimEnd_eq_self hl,
        ih fun l' hl' => hls l' (List.mem_cons_of_mem l hl')]
      rfl

theorem stripPrefix_eq_some {pre s t : RustStr} : stripPrefix pre s = some t ↔ s = pre ++ t := by
  induction pre generalizing s with
  | nil =>
      rw [stripPrefix, Option.some.injEq]
      rfl
  | cons p pre ih =>
      cases s with
      | nil =>
          rw [stripPrefix]
          constructor
          · exact nofun
          · exact nofun
      | cons c s =>
          rw [stripPrefix, List.cons_append, List.cons.injEq]
          split
          · rename_i hpc
            rw [ih]
            exact ⟨fun h => ⟨hpc.symm, h⟩, And.right⟩
          · rename_i hpc
            constructor
            · exact nofun
            · intro h
              exact absurd h.1.symm hpc

theorem stripPrefix_append (pre t : RustStr) : stripPrefix pre (pre ++ t) = some t :=
  stripPrefix_eq_some.mpr rfl

theorem stripSuffix_append (t suffix : RustStr) : stripSuffix (t ++ suffix) suffix = some t :=
  stripSuffix_eq_some.mpr rfl

/-! ### ASCII text as bytes -/

theorem utf8EncodeChar_ascii :
    ∀ n < 128, String.utf8EncodeChar (Char.ofNat n) = [n.toUInt8] := by decide

def ofAscii (bytes : List UInt8) : RustStr := bytes.map fun b => Char.ofNat b.toNat

theorem asBytes_ofAscii {bytes : List UInt8} (h : ∀ b ∈ bytes, b.toNat < 128) :
    asBytes (ofAscii bytes) = bytes := by
  induction bytes with
  | nil => rfl
  | cons b bytes ih =>
      have hrest := ih fun b' hb' => h b' (List.mem_cons_of_mem b hb')
      rw [ofAscii, List.map_cons, asBytes, List.flatMap_cons,
        utf8EncodeChar_ascii _ (h b List.mem_cons_self)]
      exact congrArg₂ List.cons (UInt8.ofNat_toNat) hrest

theorem asBytes_ascii {s : RustStr} (h : ∀ c ∈ s, c.toNat < 128) :
    asBytes s = s.map fun c => c.toNat.toUInt8 := by
  induction s with
  | nil => rfl
  | cons c s ih =>
      rw [asBytes, List.flatMap_cons, List.map_cons,
        ← Char.ofNat_toNat (c := c), utf8EncodeChar_ascii _ (h c List.mem_cons_self),
        Char.ofNat_toNat]
      exact congrArg _ (ih fun c' hc' => h c' (List.mem_cons_of_mem c hc'))

end RustStr
