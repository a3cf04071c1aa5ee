import Keyroost.Library.Checks
import Keyroost.Import.Bulk

/-!
# The items of a list, line by line

What the list reader of `keyroost-import/src/bulk.rs` reads is the lines' items one after the other
(`Bulk`). A line gives its items the line's own index, and only a migration link gives more than
one item.

So two items of a file have one index exactly if they come from one link, which is what `Join` needs
to know of a file. The JSON readers number their accounts one by one; `indices_parseAnyWide` puts
the readers together.
-/

namespace Keyroost.Import.Bulk

open Checks

/-- The items one line gives. A migration link on a line gives all of its accounts, with the line's
index; one that cannot be read is an item that says so. -/
def lineItems (numbered : RustStr × Nat) : List ImportItem :=
  let (raw, i) := numbered
  let line := raw.trim
  if isBlankOrComment line then []
  else if Migration.isMigrationUri line then
    match Migration.parseWide line with
    | .ok file => file.items.map fun item => { item with index := i }
    | .error _ => [{
        index := i
        label := lineLabel i
        entry := .error (.malformed "the Google Authenticator export couldn't be read") }]
  else
    let (name, entry) := Otpauth.parseEntryLabeled line
    [{ index := i, label := name.getD (lineLabel i), entry }]

theorem listStep_items {s t : ListState} {numbered : RustStr × Nat}
    (hstep : listStep s numbered = .ok t) : t.items = s.items ++ lineItems numbered := by
  obtain ⟨raw, i⟩ := numbered
  unfold listStep at hstep
  unfold lineItems
  by_cases hblank : isBlankOrComment (RustStr.trim raw) = true
  · simp only [hblank, if_true, Except.ok.injEq] at hstep
    simp [hblank, hstep]
  · by_cases hfull : MAX_ENTRIES ≤ s.items.length
    · simp [hblank, hfull] at hstep
    · by_cases hlink : Migration.isMigrationUri (RustStr.trim raw) = true
      · cases hread : Migration.parseWide (RustStr.trim raw) with
        | error why =>
            cases why <;> simp [hblank, hfull, hlink, hread] at hstep <;>
              simp [hblank, hlink, hread, ← hstep]
        | ok file =>
            by_cases hmany : MAX_ENTRIES < s.items.length + file.items.length
            · simp [hblank, hfull, hlink, hread, hmany] at hstep
            · simp only [hblank, hfull, hlink, hread, hmany, if_false, if_true,
                Bool.false_eq_true, Except.ok.injEq] at hstep
              simp [hblank, hlink, hread, ← hstep]
      · simp only [hblank, hfull, hlink, if_false, Bool.false_eq_true, Except.ok.injEq] at hstep
        simp [hblank, hlink, ← hstep]

theorem foldlM_listStep_items {numbered : List (RustStr × Nat)} {s t : ListState}
    (hfold : numbered.foldlM listStep s = .ok t) :
    t.items = s.items ++ numbered.flatMap lineItems := by
  induction numbered generalizing s with
  | nil =>
      obtain rfl : s = t := by simpa using hfold
      simp
  | cons line rest ih =>
      rw [List.foldlM_cons, bind_eq_ok] at hfold
      obtain ⟨u, hstep, hrest⟩ := hfold
      rw [ih hrest, listStep_items hstep, List.flatMap_cons, List.append_assoc]

/-- A list is read line by line. -/
theorem parseListWide_items {text : RustStr} {file : ImportFile}
    (hread : parseListWide text = .ok file) :
    file.items = (RustStr.lines text).zipIdx.flatMap lineItems := by
  simp only [parseListWide, bind_eq_ok] at hread
  obtain ⟨s, hfold, hrest⟩ := hread
  have hitems := foldlM_listStep_items hfold
  split at hrest
  · simp at hrest
  · obtain rfl : _ = file := by simpa using hrest
    simpa using hitems

/-- Every item of a line has the line's index. -/
theorem index_lineItems {raw : RustStr} {i : Nat} :
    ∀ item ∈ lineItems (raw, i), item.index = i := by
  intro item hitem
  simp only [lineItems] at hitem
  split at hitem
  · cases hitem
  · split at hitem
    · split at hitem
      · obtain ⟨inner, -, rfl⟩ := List.mem_map.mp hitem
        rfl
      · rw [List.mem_singleton.mp hitem]
    · rw [List.mem_singleton.mp hitem]

/-! ### Which items share an index -/

theorem pairwise_zipIdx {α : Type} (l : List α) : l.zipIdx.Pairwise fun a b => a.2 ≠ b.2 := by
  have hnodup : (l.zipIdx.map (·.2)).Nodup := by
    rw [List.zipIdx_map_snd]
    exact List.nodup_range'
  exact List.pairwise_map.mp hnodup

/-- The items of a JSON export are numbered through. -/
theorem indices_numbered {α : Type} (l : List α) {item : α × Nat → ImportItem}
    (hindex : ∀ a i, (item (a, i)).index = i) :
    (l.zipIdx.map item).Pairwise fun a b => a.index ≠ b.index := by
  rw [List.pairwise_map]
  refine (pairwise_zipIdx l).imp ?_
  rintro ⟨a, i⟩ ⟨b, j⟩ hne
  rw [hindex, hindex]
  exact hne

theorem indices_aegis {json : JsonReader} {text : RustStr} {file : ImportFile}
    (hread : aegisParseWide json text = .ok file) :
    file.items.Pairwise fun a b => a.index ≠ b.index := by
  simp only [aegisParseWide, throw_bind, check_eq_ok, bind_eq_ok, pure_eq_ok] at hread
  obtain ⟨-, entries, -, counters, -, -, rfl⟩ := hread
  exact indices_numbered _ fun _ _ => rfl

theorem indices_twofas {json : JsonReader} {text : RustStr} {file : ImportFile}
    (hread : twofasParseWide json text = .ok file) :
    file.items.Pairwise fun a b => a.index ≠ b.index := by
  simp only [twofasParseWide, throw_bind, check_eq_ok, bind_eq_ok, pure_eq_ok] at hread
  obtain ⟨-, root, -, -, counters, -, -, rfl⟩ := hread
  exact indices_numbered _ fun _ _ => rfl

/-- Two items of a list share an index only when one link carries both: if no line
carries more than one item, all indices differ. -/
theorem indices_list {text : RustStr} {file : ImportFile} (hread : parseListWide text = .ok file)
    (hsingle : ∀ numbered ∈ (RustStr.lines text).zipIdx, (lineItems numbered).length ≤ 1) :
    file.items.Pairwise fun a b => a.index ≠ b.index := by
  rw [parseListWide_items hread, List.pairwise_flatMap]
  refine ⟨fun numbered hmem => ?_, (pairwise_zipIdx _).imp ?_⟩
  · have hlen := hsingle numbered hmem
    match hitems : lineItems numbered with
    | [] => exact .nil
    | [_] => exact List.pairwise_singleton _ _
    | _ :: _ :: _ => simp [hitems] at hlen
  · rintro ⟨raw, i⟩ ⟨raw', j⟩ hne a ha b hb
    rw [index_lineItems a ha, index_lineItems b hb]
    exact hne

/-- Whatever the format, items share an index only when one line carries both. -/
theorem indices_parseAnyWide {json : JsonReader} {text : RustStr} {file : ImportFile}
    (hread : parseAnyWide json text = .ok file)
    (hsingle : ∀ numbered ∈ (RustStr.lines text).zipIdx, (lineItems numbered).length ≤ 1) :
    file.items.Pairwise fun a b => a.index ≠ b.index := by
  unfold parseAnyWide at hread
  split at hread
  · split at hread
    · rename_i aegis haegis
      obtain rfl : aegis = file := by simpa using hread
      exact indices_aegis haegis
    · cases hread
    · exact indices_twofas hread
  · exact indices_list hread hsingle

end Keyroost.Import.Bulk
