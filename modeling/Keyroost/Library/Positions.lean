import Mathlib.Data.List.Destutter
import Mathlib.Data.List.Sort

/-!
# Lists of positions

Positions of a list kept by a test on what stands there, put in order, and listed once (`tidy`). A
list of choices that may repeat or disorder itself becomes the list that is acted on: its members
are those positions that were asked for and pass the test, whatever order they were asked for in.
-/

namespace Positions

variable {α : Type}

theorem mem_destutter' [DecidableEq α] {x a : α} {l : List α} :
    x ∈ l.destutter' (· ≠ ·) a ↔ x = a ∨ x ∈ l := by
  induction l generalizing a with
  | nil => rw [List.destutter'_nil, List.mem_singleton, or_iff_left List.not_mem_nil]
  | cons b l ih =>
      rw [List.mem_cons]
      by_cases hab : a ≠ b
      · rw [List.destutter'_cons_pos _ hab, List.mem_cons, ih]
      · obtain rfl : a = b := not_not.mp hab
        rw [List.destutter'_cons_neg _ hab, ih, or_self_left]

/-- Dropping repeated neighbours loses no element. -/
theorem mem_destutter_ne [DecidableEq α] {x : α} {l : List α} :
    x ∈ l.destutter (· ≠ ·) ↔ x ∈ l := by
  cases l with
  | nil => rfl
  | cons a l => rw [List.destutter_cons', mem_destutter', List.mem_cons]

/-- A list in order and without repeated neighbours has the same elements. -/
theorem mem_tidy [DecidableEq α] {x : α} {l : List α} (r : α → α → Prop) [DecidableRel r] :
    x ∈ (l.insertionSort r).destutter (· ≠ ·) ↔ x ∈ l := by
  rw [mem_destutter_ne, (List.perm_insertionSort r l).mem_iff]

/-- There are as many positions whose element passes a test as elements that pass it. -/
theorem length_filter_range (p : α → Bool) (l : List α) :
    ((List.range l.length).filter fun i => (l[i]?).any p).length = (l.filter p).length := by
  induction l with
  | nil => rfl
  | cons a l ih =>
      rw [List.length_cons, List.range_succ_eq_map, List.filter_cons, List.filter_cons,
        List.filter_map]
      have hrest : ((fun i => ((a :: l)[i]?).any p) ∘ Nat.succ) = fun i => (l[i]?).any p := rfl
      rw [hrest, List.getElem?_cons_zero, Option.any_some]
      split
      · rw [List.length_cons, List.length_cons, List.length_map, ih]
      · rw [List.length_map, ih]

theorem idxOf?_of_mem [DecidableEq α] {l : List α} {a : α} (ha : a ∈ l) :
    ∃ k, l.idxOf? a = some k ∧ k < l.length ∧ l[k]? = some a := by
  cases hk : l.idxOf? a with
  | none => exact absurd ha (List.idxOf?_eq_none_iff.mp hk)
  | some k =>
      obtain ⟨hlt, heq, -⟩ := List.idxOf?_eq_some_iff.mp hk
      exact ⟨k, rfl, hlt, List.getElem?_eq_some_iff.mpr ⟨hlt, heq⟩⟩

end Positions
