import Mathlib.Data.List.Nodup

/-!
# Replacing elements of a list

Taking the elements with a property out of a list and putting one element in the place of the first
of them, and taking out the first alone. These are what an edit of an array of records does, and the
lemmas say what stands where afterwards.
-/

namespace Replace

variable {α : Type}

/-- The new element stands somewhere among the elements kept. -/
theorem insertIdx_findIdx (p : α → Bool) (a : α) {l : List α} {i : Nat}
    (h : l.findIdx? p = some i) :
    ∃ front back, (l.filter fun x => !p x).insertIdx i a = front ++ a :: back ∧
      front ++ back = l.filter fun x => !p x := by
  induction l generalizing i with
  | nil => cases h
  | cons x l ih =>
      rw [List.findIdx?_cons] at h
      split at h
      · cases h
        exact ⟨[], _, List.insertIdx_zero, rfl⟩
      · rename_i hx
        obtain ⟨j, hj, hji⟩ := Option.map_eq_some_iff.mp h
        obtain ⟨front, back, hinsert, hkept⟩ := ih hj
        have hkeep : ((x :: l).filter fun x => !p x) = x :: l.filter fun x => !p x := by
          rw [List.filter_cons, if_pos (by rw [eq_false_of_ne_true hx]; rfl)]
        refine ⟨x :: front, back, ?_, ?_⟩
        · rw [hkeep, ← hji, List.insertIdx_succ_cons, hinsert]
          rfl
        · rw [hkeep, ← hkept]
          rfl

/-- The element taken out is the first with the property. -/
theorem eraseIdx_findIdx (p : α → Bool) {l : List α} {i : Nat} (h : l.findIdx? p = some i) :
    ∃ front x back, l = front ++ x :: back ∧ l[i]? = some x ∧ p x = true ∧
      l.eraseIdx i = front ++ back := by
  induction l generalizing i with
  | nil => cases h
  | cons x l ih =>
      rw [List.findIdx?_cons] at h
      split at h
      · rename_i hx
        cases h
        exact ⟨[], x, l, rfl, rfl, hx, rfl⟩
      · obtain ⟨j, hj, hji⟩ := Option.map_eq_some_iff.mp h
        obtain ⟨front, y, back, hl, hget, hy, herase⟩ := ih hj
        refine ⟨x :: front, y, back, congrArg (x :: ·) hl, ?_, hy, ?_⟩
        · rw [← hji, List.getElem?_cons_succ]
          exact hget
        · rw [← hji, List.eraseIdx_cons_succ, herase]
          rfl

/-- Two elements with one image are one element, where images are unique. -/
theorem eq_of_map_eq {β : Type} {f : α → β} {l : List α} (h : (l.map f).Nodup) {x y : α}
    (hx : x ∈ l) (hy : y ∈ l) (hxy : f x = f y) : x = y :=
  List.inj_on_of_nodup_map h hx hy hxy

end Replace
