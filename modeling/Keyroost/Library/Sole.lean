import Mathlib.Data.List.Nodup

/-!
# Questions that do not depend on the order of a list

The only element of a list, and the first element with a property that at most one element has. Both
are the same for every order of the list (`sole_perm`, `AtMostOne.find?_perm`): a program that asks
no other questions of a list gives the same answers whatever order it was listed in.
-/

namespace Sole

variable {α : Type}

/-- The slice pattern `[only]`. -/
def sole : List α → Option α
  | [a] => some a
  | _ => none

theorem sole_eq_some {l : List α} {a : α} : sole l = some a ↔ l = [a] := by
  constructor
  · intro h
    match l, h with
    | [b], h =>
        obtain rfl : b = a := Option.some.inj h
        rfl
  · rintro rfl
    rfl

theorem sole_perm {l l' : List α} (h : l.Perm l') : sole l = sole l' := by
  apply Option.ext
  intro a
  rw [sole_eq_some, sole_eq_some]
  constructor
  · rintro rfl
    exact List.perm_singleton.mp h.symm
  · rintro rfl
    exact List.perm_singleton.mp h

theorem sole_filter {p : α → Bool} {l : List α} (hl : l.Nodup) {a : α} :
    sole (l.filter p) = some a ↔ (a ∈ l ∧ p a = true) ∧ ∀ b ∈ l, p b = true → b = a := by
  rw [sole_eq_some]
  constructor
  · intro h
    have hmem : ∀ b, b ∈ l ∧ p b = true ↔ b = a := by
      intro b
      rw [← List.mem_filter, h, List.mem_singleton]
    exact ⟨(hmem a).mpr rfl, fun b hb hpb => (hmem b).mp ⟨hb, hpb⟩⟩
  · rintro ⟨ha, honly⟩
    apply List.perm_singleton.mp
    rw [List.perm_ext_iff_of_nodup (hl.filter p) (List.nodup_singleton a)]
    intro b
    rw [List.mem_filter, List.mem_singleton]
    constructor
    · rintro ⟨hb, hpb⟩
      exact honly b hb hpb
    · rintro rfl
      exact ha

/-- An element with the property is counted alone. -/
theorem length_filter_eq_one {p : α → Bool} {l : List α} (hl : l.Nodup) {a : α} (ha : a ∈ l)
    (hpa : p a = true) : (l.filter p).length = 1 ↔ ∀ b ∈ l, p b = true → b = a := by
  constructor
  · intro hlen
    obtain ⟨c, hc⟩ := List.length_eq_one_iff.mp hlen
    have hac : a = c := List.mem_singleton.mp (hc ▸ List.mem_filter.mpr ⟨ha, hpa⟩)
    intro b hb hpb
    have hbc : b = c := List.mem_singleton.mp (hc ▸ List.mem_filter.mpr ⟨hb, hpb⟩)
    exact hbc.trans hac.symm
  · intro honly
    rw [sole_eq_some.mp ((sole_filter hl).mpr ⟨⟨ha, hpa⟩, honly⟩)]
    rfl

/-- At most one element has the property. -/
def AtMostOne (p : α → Bool) (l : List α) : Prop :=
  ∀ a ∈ l, ∀ b ∈ l, p a = true → p b = true → a = b

theorem AtMostOne.find? {p : α → Bool} {l : List α} (h : AtMostOne p l) {a : α} :
    l.find? p = some a ↔ a ∈ l ∧ p a = true := by
  constructor
  · intro hfind
    exact ⟨List.mem_of_find?_eq_some hfind, List.find?_some hfind⟩
  · rintro ⟨ha, hpa⟩
    rcases hfind : l.find? p with _ | b
    · exact absurd hpa (List.find?_eq_none.mp hfind a ha)
    · rw [h b (List.mem_of_find?_eq_some hfind) a ha (List.find?_some hfind) hpa]

theorem AtMostOne.find?_perm {p : α → Bool} {l l' : List α} (h : AtMostOne p l)
    (hperm : l'.Perm l) : l'.find? p = l.find? p := by
  have h' : AtMostOne p l' := fun a ha b hb =>
    h a (hperm.mem_iff.mp ha) b (hperm.mem_iff.mp hb)
  apply Option.ext
  intro a
  rw [h.find?, h'.find?, hperm.mem_iff]

end Sole
