import Mathlib.Data.Fin.SuccPred
import Mathlib.Order.Fin.Basic
import Mathlib.Data.List.Basic
import Mathlib.Order.Defs.LinearOrder

/-!
# The record in force at a time

Records in the order of their times, each in force from its own time until the next one's. The
record in force at a time is the last one that is not later, and the lemmas say what becomes of it
when records are added or when a time falls between two of them.
-/

namespace Timeline

variable {ρ : Type}

/-- The position of the last record that passes a test. -/
def rposition (p : ρ → Bool) : (rows : List ρ) → Option (Fin rows.length)
  | [] => none
  | r :: rows =>
      match rposition p rows with
      | some i => some i.succ
      | none => if p r then some 0 else none

theorem rposition_eq_none_iff {p : ρ → Bool} {rows : List ρ} :
    rposition p rows = none ↔ ∀ r ∈ rows, p r = false := by
  induction rows with
  | nil => simp [rposition]
  | cons r rows ih =>
      rw [List.forall_mem_cons, ← ih]
      cases hrest : rposition p rows with
      | none => cases hr : p r <;> simp [rposition, hrest, hr]
      | some i => simp [rposition, hrest]

theorem rposition_eq_some {p : ρ → Bool} {rows : List ρ} {i : Fin rows.length}
    (h : rposition p rows = some i) :
    p rows[i] = true ∧ ∀ j : Fin rows.length, i < j → p rows[j] = false := by
  induction rows with
  | nil => exact i.elim0
  | cons r rows ih =>
      cases hrest : rposition p rows with
      | none =>
          have hnone := rposition_eq_none_iff.mp hrest
          rw [rposition, hrest] at h
          obtain ⟨hr, hi⟩ : p r = true ∧ 0 = i := by simpa using h
          subst hi
          refine ⟨hr, fun j hj => ?_⟩
          obtain ⟨k, rfl⟩ := Fin.exists_succ_eq_of_ne_zero (Fin.pos_iff_ne_zero.mp hj)
          exact hnone _ (List.getElem_mem k.isLt)
      | some k =>
          obtain ⟨hk, hafter⟩ := ih hrest
          rw [rposition, hrest] at h
          obtain rfl : k.succ = i := by simpa using h
          refine ⟨hk, fun j hj => ?_⟩
          have hzero := Fin.pos_iff_ne_zero.mp (k.succ_pos.trans hj)
          obtain ⟨l, rfl⟩ := Fin.exists_succ_eq_of_ne_zero hzero
          exact hafter l (Fin.succ_lt_succ_iff.mp hj)

section Times

variable {V : Type} [LinearOrder V] {time : ρ → V} {rows : List ρ} {v w : V}

/-- The position of the record in force at a time. -/
def inForce (time : ρ → V) (v : V) (rows : List ρ) : Option (Fin rows.length) :=
  rposition (fun r => decide (time r ≤ v)) rows

/-- Every record is later than the ones before it. -/
def Ascending (time : ρ → V) (rows : List ρ) : Prop := rows.Pairwise fun a b => time a < time b

instance : Decidable (Ascending time rows) := inferInstanceAs (Decidable (List.Pairwise ..))

theorem inForce_eq_none_iff : inForce time v rows = none ↔ ∀ r ∈ rows, v < time r := by
  simp only [inForce, rposition_eq_none_iff, decide_eq_false_iff_not, not_le]

theorem inForce_eq_some {i : Fin rows.length} (h : inForce time v rows = some i) :
    time rows[i] ≤ v ∧ ∀ j : Fin rows.length, i < j → v < time rows[j] := by
  simpa only [decide_eq_true_eq, decide_eq_false_iff_not, not_le] using rposition_eq_some h

/-- Before the first record in force there is none earlier either. -/
theorem inForce_none_of_le (hvw : v ≤ w) (h : inForce time w rows = none) :
    inForce time v rows = none :=
  inForce_eq_none_iff.mpr fun r hr => hvw.trans_lt (inForce_eq_none_iff.mp h r hr)

/-- The record in force later is the one in force now, or one that came between. -/
theorem inForce_later {j : Fin rows.length} (hvw : v ≤ w) (h : inForce time w rows = some j) :
    inForce time v rows = some j ∨ v < time rows[j] := by
  rcases lt_or_ge v (time rows[j]) with hlt | hle
  · exact Or.inr hlt
  · obtain ⟨-, hafter⟩ := inForce_eq_some h
    left
    cases hnow : inForce time v rows with
    | none =>
        have hj := inForce_eq_none_iff.mp hnow rows[j] (List.getElem_mem j.isLt)
        exact absurd hj hle.not_gt
    | some i =>
        obtain ⟨hi, hbehind⟩ := inForce_eq_some hnow
        rcases lt_trichotomy i j with hij | rfl | hji
        · exact absurd (hbehind j hij) hle.not_gt
        · rfl
        · exact absurd (hi.trans hvw) (hafter i hji).not_ge

theorem Ascending.lt (h : Ascending time rows) {i j : Fin rows.length} (hij : i < j) :
    time rows[i] < time rows[j] :=
  List.pairwise_iff_getElem.mp h i j i.isLt j.isLt hij

theorem Ascending.lt_of_time (h : Ascending time rows) {i j : Fin rows.length}
    (hij : time rows[i] < time rows[j]) : i < j := by
  rcases lt_trichotomy i j with hlt | rfl | hgt
  · exact hlt
  · exact absurd hij (lt_irrefl _)
  · exact absurd hij (h.lt hgt).asymm

/-- At its own time a record is in force. -/
theorem Ascending.inForce_self (h : Ascending time rows) (i : Fin rows.length) :
    inForce time (time rows[i]) rows = some i := by
  cases hnow : inForce time (time rows[i]) rows with
  | none =>
      have hi := inForce_eq_none_iff.mp hnow rows[i] (List.getElem_mem i.isLt)
      exact absurd hi (lt_irrefl _)
  | some j =>
      obtain ⟨hj, hafter⟩ := inForce_eq_some hnow
      rcases lt_trichotomy i j with hij | rfl | hji
      · exact absurd (h.lt hij) hj.not_gt
      · rfl
      · exact absurd (hafter i hji) (lt_irrefl _)

/-- Where a record is still to come, the one in force is not the last. -/
theorem Ascending.not_last (h : Ascending time rows) {i j : Fin rows.length}
    (hforce : inForce time w rows = some j) (hcome : w < time rows[i]) :
    (j : Nat) + 1 ≠ rows.length := by
  obtain ⟨hj, -⟩ := inForce_eq_some hforce
  have hji : j < i := h.lt_of_time (hj.trans_lt hcome)
  have hlt : (j : Nat) < i := hji
  omega

/-- The first record after a time that passes a test. -/
def firstAfter (time : ρ → V) (v : V) (q : ρ → Bool) (rows : List ρ) : Option ρ :=
  rows.find? fun r => decide (v < time r) && q r

/-- It stands at a position of the list, and none between passes. -/
theorem Ascending.firstAfter_eq_some (h : Ascending time rows) {q : ρ → Bool} {l : ρ}
    (hfind : firstAfter time v q rows = some l) :
    v < time l ∧ q l = true ∧ (∃ i : Fin rows.length, rows[i] = l) ∧
      ∀ j : Fin rows.length, v < time rows[j] → time rows[j] < time l → q rows[j] = false := by
  obtain ⟨hl, i, hi, rfl, hfirst⟩ := List.find?_eq_some_iff_getElem.mp hfind
  obtain ⟨hafter, hq⟩ : v < time rows[i] ∧ q rows[i] = true := by simpa using hl
  refine ⟨hafter, hq, ⟨⟨i, hi⟩, rfl⟩, fun j hvj hji => ?_⟩
  have hlt : (j : Nat) < i := h.lt_of_time (j := ⟨i, hi⟩) hji
  have hj : (!(decide (v < time rows[j]) && q rows[j])) = true := hfirst j hlt
  simpa only [decide_eq_true hvj, Bool.true_and, Bool.not_eq_true'] using hj

theorem firstAfter_eq_none {q : ρ → Bool} (hfind : firstAfter time v q rows = none)
    (j : Fin rows.length) (hvj : v < time rows[j]) : q rows[j] = false := by
  have hj := List.find?_eq_none.mp hfind rows[j] (List.getElem_mem j.isLt)
  simpa only [decide_eq_true hvj, Bool.true_and, Bool.not_eq_true] using hj

/-- The first record that passes a test is no later than any that does. -/
theorem Ascending.find_le (h : Ascending time rows) {q : ρ → Bool} {l : ρ}
    (hfind : rows.find? q = some l) (i : Fin rows.length) (hi : q rows[i] = true) :
    time l ≤ time rows[i] := by
  obtain ⟨-, k, hk, rfl, hfirst⟩ := List.find?_eq_some_iff_getElem.mp hfind
  rcases Nat.lt_trichotomy k i with hki | rfl | hik
  · exact (h.lt (i := ⟨k, hk⟩) hki).le
  · exact le_rfl
  · have hnot : (!q rows[i]) = true := hfirst i hik
    rw [hi] at hnot
    exact Bool.noConfusion hnot

end Times

end Timeline
