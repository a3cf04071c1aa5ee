import Mathlib.Data.List.Basic

/-!
# Keeping the elements at some positions

`sift keep` keeps the elements at the positions `keep` chooses, in order; `rank keep` says at which
position of the result a kept element is found, and `getElem?_sift` finds it there.

A filter and the removal of one element are cases of it (`filter_eq_sift`, `eraseIdx_eq_sift`), so
positions can be followed through any number of such steps.
-/

namespace Sift

variable {α : Type}

/-- The elements at the positions `keep` chooses. -/
def sift (keep : Nat → Bool) : List α → List α
  | [] => []
  | x :: xs =>
      if keep 0 then x :: sift (fun i => keep (i + 1)) xs else sift (fun i => keep (i + 1)) xs

/-- How many positions before `pos` are kept. -/
def rank (keep : Nat → Bool) : Nat → Nat
  | 0 => 0
  | pos + 1 => rank keep pos + if keep pos then 1 else 0

theorem rank_succ_eq (keep : Nat → Bool) (pos : Nat) :
    rank keep (pos + 1) = (if keep 0 then 1 else 0) + rank (fun i => keep (i + 1)) pos := by
  induction pos with
  | zero =>
      rw [rank, rank, rank]
      omega
  | succ pos ih =>
      rw [rank, ih, rank]
      omega

theorem rank_le_rank (keep : Nat → Bool) {p q : Nat} (h : p ≤ q) : rank keep p ≤ rank keep q := by
  induction h with
  | refl => exact Nat.le_refl _
  | step _ ih => exact Nat.le_trans ih (Nat.le_add_right _ _)

theorem rank_congr {keep keep' : Nat → Bool} {pos : Nat} (h : ∀ i < pos, keep i = keep' i) :
    rank keep pos = rank keep' pos := by
  induction pos with
  | zero => rfl
  | succ pos ih =>
      rw [rank, rank, ih fun i hi => h i (Nat.lt_succ_of_lt hi), h pos (Nat.lt_succ_self pos)]

/-- When nothing is left out, every element stays where it is. -/
theorem rank_all (pos : Nat) : rank (fun _ => true) pos = pos := by
  induction pos with
  | zero => rfl
  | succ pos ih => rw [rank, ih, if_pos rfl]

/-- Kept positions stay in their order. -/
theorem rank_lt_rank {keep : Nat → Bool} {p q : Nat} (hp : keep p = true) (h : p < q) :
    rank keep p < rank keep q := by
  have hnext : rank keep (p + 1) = rank keep p + 1 := by rw [rank, if_pos hp]
  have hle := rank_le_rank keep h
  rw [Nat.succ_eq_add_one, hnext] at hle
  exact hle

/-- A kept element is found at its rank. -/
theorem getElem?_sift {keep : Nat → Bool} {pos : Nat} (hpos : keep pos = true) (l : List α) :
    (sift keep l)[rank keep pos]? = l[pos]? := by
  induction l generalizing keep pos with
  | nil => simp [sift]
  | cons x xs ih =>
      cases pos with
      | zero => simp [sift, rank, hpos]
      | succ pos =>
          have hrest := @ih (fun i => keep (i + 1)) _ hpos
          rw [rank_succ_eq, sift]
          cases hfirst : keep 0 with
          | true =>
              rw [if_pos rfl, if_pos rfl, Nat.add_comm, List.getElem?_cons_succ, hrest,
                List.getElem?_cons_succ]
          | false => simpa using hrest

/-- A filter keeps the positions whose elements pass it. -/
theorem filter_eq_sift (p : α → Bool) (l : List α) :
    l.filter p = sift (fun i => l[i]?.any p) l := by
  induction l with
  | nil => rfl
  | cons x xs ih =>
      rw [List.filter_cons, sift, ih]
      simp

/-- Erasing one position keeps the others. -/
theorem eraseIdx_eq_sift (l : List α) (k : Nat) : l.eraseIdx k = sift (fun i => i != k) l := by
  induction l generalizing k with
  | nil => rfl
  | cons x xs ih =>
      have hall (ys : List α) : sift (fun _ => true) ys = ys := by
        induction ys with
        | nil => rfl
        | cons y ys ih => rw [sift, if_pos rfl, ih]
      cases k with
      | zero => simp [sift, hall]
      | succ k => simp [sift, ih k]

end Sift
