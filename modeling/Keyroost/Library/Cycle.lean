import Mathlib.Data.List.Basic

/-!
# A list over and over

As many elements as are wanted of a list that starts again each time it ends (`Cycle.take`). Key
derivations fill a block with a salt in this way, and some hash a passphrase again and again.

`take_length_add` goes on after one whole round, and `take_of_le` is the case that needs less than
one; together they are the induction over rounds.
-/

namespace Cycle

variable {α : Type}

/-- From what is left of one pass, and then from pass after pass. -/
def takeFrom (xs : List α) : List α → Nat → List α
  | _, 0 => []
  | y :: ys, n + 1 => y :: takeFrom xs ys n
  | [], n + 1 =>
      match xs with
      | [] => []
      | x :: rest => x :: takeFrom (x :: rest) rest n

def take (xs : List α) (n : Nat) : List α := takeFrom xs xs n

/-- Whole copies. -/
def copies (k : Nat) (xs : List α) : List α := (List.replicate k xs).flatten

variable {xs : List α}

theorem copies_succ (k : Nat) (xs : List α) : copies (k + 1) xs = xs ++ copies k xs := by
  rw [copies, List.replicate_succ, List.flatten_cons, copies]

@[simp] theorem length_copies (k : Nat) (xs : List α) :
    (copies k xs).length = k * xs.length := by
  induction k with
  | zero => rw [Nat.zero_mul]; rfl
  | succ k ih => rw [copies_succ, List.length_append, ih, Nat.succ_mul, Nat.add_comm]

theorem copies_add (j k : Nat) (xs : List α) : copies (j + k) xs = copies j xs ++ copies k xs := by
  rw [copies, List.replicate_add, List.flatten_append]
  rfl

@[simp] theorem take_nil (n : Nat) : take ([] : List α) n = [] := by
  rcases n with _ | n
  · rfl
  · rfl

theorem takeFrom_eq (hxs : xs ≠ []) (ys : List α) {n k : Nat} (hk : n ≤ k) :
    takeFrom xs ys n = (ys ++ copies k xs).take n := by
  obtain ⟨x, rest, rfl⟩ := List.exists_cons_of_ne_nil hxs
  induction n generalizing ys k with
  | zero => rw [takeFrom, List.take_zero]
  | succ n ih =>
      rcases ys with _ | ⟨y, ys⟩
      · obtain ⟨k, rfl⟩ := Nat.exists_eq_add_of_lt (Nat.lt_of_lt_of_le (Nat.succ_pos n) hk)
        rw [Nat.zero_add] at hk ⊢
        rw [takeFrom, List.nil_append, copies_succ, List.cons_append, List.take_succ_cons,
          ih rest (Nat.le_of_succ_le_succ hk)]
      · rw [takeFrom, List.cons_append, List.take_succ_cons, ih ys (Nat.le_of_succ_le hk)]

theorem takeFrom_nil (hxs : xs ≠ []) (n : Nat) : takeFrom xs [] n = take xs n := by
  obtain ⟨x, rest, rfl⟩ := List.exists_cons_of_ne_nil hxs
  rcases n with _ | n
  · rfl
  · rfl

/-- What is taken is what copies put together start with, as long as they reach. -/
theorem take_eq (xs : List α) {n k : Nat} (hk : n ≤ k * xs.length) :
    take xs n = (copies k xs).take n := by
  by_cases hxs : xs = []
  · subst hxs
    rw [take_nil, List.length_nil, Nat.mul_zero] at *
    obtain rfl := Nat.le_zero.mp hk
    rfl
  · rw [← takeFrom_nil hxs, takeFrom_eq hxs [] (Nat.le_refl n), List.nil_append]
    rcases Nat.le_total n k with hle | hle
    · obtain ⟨j, rfl⟩ := Nat.exists_eq_add_of_le hle
      have hlen : n ≤ (copies n xs).length := by
        rw [length_copies]
        exact Nat.le_mul_of_pos_right n (List.length_pos_iff.mpr hxs)
      rw [copies_add, List.take_append_of_le_length hlen]
    · obtain ⟨j, rfl⟩ := Nat.exists_eq_add_of_le hle
      rw [copies_add, List.take_append_of_le_length (by rwa [length_copies])]

theorem length_take (hxs : xs ≠ []) (n : Nat) : (take xs n).length = n := by
  have hreach : n ≤ n * xs.length := Nat.le_mul_of_pos_right n (List.length_pos_iff.mpr hxs)
  rw [take_eq xs hreach, List.length_take, length_copies, Nat.min_eq_left hreach]

/-- A whole pass, and the rest as from the start. -/
theorem take_length_add (hxs : xs ≠ []) (n : Nat) :
    take xs (xs.length + n) = xs ++ take xs n := by
  have hreach : n ≤ n * xs.length := Nat.le_mul_of_pos_right n (List.length_pos_iff.mpr hxs)
  have hreach' : xs.length + n ≤ (n + 1) * xs.length := by
    rw [Nat.succ_mul]
    omega
  rw [take_eq xs hreach', take_eq xs hreach, copies_succ, List.take_length_add_append]

theorem take_of_le {n : Nat} (h : n ≤ xs.length) : take xs n = xs.take n := by
  rw [take_eq xs (k := 1) (by rwa [Nat.one_mul]), copies_succ, List.take_append_of_le_length h]

end Cycle
