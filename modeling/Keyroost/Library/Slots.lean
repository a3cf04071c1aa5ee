import Mathlib.Data.List.Nodup

/-!
# Results filled in turn by turn

A vector of results beside the items they are for, with an empty slot for an item that has none yet,
and a loop that takes the items with their positions. `turns_rule` is the induction over that loop:
what holds of the vector before a turn and what the turn does to one slot give what holds after the
last.
-/

namespace Slots

variable {α β σ : Type}

/-- The result at a position. -/
def slot (bound : List (Option β)) (i : Nat) : Option β := (bound[i]?).join

@[simp] theorem slot_replicate (n i : Nat) :
    slot (List.replicate n (none : Option β)) i = none := by
  rw [slot, List.getElem?_replicate]
  split <;> rfl

theorem slot_set {bound : List (Option β)} {i : Nat} (hi : i < bound.length) (b : Option β)
    (k : Nat) : slot (bound.set i b) k = if k = i then b else slot bound k := by
  rw [slot, List.getElem?_set]
  by_cases hik : i = k
  · subst hik
    rw [if_pos rfl, if_pos rfl, if_pos hi]
    rfl
  · rw [if_neg hik, if_neg (Ne.symm hik)]
    rfl

/-- The slots are the results. -/
theorem getElem?_slot {bound : List (Option β)} {i : Nat} (hi : i < bound.length) :
    bound[i]? = some (slot bound i) := by
  rw [slot, List.getElem?_eq_getElem hi]
  rfl

/-! ### Loops over positions -/

/-- `for (i, item) in items.iter().enumerate()`. -/
def turns (turn : σ → Nat → α → σ) (s : σ) (items : List α) : σ :=
  items.zipIdx.foldl (fun s e => turn s e.2 e.1) s

theorem turns_from {turn : σ → Nat → α → σ} (Inv : Nat → σ → Prop) {items : List α} {n : Nat}
    (hturn : ∀ i a s, items[i]? = some a → Inv (n + i) s → Inv (n + i + 1) (turn s (n + i) a))
    {s : σ} (hs : Inv n s) :
    Inv (n + items.length) ((items.zipIdx n).foldl (fun s e => turn s e.2 e.1) s) := by
  induction items generalizing n s with
  | nil => exact hs
  | cons a items ih =>
      rw [List.zipIdx_cons, List.foldl_cons, List.length_cons, Nat.add_comm items.length,
        ← Nat.add_assoc]
      refine ih ?_ (hturn 0 a s rfl hs)
      intro i b t hb ht
      have hnext := hturn (i + 1) b t hb (by rwa [Nat.add_comm i, ← Nat.add_assoc])
      rwa [Nat.add_comm i, ← Nat.add_assoc] at hnext

/-- What every turn carries on to the next position holds past the last. -/
theorem turns_rule {turn : σ → Nat → α → σ} (Inv : Nat → σ → Prop) {items : List α}
    (hturn : ∀ i a s, items[i]? = some a → Inv i s → Inv (i + 1) (turn s i a)) {s : σ}
    (hs : Inv 0 s) : Inv items.length (turns turn s items) := by
  have h : Inv (0 + items.length) (turns turn s items) :=
    turns_from Inv (by simpa only [Nat.zero_add] using hturn) hs
  rwa [Nat.zero_add] at h

theorem nodup_zipIdx (l : List α) (n : Nat) : (l.zipIdx n).Nodup := by
  apply List.Nodup.of_map Prod.snd
  rw [List.zipIdx_map_snd]
  exact List.nodup_range'

end Slots
