/-!
# Chains of checks

A function that checks one thing after another and stops at the first failure is a chain of binds
and conditionals in `Except`. These rules take such a chain apart: it succeeds exactly when every
link does, with the value that the last link gives.

`bind_congr_ok` is the other direction: two chains with one beginning are equal if they are equal
wherever that beginning succeeds.
-/

namespace Checks

variable {ε α β : Type}

@[simp] theorem bind_eq_ok {x : Except ε α} {f : α → Except ε β} {b : β} :
    x >>= f = .ok b ↔ ∃ a, x = .ok a ∧ f a = .ok b := by
  cases x with
  | error e => simp [bind, Except.bind]
  | ok a => simp [bind, Except.bind]

/-- A check that returns nothing, in front of the rest of a chain. -/
@[simp high] theorem bind_unit_eq_ok {x : Except ε Unit} {f : Unit → Except ε β} {b : β} :
    x >>= f = .ok b ↔ x = .ok () ∧ f () = .ok b := by
  rw [bind_eq_ok]
  exact ⟨fun ⟨_, h⟩ => h, fun h => ⟨(), h⟩⟩

@[simp] theorem map_eq_ok {x : Except ε α} {f : α → β} {b : β} :
    f <$> x = .ok b ↔ ∃ a, x = .ok a ∧ f a = b := by
  cases x with
  | error e => simp [Functor.map, Except.map]
  | ok a => simp [Functor.map, Except.map]

@[simp high] theorem map_unit_eq_ok {x : Except ε Unit} {f : Unit → β} {b : β} :
    f <$> x = .ok b ↔ x = .ok () ∧ f () = b := by
  rw [map_eq_ok]
  exact ⟨fun ⟨_, h⟩ => h, fun h => ⟨(), h⟩⟩

theorem ok_bind (a : α) (f : α → Except ε β) : (.ok a >>= f) = f a := rfl

/-- What comes after a computation matters only where it succeeds. -/
theorem bind_congr_ok {x : Except ε α} {f g : α → Except ε β}
    (h : ∀ a, x = .ok a → f a = g a) : x >>= f = x >>= g := by
  cases x with
  | error e => rfl
  | ok a => exact h a rfl

@[simp] theorem pure_eq_ok {a b : α} : (pure a : Except ε α) = .ok b ↔ a = b := by
  simp [pure, Except.pure]

@[simp] theorem throw_ne_ok {e : ε} {a : α} : (throw e : Except ε α) ≠ .ok a := by
  simp [throw, throwThe, MonadExceptOf.throw]

@[simp] theorem throw_bind {e : ε} {f : α → Except ε β} :
    (throw e >>= f : Except ε β) = throw e := rfl

@[simp] theorem map_throw {e : ε} {f : α → β} :
    (f <$> (throw e : Except ε α)) = throw e := rfl

/-- A check in front of the rest of a chain. -/
@[simp] theorem check_eq_ok {c : Prop} [Decidable c] {e : ε} {f : Except ε α} {a : α} :
    (if c then throw e else f) = .ok a ↔ ¬c ∧ f = .ok a := by
  by_cases hc : c
  · simp [hc]
  · simp [hc]

/-- A check with the rest of the chain on its passing side. -/
@[simp] theorem passing_eq_ok {c : Prop} [Decidable c] {e : ε} {f : Except ε α} {a : α} :
    (if c then f else throw e) = .ok a ↔ c ∧ f = .ok a := by
  by_cases hc : c
  · simp [hc]
  · simp [hc]

end Checks
