/-!
# Programs on a budget

A program that may fail, over a state that a failure keeps: what was spent before an error stays
spent. This is the shape of a parser that counts its work and gives up at a limit.

`Keeps` carries a property of the state through a program, whether it fails or not. A second section
relates a program to a copy of it with more in its state, so that work can be counted in a copy
without changing what is proved about the original.
-/

def Metered (σ ε α : Type) : Type := σ → Except ε α × σ

namespace Metered

variable {σ ε α β : Type}

protected def bind (x : Metered σ ε α) (f : α → Metered σ ε β) : Metered σ ε β := fun s =>
  match x s with
  | (.error e, t) => (.error e, t)
  | (.ok a, t) => f a t

instance : Monad (Metered σ ε) where
  pure a := fun s => (.ok a, s)
  bind := Metered.bind

/-- A computation that spends nothing. -/
def lift (x : Except ε α) : Metered σ ε α := fun s => (x, s)

instance : MonadLift (Except ε) (Metered σ ε) := ⟨lift⟩

/-- A program, and another one where the first one's outcome asks for it. -/
def orElseIf (x : Metered σ ε α) (retries : Except ε α → Bool) (next : Metered σ ε α) :
    Metered σ ε α := fun s =>
  let (result, t) := x s
  if retries result then next t else (result, t)

/-- The program, started from some budget, may end with this value. -/
def Yields (x : Metered σ ε α) (a : α) : Prop := ∃ s t, x s = (.ok a, t)

theorem yields_of_eq {x : Metered σ ε α} {a : α} {s t : σ} (h : x s = (.ok a, t)) :
    x.Yields a := ⟨s, t, h⟩

theorem bind_eq_ok {x : Metered σ ε α} {f : α → Metered σ ε β} {b : β} {s u : σ} :
    (x >>= f) s = (.ok b, u) ↔ ∃ a t, x s = (.ok a, t) ∧ f a t = (.ok b, u) := by
  show Metered.bind x f s = _ ↔ _
  unfold Metered.bind
  rcases x s with ⟨e | a, t⟩
  · constructor
    · intro h
      cases h
    · rintro ⟨_, _, h, -⟩
      cases h
  · constructor
    · exact fun h => ⟨a, t, rfl, h⟩
    · rintro ⟨_, _, h, hf⟩
      cases h
      exact hf

theorem pure_eq_ok {a b : α} {s t : σ} :
    (pure a : Metered σ ε α) s = (.ok b, t) ↔ a = b ∧ s = t := by
  constructor
  · intro h
    cases h
    exact ⟨rfl, rfl⟩
  · rintro ⟨rfl, rfl⟩
    rfl

theorem lift_eq_ok {x : Except ε α} {a : α} {s t : σ} :
    lift x s = (.ok a, t) ↔ x = .ok a ∧ s = t := by
  constructor
  · intro h
    cases h
    exact ⟨rfl, rfl⟩
  · rintro ⟨rfl, rfl⟩
    rfl

theorem orElseIf_eq_ok {x next : Metered σ ε α} {retries : Except ε α → Bool} {a : α} {s u : σ}
    (h : orElseIf x retries next s = (.ok a, u)) :
    x s = (.ok a, u) ∨ ∃ t, next t = (.ok a, u) := by
  unfold orElseIf at h
  rcases hx : x s with ⟨result, t⟩
  rw [hx] at h
  dsimp only at h
  split at h
  · exact .inr ⟨t, h⟩
  · exact .inl h

/-! ### What a program keeps -/

/-- Whatever the outcome, the state still satisfies `J`. -/
def Keeps (J : σ → Prop) (x : Metered σ ε α) : Prop := ∀ s, J s → J (x s).2

namespace Keeps

variable {J : σ → Prop}

theorem pure (a : α) : Keeps J (Pure.pure a : Metered σ ε α) := fun _ h => h

theorem lift (x : Except ε α) : Keeps J (Metered.lift x : Metered σ ε α) := fun _ h => h

theorem bind {x : Metered σ ε α} {f : α → Metered σ ε β} (hx : Keeps J x)
    (hf : ∀ a, Keeps J (f a)) : Keeps J (x >>= f) := by
  intro s hs
  have ht := hx s hs
  show J (Metered.bind x f s).2
  rw [Metered.bind]
  rcases hxs : x s with ⟨e | a, t⟩
  · rw [hxs] at ht
    exact ht
  · rw [hxs] at ht
    exact hf a t ht

/-- A value that was computed without the state. -/
theorem lift_bind {x : Except ε α} {f : α → Metered σ ε β}
    (hf : ∀ a, x = .ok a → Keeps J (f a)) : Keeps J (Metered.lift x >>= f) := by
  intro s hs
  rcases x with e | a
  · exact hs
  · exact hf a rfl s hs

theorem orElseIf {x next : Metered σ ε α} {retries : Except ε α → Bool} (hx : Keeps J x)
    (hnext : Keeps J next) : Keeps J (orElseIf x retries next) := by
  intro s hs
  have ht := hx s hs
  rw [Metered.orElseIf]
  dsimp only
  split
  · exact hnext _ ht
  · exact ht

end Keeps

/-! ### A copy with more in its state -/

/-- A program over a larger state does what another one does over a part of it. -/
def Extends {τ : Type} (x : Metered (σ × τ) ε α) (y : Metered σ ε α) : Prop :=
  ∀ s, ((x s).1, (x s).2.1) = y s.1

namespace Extends

variable {τ : Type}

theorem pure (a : α) : Extends (Pure.pure a : Metered (σ × τ) ε α) (Pure.pure a) := fun _ => rfl

theorem lift (x : Except ε α) :
    Extends (Metered.lift x : Metered (σ × τ) ε α) (Metered.lift x) := fun _ => rfl

theorem bind {x : Metered (σ × τ) ε α} {y : Metered σ ε α} {f : α → Metered (σ × τ) ε β}
    {g : α → Metered σ ε β} (hx : Extends x y) (hf : ∀ a, Extends (f a) (g a)) :
    Extends (x >>= f) (y >>= g) := by
  intro s
  have hs := hx s
  show ((Metered.bind x f s).1, (Metered.bind x f s).2.1) = Metered.bind y g s.1
  rw [Metered.bind, Metered.bind, ← hs]
  rcases x s with ⟨e | a, t⟩
  · rfl
  · exact hf a t

theorem orElseIf {x next : Metered (σ × τ) ε α} {y next' : Metered σ ε α}
    {retries : Except ε α → Bool} (hx : Extends x y) (hnext : Extends next next') :
    Extends (orElseIf x retries next) (orElseIf y retries next') := by
  intro s
  have hs := hx s
  rw [Metered.orElseIf, Metered.orElseIf, ← hs]
  dsimp only
  split
  · exact hnext _
  · rfl

end Extends

end Metered
