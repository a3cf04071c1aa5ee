/-!
# Two computations side by side

Two functions read the same input; the second may refuse with an error of its own where the first
goes on. `Sim R Out e` relates their outcomes: results related by `R`, the same error, or the error
`e` on the second side while the first side's result, if there is one, satisfies `Out`.

The rules follow the two functions through a chain of binds. Where both go on with the same check,
`bind_same` needs nothing to be shown.
-/

/-- The outcomes of a function and of one that may also stop with `e`. Where the second stops so, a
value of the first is one of those in `Out`. -/
inductive Sim {ε α β : Type} (R : α → β → Prop) (Out : α → Prop) (e : ε) :
    Except ε α → Except ε β → Prop
  | ok {a : α} {b : β} : R a b → Sim R Out e (.ok a) (.ok b)
  | error (why : ε) : Sim R Out e (.error why) (.error why)
  | out {x : Except ε α} : (∀ a, x = .ok a → Out a) → Sim R Out e x (.error e)

namespace Sim

variable {ε α β α' β' : Type} {R : α → β → Prop} {Out : α → Prop} {e : ε}
  {R' : α' → β' → Prop} {Out' : α' → Prop}

/-- Going on after related outcomes. What follows on the first side must keep
`Out`. -/
theorem bind {x : Except ε α} {y : Except ε β} {f : α → Except ε α'} {g : β → Except ε β'}
    (h : Sim R Out e x y) (hnext : ∀ a b, R a b → Sim R' Out' e (f a) (g b))
    (hout : ∀ a a', Out a → f a = .ok a' → Out' a') : Sim R' Out' e (x >>= f) (y >>= g) := by
  cases h with
  | ok hrel => exact hnext _ _ hrel
  | error why => exact .error why
  | out hx =>
      refine .out fun a' ha' => ?_
      cases x with
      | error why => cases ha'
      | ok a => exact hout a a' (hx a rfl) ha'

/-- Going on after a step that both sides share. -/
theorem bind_same {x : Except ε α} {f : α → Except ε α'} {g : α → Except ε β'}
    (hnext : ∀ a, Sim R' Out' e (f a) (g a)) : Sim R' Out' e (x >>= f) (x >>= g) := by
  cases x with
  | error why => exact .error why
  | ok a => exact hnext a

theorem map {x : Except ε α} {y : Except ε β} {f : α → α'} {g : β → β'}
    (h : Sim R Out e x y) (hrel : ∀ a b, R a b → R' (f a) (g b))
    (hout : ∀ a, Out a → Out' (f a)) : Sim R' Out' e (f <$> x) (g <$> y) := by
  cases h with
  | ok h => exact .ok (hrel _ _ h)
  | error why => exact .error why
  | out hx =>
      refine .out fun a' ha' => ?_
      cases x with
      | error why => cases ha'
      | ok a =>
          obtain rfl := Except.ok.inj ha'
          exact hout a (hx a rfl)

end Sim
