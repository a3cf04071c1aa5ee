import Keyroost.Library.Session

/-!
# Questions that are programs themselves

A program written for one device runs on another when each of its questions is answered by a
program there, which may keep a memory of its own (`handle`). Layers of a driver are put on top of
each other in this way: above, a command is one question; below, it is a program of exchanges.

What was proved of the program holds of it there, if every such program does to the device below
what the question was taken to do above. `Only` bounds what the handled program asks below, from
what it asks above and what each handler asks.

A device that only watches turns a whole conversation into one state: `always_watch` says that this
state is a function of the questions and answers.
-/

namespace Dialogue

variable {Q Q' : Type} {A : Q → Type} {A' : Q' → Type} {M R S σ τ : Type}

open Session (Ensures ensures_bind ensures_pure)

/-! ### Handlers -/

/-- The program, with a program in the place of each question. -/
def handle (h : (q : Q) → Session A' M (A q)) : Dialogue A R → Session A' M R
  | .done r => pure r
  | .ask q next => h q >>= fun a => (next a).handle h

section Handlers

variable {h : (q : Q) → Session A' M (A q)} {D : Device A σ} {D' : Device A' τ}
  {p : Dialogue A R} {m : M} {t : τ}

/-- The answering programs do to the device and the memory below what the device that the
program was written for may do. -/
def Simulates (D : Device A σ) (D' : Device A' τ) (rel : σ → M → τ → Prop)
    (h : (q : Q) → Session A' M (A q)) : Prop :=
  ∀ q s m t, rel s m t → Ensures D' (fun a m' t' => ∃ s', D s q a s' ∧ rel s' m' t') (h q) m t

theorem Always.handle {rel : σ → M → τ → Prop} (hsim : Simulates D D' rel h)
    {Post : R → σ → Prop} {s : σ} (hrel : rel s m t) (hp : p.Always D Post s) :
    Ensures D' (fun r m' t' => ∃ s', Post r s' ∧ rel s' m' t') (p.handle h) m t := by
  induction p generalizing s m t with
  | done r => exact ensures_pure ⟨s, hp, hrel⟩
  | ask q next ih =>
      refine ensures_bind ((hsim q s m t hrel).mono ?_)
      rintro a m' t' ⟨s', hstep, hrel'⟩
      exact ih a hrel' (hp a s' hstep)

/-- What the answers to the questions that are asked keep, the program keeps. -/
theorem Asks.ensures {P : Q → Prop} {J : M → τ → Prop} (hp : p.Asks P)
    (hh : ∀ q m t, P q → J m t → Ensures D' (fun _ m' t' => J m' t') (h q) m t)
    (hJ : J m t) : Ensures D' (fun _ m' t' => J m' t') (p.handle h) m t := by
  induction p generalizing m t with
  | done r => exact ensures_pure hJ
  | ask q next ih =>
      exact ensures_bind ((hh q m t hp.1 hJ).mono fun a m' t' hJ' => ih a (hp.2 a) hJ')

end Handlers

/-! ### What a program with a memory asks -/

theorem asks_of_forall {P : Q → Prop} (h : ∀ q, P q) (p : Dialogue A R) : p.Asks P := by
  induction p with
  | done r => exact trivial
  | ask q next ih => exact ⟨h q, ih⟩

/-- Every question the program may come to ask, whatever it remembers. -/
def Only (P : Q → Prop) (p : Session A M R) : Prop := ∀ m, (p m).Asks P

namespace Only

variable {P : Q → Prop}

theorem pure {r : R} : Only P (Pure.pure r : Session A M R) := fun _ => trivial

theorem ask {q : Q} (h : P q) : Only P (Session.ask q : Session A M (A q)) :=
  fun _ => ⟨h, fun _ => trivial⟩

theorem get : Only P (MonadState.get : Session A M M) := fun _ => trivial

theorem bind {p : Session A M R} {f : R → Session A M S} (hp : Only P p)
    (hf : ∀ a, Only P (f a)) : Only P (p >>= f) := fun m => Asks.bind (hp m) fun x => hf x.1 x.2

theorem andThen {ε : Type} {p : Session A M (Except ε R)} {f : R → Session A M (Except ε S)}
    (hp : Only P p) (hf : ∀ a, Only P (f a)) : Only P (Session.andThen p f) := by
  refine hp.bind ?_
  rintro (e | a)
  · exact .pure
  · exact hf a

/-- The answers to the questions that are asked. -/
theorem handle {P : Q' → Prop} {h : (q : Q) → Session A' M (A q)} {p : Dialogue A R}
    (hp : p.Asks fun q => Only P (h q)) : Only P (p.handle h) := by
  induction p with
  | done r => exact .pure
  | ask q next ih => exact .bind hp.1 fun a => ih a (hp.2 a)

end Only

/-! ### Watching -/

/-- A device that answers anything, and keeps what it makes of the conversation so far. -/
def watch (see : σ → Asked A → σ) : Device A σ := fun s q a t => t = see s ⟨q, a⟩

theorem always_watch {see : σ → Asked A → σ} {Post : R → σ → Prop} {p : Dialogue A R} {s : σ}
    (h : p.Always (watch see) Post s) {log : List (Asked A)} {r : R} (hrun : Says p log r) :
    Post r (log.foldl see s) := by
  induction p generalizing s log with
  | done r' =>
      obtain ⟨rfl, rfl⟩ := says_done.mp hrun
      exact h
  | ask q next ih =>
      obtain ⟨a, rest, rfl, hnext⟩ := says_ask.mp hrun
      exact ih a (h a _ rfl) hnext

end Dialogue
