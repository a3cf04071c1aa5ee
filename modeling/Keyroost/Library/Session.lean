import Keyroost.Library.Dialogue

/-!
# Programs with a memory that talk to a device

A program that keeps a state of its own between its questions, over `Dialogue`. Objects with methods
that send commands have this shape: the memory is what the object caches, the device is what is
really there.

`Ensures` says what holds of the result, of the memory and of the device at the end of every
conversation, and has a rule for each way of putting programs together: `>>=`, `andThen`, a
question, reading and writing the memory. `Ensures.and` joins two facts about one program, and
`Keeps` is an invariant between memory and device, carried through a program by the same rules.
-/

abbrev Session {Q : Type} (A : Q → Type) (M : Type) : Type → Type := StateT M (Dialogue A)

namespace Session

variable {Q : Type} {A : Q → Type} {M R S σ : Type} {D : Dialogue.Device A σ}

/-- One question. The memory is left as it is. -/
def ask (q : Q) : Session A M (A q) := fun m => .ask q fun a => .done (a, m)

def Ensures (D : Dialogue.Device A σ) (Post : R → M → σ → Prop) (p : Session A M R) (m : M)
    (s : σ) : Prop :=
  (p m).Always D (fun r t => Post r.1 r.2 t) s

variable {Post Post' : R → M → σ → Prop} {p : Session A M R} {m : M} {s : σ}

theorem Ensures.mono (h : Ensures D Post p m s) (hpost : ∀ r n t, Post r n t → Post' r n t) :
    Ensures D Post' p m s := Dialogue.Always.mono h fun r t => hpost r.1 r.2 t

theorem Ensures.and (h : Ensures D Post p m s) (h' : Ensures D Post' p m s) :
    Ensures D (fun r n t => Post r n t ∧ Post' r n t) p m s := Dialogue.Always.and h h'

theorem ensures_pure {r : R} (h : Post r m s) : Ensures D Post (pure r) m s := h

/-- One program after the other. -/
theorem ensures_bind {f : R → Session A M S} {Post : S → M → σ → Prop}
    (h : Ensures D (fun r n t => Ensures D Post (f r) n t) p m s) :
    Ensures D Post (p >>= f) m s := Dialogue.Always.bind h

theorem ensures_get {Post : M → M → σ → Prop} (h : Post m m s) :
    Ensures D Post (get : Session A M M) m s := h

theorem ensures_modify {f : M → M} {Post : PUnit → M → σ → Prop} (h : Post ⟨⟩ (f m) s) :
    Ensures D Post (modify f : Session A M PUnit) m s := h

theorem ensures_set {n : M} {Post : PUnit → M → σ → Prop} (h : Post ⟨⟩ n s) :
    Ensures D Post (set n : Session A M PUnit) m s := h

theorem ensures_ask {q : Q} {Post : A q → M → σ → Prop} (h : ∀ a t, D s q a t → Post a m t) :
    Ensures D Post (ask q) m s := h

/-- A device that answers only as another one may. -/
theorem Ensures.of_device {D' : Dialogue.Device A σ} (hD : ∀ s q a t, D' s q a t → D s q a t)
    (h : Ensures D Post p m s) : Ensures D' Post p m s := by
  have hall : ∀ (p : Dialogue A (R × M)) (s : σ), p.Always D (fun r t => Post r.1 r.2 t) s →
      p.Always D' (fun r t => Post r.1 r.2 t) s := by
    intro p
    induction p with
    | done r => exact fun _ h => h
    | ask q next ih => exact fun s h a t hstep => ih a t (h a t (hD s q a t hstep))
  exact hall (p m) s h

/-- What the end of every conversation satisfies, the end of this one does. -/
theorem Ensures.of_runs (h : Ensures D Post p m s) {log : List (Dialogue.Asked A)} {r : R} {n : M}
    {t : σ} (hrun : Dialogue.Runs D s (p m) log (r, n) t) : Post r n t :=
  Dialogue.always_iff.mp h log (r, n) t hrun

/-! ### Programs that may fail -/

/-- Go on with the value of a program that may report an error. -/
def andThen {ε : Type} (p : Session A M (Except ε R)) (f : R → Session A M (Except ε S)) :
    Session A M (Except ε S) := do
  match ← p with
  | .error e => return .error e
  | .ok a => f a

theorem ensures_andThen {ε : Type} {p : Session A M (Except ε R)}
    {f : R → Session A M (Except ε S)} {Post : Except ε S → M → σ → Prop}
    (h : Ensures D (fun r n t => (∀ e, r = .error e → Post (.error e) n t) ∧
      ∀ a, r = .ok a → Ensures D Post (f a) n t) p m s) : Ensures D Post (andThen p f) m s := by
  refine ensures_bind (h.mono ?_)
  rintro (e | a) n t ⟨herror, hok⟩
  · exact herror e rfl
  · exact hok a rfl

/-- Nothing failed: only what follows is left. -/
theorem ok_andThen {ε : Type} {P : ε → Prop} {P' : R → Prop} {a : R} (h : P' a) :
    (∀ e, (.ok a : Except ε R) = .error e → P e) ∧ ∀ b, (.ok a : Except ε R) = .ok b → P' b := by
  constructor
  · intro e heq
    cases heq
  · intro b heq
    cases heq
    exact h

/-- What every answer to a question that the program may ask keeps holds at the end. -/
theorem always_of_asks {P : Q → Prop} {J : σ → Prop} {p : Dialogue A R} (hp : p.Asks P)
    (hstep : ∀ s q a t, P q → D s q a t → J s → J t) {s : σ} (hs : J s) :
    p.Always D (fun _ t => J t) s := by
  induction p generalizing s with
  | done r => exact hs
  | ask q next ih => exact fun a t h => ih a (hp.2 a) (hstep s q a t hp.1 h hs)

/-! ### One end of a program

`Ensures` holds of a program that no answer lets come to an end; `Reaches` says that this one does. -/

/-- Some conversation ends with this result, memory and state. -/
def Reaches (D : Dialogue.Device A σ) (p : Session A M R) (m : M) (s : σ) (r : R) (n : M) (t : σ) :
    Prop := ∃ log, Dialogue.Runs D s (p m) log (r, n) t

theorem reaches_pure {r : R} : Reaches D (pure r) m s r m s := ⟨[], .done⟩

theorem reaches_ask {q : Q} {a : A q} {t : σ} (h : D s q a t) : Reaches D (ask q) m s a m t :=
  ⟨[⟨q, a⟩], .ask h .done⟩

theorem reaches_bind {f : R → Session A M S} {a : R} {n k : M} {t u : σ} {r : S}
    (h : Reaches D p m s a n t) (h' : Reaches D (f a) n t r k u) :
    Reaches D (p >>= f) m s r k u := by
  obtain ⟨first, hfirst⟩ := h
  obtain ⟨rest, hrest⟩ := h'
  exact ⟨first ++ rest, Dialogue.runs_bind.mpr ⟨first, (a, n), t, rest, rfl, hfirst, hrest⟩⟩

theorem reaches_andThen {ε : Type} {p : Session A M (Except ε R)}
    {f : R → Session A M (Except ε S)} {a : R} {n k : M} {t u : σ} {r : Except ε S}
    (h : Reaches D p m s (.ok a) n t) (h' : Reaches D (f a) n t r k u) :
    Reaches D (andThen p f) m s r k u := reaches_bind h h'

theorem Ensures.of_reaches (h : Ensures D Post p m s) {r : R} {n : M} {t : σ}
    (hreaches : Reaches D p m s r n t) : Post r n t := hreaches.elim fun _ hrun => h.of_runs hrun

/-! ### Conversations -/

theorem says_pure {r r' : R} {n : M} {log : List (Dialogue.Asked A)} :
    Dialogue.Says ((pure r : Session A M R) m) log (r', n) ↔ log = [] ∧ r' = r ∧ n = m := by
  refine Dialogue.says_done.trans (and_congr_right fun _ => ?_)
  rw [Prod.mk.injEq]

theorem says_ask {q : Q} {a : A q} {n : M} {log : List (Dialogue.Asked A)} :
    Dialogue.Says ((ask q : Session A M (A q)) m) log (a, n) ↔ log = [⟨q, a⟩] ∧ n = m := by
  refine Dialogue.says_ask.trans ?_
  constructor
  · rintro ⟨b, rest, rfl, hrest⟩
    obtain ⟨rfl, hpair⟩ := Dialogue.says_done.mp hrest
    obtain ⟨rfl, rfl⟩ := Prod.mk.inj hpair
    exact ⟨rfl, rfl⟩
  · rintro ⟨rfl, rfl⟩
    exact ⟨a, [], rfl, .done⟩

theorem says_bind {f : R → Session A M S} {r : S} {k : M} {log : List (Dialogue.Asked A)} :
    Dialogue.Says ((p >>= f) m) log (r, k) ↔ ∃ first a n rest, log = first ++ rest ∧
      Dialogue.Says (p m) first (a, n) ∧ Dialogue.Says (f a n) rest (r, k) := by
  refine Dialogue.says_bind.trans ?_
  constructor
  · rintro ⟨first, ⟨a, n⟩, rest, h⟩
    exact ⟨first, a, n, rest, h⟩
  · rintro ⟨first, a, n, rest, h⟩
    exact ⟨first, (a, n), rest, h⟩

theorem says_andThen {ε : Type} {p : Session A M (Except ε R)}
    {f : R → Session A M (Except ε S)} {r : Except ε S} {k : M}
    {log : List (Dialogue.Asked A)} : Dialogue.Says (andThen p f m) log (r, k) ↔
      (∃ e, r = .error e ∧ Dialogue.Says (p m) log (.error e, k)) ∨
      ∃ first a n rest, log = first ++ rest ∧ Dialogue.Says (p m) first (.ok a, n) ∧
        Dialogue.Says (f a n) rest (r, k) := by
  rw [andThen, says_bind]
  constructor
  · rintro ⟨first, e | a, n, rest, rfl, hfirst, hrest⟩
    · obtain ⟨rfl, rfl, rfl⟩ := says_pure.mp hrest
      rw [List.append_nil]
      exact .inl ⟨e, rfl, hfirst⟩
    · exact .inr ⟨first, a, n, rest, rfl, hfirst, hrest⟩
  · rintro (⟨e, rfl, h⟩ | ⟨first, a, n, rest, rfl, hfirst, hrest⟩)
    · exact ⟨log, .error e, k, [], (List.append_nil log).symm, h, says_pure.mpr ⟨rfl, rfl, rfl⟩⟩
    · exact ⟨first, .ok a, n, rest, rfl, hfirst, hrest⟩

theorem says_get_bind {f : M → Session A M S} {log : List (Dialogue.Asked A)} {x : S × M} :
    Dialogue.Says (((get : Session A M M) >>= f) m) log x ↔ Dialogue.Says (f m m) log x := Iff.rfl

theorem says_modify_bind {g : M → M} {p : Session A M S} {log : List (Dialogue.Asked A)}
    {x : S × M} : Dialogue.Says (((modify g : Session A M PUnit) >>= fun _ => p) m) log x ↔
      Dialogue.Says (p (g m)) log x := Iff.rfl

theorem says_ask_bind {q : Q} {f : A q → Session A M S} {log : List (Dialogue.Asked A)}
    {x : S × M} : Dialogue.Says ((ask q >>= f) m) log x ↔
      ∃ a rest, log = ⟨q, a⟩ :: rest ∧ Dialogue.Says (f a m) rest x := Dialogue.says_ask

/-- A value that was computed without a question. -/
theorem says_pure_andThen {ε : Type} {v : Except ε R} {f : R → Session A M (Except ε S)}
    {r : Except ε S} {k : M} {log : List (Dialogue.Asked A)}
    (h : Dialogue.Says (andThen (pure v) f m) log (r, k)) :
    (∃ e, v = .error e ∧ log = [] ∧ r = .error e ∧ k = m) ∨
      ∃ a, v = .ok a ∧ Dialogue.Says (f a m) log (r, k) := by
  rcases v with e | a
  · obtain ⟨rfl, rfl, rfl⟩ := says_pure.mp h
    exact .inl ⟨e, rfl, rfl, rfl, rfl⟩
  · exact .inr ⟨a, rfl, h⟩

/-! ### Invariants -/

/-- What holds before every conversation and after it. -/
def Keeps (D : Dialogue.Device A σ) (J : M → σ → Prop) (p : Session A M R) : Prop :=
  ∀ m s, J m s → Ensures D (fun _ n t => J n t) p m s

namespace Keeps

variable {J : M → σ → Prop}

theorem pure {r : R} : Keeps D J (Pure.pure r : Session A M R) := fun _ _ h => ensures_pure h

theorem bind {f : R → Session A M S} (hp : Keeps D J p) (hf : ∀ a, Keeps D J (f a)) :
    Keeps D J (p >>= f) := fun m s h => ensures_bind ((hp m s h).mono fun a n t => hf a n t)

theorem get : Keeps D J (MonadState.get : Session A M M) := fun _ _ h => ensures_get h

theorem modify {f : M → M} (h : ∀ m s, J m s → J (f m) s) :
    Keeps D J (modify f : Session A M PUnit) := fun m s hJ => ensures_modify (h m s hJ)

theorem andThen {ε : Type} {p : Session A M (Except ε R)} {f : R → Session A M (Except ε S)}
    (hp : Keeps D J p) (hf : ∀ a, Keeps D J (f a)) : Keeps D J (andThen p f) := by
  refine hp.bind ?_
  rintro (e | a)
  · exact .pure
  · exact hf a

end Keeps

end Session
