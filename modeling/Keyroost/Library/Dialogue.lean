/-!
# Programs that talk to a device

A program either ends with a result or asks the device something and goes on with the answer. A
device relates its state before a question to the answer and its state afterwards, so one device
may answer in several ways.

* `Runs` is one conversation with a device, with the questions and answers in order; `Says` is a
  conversation whatever the device is.
* `Always` says what holds at the end of every conversation, and is a fixed point over the program:
  a proof goes through the program's text, question by question.
* `serve` records what a machine with one answer to each question is asked.
* `Asks` bounds the questions that a program may come to ask, whatever it is answered.

`andThen` is `?` of a program that may fail. The rules for `>>=` and `andThen` are stated for each
of these notions, so that a function of a program is proved from those it calls.
-/

inductive Dialogue {Q : Type} (A : Q → Type) (R : Type) where
  | done (r : R) : Dialogue A R
  | ask (q : Q) (next : A q → Dialogue A R) : Dialogue A R

namespace Dialogue

variable {Q : Type} {A : Q → Type} {R S σ τ : Type}

protected def bind : Dialogue A R → (R → Dialogue A S) → Dialogue A S
  | .done r, f => f r
  | .ask q next, f => .ask q fun a => (next a).bind f

instance : Monad (Dialogue A) where
  pure := .done
  bind := Dialogue.bind

/-- One question, its answer the result. -/
def query (q : Q) : Dialogue A (A q) := .ask q .done

@[simp] theorem pure_eq (r : R) : (pure r : Dialogue A R) = .done r := rfl

@[simp] theorem done_bind (r : R) (f : R → Dialogue A S) : (.done r >>= f) = f r := rfl

@[simp] theorem ask_bind (q : Q) (next : A q → Dialogue A R) (f : R → Dialogue A S) :
    (.ask q next >>= f) = .ask q fun a => next a >>= f := rfl

theorem query_bind (q : Q) (f : A q → Dialogue A S) : (query q >>= f) = .ask q f := rfl

/-! ### Devices and conversations -/

/-- What a device in one state may answer to a question, and its state then. -/
abbrev Device (A : Q → Type) (σ : Type) : Type := σ → (q : Q) → A q → σ → Prop

/-- A question and its answer. -/
abbrev Asked (A : Q → Type) : Type := (q : Q) × A q

inductive Runs (D : Device A σ) : σ → Dialogue A R → List (Asked A) → R → σ → Prop
  | done {s : σ} {r : R} : Runs D s (.done r) [] r s
  | ask {s t u : σ} {q : Q} {a : A q} {next : A q → Dialogue A R} {log : List (Asked A)}
      {r : R} : D s q a t → Runs D t (next a) log r u →
        Runs D s (.ask q next) (⟨q, a⟩ :: log) r u

/-- Every conversation from the state ends in a result and a state that satisfy `Post`. -/
def Always (D : Device A σ) (Post : R → σ → Prop) : Dialogue A R → σ → Prop
  | .done r, s => Post r s
  | .ask q next, s => ∀ a t, D s q a t → (next a).Always D Post t

theorem always_iff {D : Device A σ} {Post : R → σ → Prop} {p : Dialogue A R} {s : σ} :
    p.Always D Post s ↔ ∀ log r t, Runs D s p log r t → Post r t := by
  induction p generalizing s with
  | done r =>
      constructor
      · intro h log r' t hrun
        cases hrun
        exact h
      · intro h
        exact h [] r s .done
  | ask q next ih =>
      constructor
      · intro h log r t hrun
        cases hrun with
        | ask hstep hrun => exact (ih _).mp (h _ _ hstep) _ r t hrun
      · intro h a t hstep
        exact (ih a).mpr fun log r u hrun => h _ r u (.ask hstep hrun)

/-! ### Conversations in parts -/

theorem runs_done {D : Device A σ} {s t : σ} {r r' : R} {log : List (Asked A)} :
    Runs D s (.done r) log r' t ↔ log = [] ∧ r' = r ∧ t = s := by
  constructor
  · intro h
    cases h
    exact ⟨rfl, rfl, rfl⟩
  · rintro ⟨rfl, rfl, rfl⟩
    exact .done

theorem runs_ask {D : Device A σ} {s u : σ} {q : Q} {next : A q → Dialogue A R}
    {log : List (Asked A)} {r : R} : Runs D s (.ask q next) log r u ↔
      ∃ a rest t, log = ⟨q, a⟩ :: rest ∧ D s q a t ∧ Runs D t (next a) rest r u := by
  constructor
  · intro h
    cases h with
    | ask hstep hnext => exact ⟨_, _, _, rfl, hstep, hnext⟩
  · rintro ⟨a, rest, t, rfl, hstep, hnext⟩
    exact .ask hstep hnext

/-- A conversation of one program and then another. -/
theorem runs_bind {D : Device A σ} {s u : σ} {p : Dialogue A R} {f : R → Dialogue A S}
    {log : List (Asked A)} {r : S} : Runs D s (p >>= f) log r u ↔
      ∃ first a t rest, log = first ++ rest ∧ Runs D s p first a t ∧ Runs D t (f a) rest r u := by
  induction p generalizing s log with
  | done a =>
      constructor
      · intro h
        exact ⟨[], a, s, log, rfl, .done, h⟩
      · rintro ⟨first, a', t, rest, rfl, hfirst, hrest⟩
        obtain ⟨rfl, rfl, rfl⟩ := runs_done.mp hfirst
        exact hrest
  | ask q next ih =>
      rw [ask_bind]
      constructor
      · intro h
        obtain ⟨a, rest, t, rfl, hstep, hnext⟩ := runs_ask.mp h
        obtain ⟨first, b, t', rest, rfl, hfirst, hrest⟩ := (ih a).mp hnext
        exact ⟨⟨q, a⟩ :: first, b, t', rest, rfl, .ask hstep hfirst, hrest⟩
      · rintro ⟨first, b, t', rest, rfl, hfirst, hrest⟩
        obtain ⟨a, first, t, rfl, hstep, hnext⟩ := runs_ask.mp hfirst
        exact .ask hstep ((ih a).mpr ⟨first, b, t', rest, rfl, hnext, hrest⟩)

namespace Always

variable {D : Device A σ} {Post Post' : R → σ → Prop} {p : Dialogue A R} {s : σ}

theorem mono (h : p.Always D Post s) (hpost : ∀ r t, Post r t → Post' r t) :
    p.Always D Post' s := by
  induction p generalizing s with
  | done r => exact hpost r s h
  | ask q next ih => exact fun a t hstep => ih a (h a t hstep)

/-- One program after the other. -/
theorem bind {f : R → Dialogue A S} {Post : S → σ → Prop}
    (h : p.Always D (fun r t => (f r).Always D Post t) s) : (p >>= f).Always D Post s := by
  induction p generalizing s with
  | done r => exact h
  | ask q next ih => exact fun a t hstep => ih a (h a t hstep)

theorem and (h : p.Always D Post s) (h' : p.Always D Post' s) :
    p.Always D (fun r t => Post r t ∧ Post' r t) s := by
  induction p generalizing s with
  | done r => exact ⟨h, h'⟩
  | ask q next ih => exact fun a t hstep => ih a (h a t hstep) (h' a t hstep)

/-- What every answer keeps holds at the end. -/
theorem keeps {J : σ → Prop} (hstep : ∀ ⦃s q a t⦄, D s q a t → J s → J t) (hs : J s) :
    p.Always D (fun _ t => J t) s := by
  induction p generalizing s with
  | done r => exact hs
  | ask q next ih => exact fun a t h => ih a (hstep h hs)

end Always

/-! ### The conversation so far -/

/-- A device together with the conversation it has had. -/
def logged (D : Device A σ) : Device A (σ × List (Asked A)) :=
  fun s q a t => D s.1 q a t.1 ∧ t.2 = s.2 ++ [⟨q, a⟩]

/-- A device in those answers alone that satisfy `P`. -/
def only (D : Device A σ) (P : Asked A → Prop) : Device A σ := fun s q a t => D s q a t ∧ P ⟨q, a⟩

theorem Runs.only {D : Device A σ} {P : Asked A → Prop} {p : Dialogue A R} {s t : σ}
    {log : List (Asked A)} {r : R} (h : Runs D s p log r t) (hlog : ∀ x ∈ log, P x) :
    Runs (only D P) s p log r t := by
  induction h with
  | done => exact .done
  | ask hstep _ ih =>
      refine .ask ⟨hstep, hlog _ List.mem_cons_self⟩ (ih fun x hx => ?_)
      exact hlog x (List.mem_cons_of_mem _ hx)

/-! ### Any device -/

/-- A conversation with a device that may answer anything. -/
def Says (p : Dialogue A R) (log : List (Asked A)) (r : R) : Prop :=
  Runs (fun _ _ _ _ => True : Device A Unit) () p log r ()

theorem Says.done {r : R} : Says (.done r : Dialogue A R) [] r := Runs.done

theorem Says.ask {q : Q} {next : A q → Dialogue A R} {log : List (Asked A)} {r : R} (a : A q)
    (h : Says (next a) log r) : Says (.ask q next) (⟨q, a⟩ :: log) r := Runs.ask trivial h

theorem Runs.spoken {D : Device A σ} {p : Dialogue A R} {s t : σ} {log : List (Asked A)} {r : R}
    (h : Runs D s p log r t) : Says p log r := by
  induction h with
  | done => exact .done
  | ask _ _ ih => exact .ask _ ih

theorem says_done {r r' : R} {log : List (Asked A)} :
    Says (.done r : Dialogue A R) log r' ↔ log = [] ∧ r' = r := by
  rw [Says, runs_done]
  exact ⟨fun h => ⟨h.1, h.2.1⟩, fun h => ⟨h.1, h.2, rfl⟩⟩

theorem says_ask {q : Q} {next : A q → Dialogue A R} {log : List (Asked A)} {r : R} :
    Says (.ask q next) log r ↔ ∃ a rest, log = ⟨q, a⟩ :: rest ∧ Says (next a) rest r := by
  rw [Says, runs_ask]
  exact ⟨fun ⟨a, rest, _, hlog, _, h⟩ => ⟨a, rest, hlog, h⟩,
    fun ⟨a, rest, hlog, h⟩ => ⟨a, rest, (), hlog, trivial, h⟩⟩

theorem says_bind {p : Dialogue A R} {f : R → Dialogue A S} {log : List (Asked A)} {r : S} :
    Says (p >>= f) log r ↔
      ∃ first a rest, log = first ++ rest ∧ Says p first a ∧ Says (f a) rest r := by
  rw [Says, runs_bind]
  exact ⟨fun ⟨first, a, _, rest, h⟩ => ⟨first, a, rest, h⟩,
    fun ⟨first, a, rest, h⟩ => ⟨first, a, (), rest, h⟩⟩

/-! ### Scripted answers -/

/-- What a program asks when its answers come from a list, and its result unless it is still
waiting at the end of the list. -/
def scripted {X : Type} (answer : (q : Q) → X → A q) :
    Dialogue A R → List X → List Q × Option R
  | .done r, _ => ([], some r)
  | .ask q _, [] => ([q], none)
  | .ask q next, x :: xs => Prod.map (List.cons q) id ((next (answer q x)).scripted answer xs)

/-! ### Machines -/

/-- A device with one answer to every question. -/
abbrev Machine (A : Q → Type) (σ : Type) : Type := σ → (q : Q) → A q × σ

/-- A program's conversation with a machine, recorded. -/
def serve (machine : Machine A σ) : Dialogue A R → σ → List (Asked A) → R × σ × List (Asked A)
  | .done r, s, log => (r, s, log)
  | .ask q next, s, log =>
      let (a, t) := machine s q
      (next a).serve machine t (log ++ [⟨q, a⟩])

/-- What is recorded is a conversation with every device that may do as the machine does. -/
theorem runs_serve {machine : Machine A σ} {D : Device A σ}
    (hD : ∀ s q, D s q (machine s q).1 (machine s q).2) (p : Dialogue A R) (s : σ)
    (log : List (Asked A)) : ∃ more, (p.serve machine s log).2.2 = log ++ more ∧
      Runs D s p more (p.serve machine s log).1 (p.serve machine s log).2.1 := by
  induction p generalizing s log with
  | done r => exact ⟨[], (List.append_nil log).symm, .done⟩
  | ask q next ih =>
      obtain ⟨more, hlog, hruns⟩ :=
        ih (machine s q).1 (machine s q).2 (log ++ [⟨q, (machine s q).1⟩])
      refine ⟨⟨q, (machine s q).1⟩ :: more, ?_, .ask (hD s q) hruns⟩
      rw [List.append_cons]
      exact hlog

/-- What is recorded is a conversation of the program. -/
theorem says_serve (machine : Machine A σ) (p : Dialogue A R) (s : σ) (log : List (Asked A)) :
    ∃ more, (p.serve machine s log).2.2 = log ++ more ∧ Says p more (p.serve machine s log).1 := by
  obtain ⟨more, hlog, hruns⟩ :=
    runs_serve (D := fun _ _ _ _ => True) (fun _ _ => trivial) p s log
  exact ⟨more, hlog, hruns.spoken⟩

/-- A conversation recorded from its beginning is the whole record. -/
theorem says_serve_nil (machine : Machine A σ) (p : Dialogue A R) (s : σ) :
    Says p (p.serve machine s []).2.2 (p.serve machine s []).1 := by
  obtain ⟨more, hlog, hsays⟩ := says_serve machine p s []
  rw [hlog]
  exact hsays

/-! ### What is asked -/

/-- Every question a program may come to ask. -/
def Asks (P : Q → Prop) : Dialogue A R → Prop
  | .done _ => True
  | .ask q next => P q ∧ ∀ a, (next a).Asks P

theorem Asks.bind {P : Q → Prop} {p : Dialogue A R} {f : R → Dialogue A S} (hp : p.Asks P)
    (hf : ∀ a, (f a).Asks P) : (p >>= f).Asks P := by
  induction p with
  | done a => exact hf a
  | ask q next ih => exact ⟨hp.1, fun a => ih a (hp.2 a)⟩

theorem Asks.mono {P P' : Q → Prop} (himp : ∀ q, P q → P' q) {p : Dialogue A R}
    (h : p.Asks P) : p.Asks P' := by
  induction p with
  | done r => exact trivial
  | ask q next ih => exact ⟨himp q h.1, fun a => ih a (h.2 a)⟩

theorem Asks.spoken {P : Q → Prop} {p : Dialogue A R} (hp : p.Asks P) {log : List (Asked A)}
    {r : R} (h : Says p log r) : ∀ x ∈ log, P x.1 := by
  induction p generalizing log with
  | done r' =>
      obtain ⟨rfl, -⟩ := says_done.mp h
      exact nofun
  | ask q next ih =>
      obtain ⟨a, rest, rfl, hnext⟩ := says_ask.mp h
      intro x hx
      rcases List.mem_cons.mp hx with rfl | hx
      · exact hp.1
      · exact ih a (hp.2 a) hnext x hx

/-! ### Programs that may fail -/

/-- Go on with the value of a program that may report an error. -/
def andThen {ε : Type} (p : Dialogue A (Except ε R)) (f : R → Dialogue A (Except ε S)) :
    Dialogue A (Except ε S) := do
  match ← p with
  | .error e => return .error e
  | .ok a => f a

theorem Always.andThen {ε : Type} {D : Device A σ} {p : Dialogue A (Except ε R)}
    {f : R → Dialogue A (Except ε S)} {Post : Except ε S → σ → Prop} {s : σ}
    (h : p.Always D (fun r t => (∀ e, r = .error e → Post (.error e) t) ∧
      ∀ a, r = .ok a → (f a).Always D Post t) s) : (p.andThen f).Always D Post s := by
  refine Always.bind (h.mono ?_)
  rintro (e | a) t ⟨herror, hok⟩
  · exact herror e rfl
  · exact hok a rfl

theorem Asks.andThen {ε : Type} {P : Q → Prop} {p : Dialogue A (Except ε R)}
    {f : R → Dialogue A (Except ε S)} (hp : p.Asks P) (hf : ∀ a, (f a).Asks P) :
    (p.andThen f).Asks P := by
  refine hp.bind ?_
  rintro (e | a)
  · exact trivial
  · exact hf a

theorem runs_andThen {ε : Type} {D : Device A σ} {s u : σ} {p : Dialogue A (Except ε R)}
    {f : R → Dialogue A (Except ε S)} {log : List (Asked A)} {r : Except ε S} :
    Runs D s (p.andThen f) log r u ↔ (∃ e, r = .error e ∧ Runs D s p log (.error e) u) ∨
      ∃ first a t rest, log = first ++ rest ∧ Runs D s p first (.ok a) t ∧
        Runs D t (f a) rest r u := by
  rw [andThen, runs_bind]
  constructor
  · rintro ⟨first, e | a, t, rest, rfl, hfirst, hrest⟩
    · obtain ⟨rfl, rfl, rfl⟩ := runs_done.mp hrest
      rw [List.append_nil]
      exact .inl ⟨e, rfl, hfirst⟩
    · exact .inr ⟨first, a, t, rest, rfl, hfirst, hrest⟩
  · rintro (⟨e, rfl, h⟩ | ⟨first, a, t, rest, rfl, hfirst, hrest⟩)
    · exact ⟨log, .error e, u, [], (List.append_nil log).symm, h, .done⟩
    · exact ⟨first, .ok a, t, rest, rfl, hfirst, hrest⟩

theorem says_andThen {ε : Type} {p : Dialogue A (Except ε R)}
    {f : R → Dialogue A (Except ε S)} {log : List (Asked A)} {r : Except ε S} :
    Says (p.andThen f) log r ↔ (∃ e, r = .error e ∧ Says p log (.error e)) ∨
      ∃ first a rest, log = first ++ rest ∧ Says p first (.ok a) ∧ Says (f a) rest r := by
  rw [Says, runs_andThen]
  exact or_congr_right ⟨fun ⟨first, a, _, rest, h⟩ => ⟨first, a, rest, h⟩,
    fun ⟨first, a, rest, h⟩ => ⟨first, a, (), rest, h⟩⟩

end Dialogue
