import Mathlib.Data.List.Chain
import Mathlib.Logic.Function.Basic

/-!
# File programs that may be cut off

A program works on a few named files. Any of its file operations may fail, or the program may be
cut off there for good, with none, some or all of the operation's changes made.

`Proceeds G d m Q` says what every run of `m` from the files `d` does: one operation after another
moves the files as `G` allows, and a run that gets to its end leaves a result and files that satisfy
`Q`. So `G` is what holds across every crash, and `Q` is what an ordinary caller relies on.

The rules compose programs, and the lemmas of the last section say, for each operation, what it may
leave: a write may leave any beginning of what was to be written, a rename is done or it is not.
-/

namespace Crash

/-- The contents of the files, `none` for a file that does not exist. -/
abbrev Disk (Path : Type) := Path → Option (List UInt8)

/-- What becomes of an operation. One that does not get done has made `progress` of its
changes. -/
inductive Fate where
  | done
  | failed (progress : Nat)
  | crashed (progress : Nat)
deriving DecidableEq, Repr

/-- The files after each operation, and the result with the fates that are left, unless the
program was cut off. -/
structure Run (Path α : Type) where
  trace : List (Disk Path)
  out : Option (α × List Fate)

def Prog (Path α : Type) := List Fate → Disk Path → Run Path α

variable {Path κ α β : Type} {G : Disk Path → Disk Path → Prop} {d : Disk Path}

def Run.last (d : Disk Path) (run : Run Path α) : Disk Path := run.trace.getLastD d

namespace Prog

def pure (a : α) : Prog Path α := fun fates _ => { trace := [], out := some (a, fates) }

def bind (m : Prog Path α) (f : α → Prog Path β) : Prog Path β := fun fates d =>
  let run := m fates d
  match run.out with
  | none => { trace := run.trace, out := none }
  | some (a, rest) =>
      let next := f a rest (run.last d)
      { trace := run.trace ++ next.trace, out := next.out }

instance : Monad (Prog Path) where
  pure := pure
  bind := bind

/-- Go on with the value of a program that may report an error. -/
def andThen (m : Prog Path (Except κ α)) (f : α → Prog Path (Except κ β)) :
    Prog Path (Except κ β) := do
  match ← m with
  | .error e => return .error e
  | .ok a => f a

end Prog

/-! ### Rules -/

def Proceeds (G : Disk Path → Disk Path → Prop) (d : Disk Path) (m : Prog Path α)
    (Q : α → Disk Path → Prop) : Prop :=
  ∀ fates, (d :: (m fates d).trace).IsChain G ∧
    ∀ a rest, (m fates d).out = some (a, rest) → Q a ((m fates d).last d)

theorem isChain_append_last {trace trace' : List (Disk Path)}
    (h : (d :: trace).IsChain G) (h' : (trace.getLastD d :: trace').IsChain G) :
    (d :: (trace ++ trace')).IsChain G := by
  induction trace generalizing d with
  | nil => exact h'
  | cons e trace ih =>
      rw [List.isChain_cons_cons] at h
      rw [List.getLastD_cons] at h'
      rw [List.cons_append, List.isChain_cons_cons]
      exact ⟨h.1, ih h.2 h'⟩

theorem getLastD_append (trace trace' : List (Disk Path)) (d : Disk Path) :
    (trace ++ trace').getLastD d = trace'.getLastD (trace.getLastD d) := by
  induction trace generalizing d with
  | nil => rfl
  | cons e trace ih => rw [List.cons_append, List.getLastD_cons, List.getLastD_cons, ih]

/-- What every step keeps holds at every point of a run. -/
theorem forall_of_isChain {J : Disk Path → Prop} {trace : List (Disk Path)}
    (h : (d :: trace).IsChain G) (hstep : ∀ ⦃x y⦄, G x y → J x → J y) (hd : J d) :
    ∀ x ∈ d :: trace, J x := by
  intro x hx
  rcases List.mem_cons.mp hx with rfl | hx
  · exact hd
  · exact h.cons_induction J trace hstep hd x hx

/-- What every step keeps, once it holds, still holds at the end of a run. -/
theorem last_of_isChain {J : Disk Path → Prop} {trace : List (Disk Path)} {x : Disk Path}
    (h : (d :: trace).IsChain G) (hstep : ∀ ⦃x y⦄, G x y → J x → J y) (hx : x ∈ d :: trace)
    (hJ : J x) : J (trace.getLastD d) := by
  induction trace generalizing d x with
  | nil =>
      obtain rfl := List.mem_singleton.mp hx
      exact hJ
  | cons e trace ih =>
      rw [List.isChain_cons_cons] at h
      rw [List.getLastD_cons]
      rcases List.mem_cons.mp hx with rfl | hx
      · exact ih h.2 List.mem_cons_self (hstep h.1 hJ)
      · exact ih h.2 hx hJ

namespace Proceeds

theorem pure {a : α} {Q : α → Disk Path → Prop} (h : Q a d) :
    Proceeds G d (Pure.pure a : Prog Path α) Q := by
  intro fates
  refine ⟨.singleton d, ?_⟩
  intro b rest hout
  obtain ⟨rfl, -⟩ := Prod.mk.inj (Option.some.inj hout)
  exact h

theorem bind {m : Prog Path α} {f : α → Prog Path β} {Q : β → Disk Path → Prop}
    (h : Proceeds G d m fun a e => Proceeds G e (f a) Q) : Proceeds G d (m >>= f) Q := by
  intro fates
  obtain ⟨hchain, hout⟩ := h fates
  change (d :: (Prog.bind m f fates d).trace).IsChain G ∧ ∀ b rest,
    (Prog.bind m f fates d).out = some (b, rest) → Q b ((Prog.bind m f fates d).last d)
  rcases hrun : (m fates d).out with _ | ⟨a, rest⟩
  · have hbind : Prog.bind m f fates d = { trace := (m fates d).trace, out := none } := by
      rw [Prog.bind, hrun]
    rw [hbind]
    exact ⟨hchain, fun b rest hsome => nomatch hsome⟩
  · have hbind : Prog.bind m f fates d =
        { trace := (m fates d).trace ++ (f a rest ((m fates d).last d)).trace,
          out := (f a rest ((m fates d).last d)).out } := by
      rw [Prog.bind, hrun]
    obtain ⟨hchain', hout'⟩ := hout a rest hrun rest
    rw [hbind]
    refine ⟨isChain_append_last hchain hchain', ?_⟩
    intro b rest' hsome
    rw [Run.last, getLastD_append]
    exact hout' b rest' hsome

theorem andThen {m : Prog Path (Except κ α)} {f : α → Prog Path (Except κ β)}
    {Q : Except κ β → Disk Path → Prop}
    (h : Proceeds G d m fun r e => (∀ k, r = .error k → Q (.error k) e) ∧
      ∀ a, r = .ok a → Proceeds G e (f a) Q) : Proceeds G d (m.andThen f) Q := by
  apply bind
  intro fates
  obtain ⟨hchain, hout⟩ := h fates
  refine ⟨hchain, ?_⟩
  intro r rest hr
  obtain ⟨herror, hok⟩ := hout r rest hr
  cases r with
  | error k => exact pure (herror k rfl)
  | ok a => exact hok a rfl

theorem imp {m : Prog Path α} {Q Q' : α → Disk Path → Prop} (h : Proceeds G d m Q)
    (hQ : ∀ a e, Q a e → Q' a e) : Proceeds G d m Q' :=
  fun fates => ⟨(h fates).1, fun a rest hout => hQ a _ ((h fates).2 a rest hout)⟩

end Proceeds

/-! ### File operations -/

section Operations

/-- The files at each stage of an operation's work, where `attempt` gives its reply with
them. -/
def stages (attempt : Disk Path → Except κ (α × List (Disk Path))) (d : Disk Path) :
    List (Disk Path) :=
  match attempt d with
  | .ok (_, ds) => ds
  | .error _ => []

def stage (attempt : Disk Path → Except κ (α × List (Disk Path))) (d : Disk Path) (n : Nat) :
    Disk Path :=
  ((stages attempt d).take n).getLastD d

/-- One operation. An operation that fails without a reason of its own reports `fault`. -/
def op (fault : κ) (attempt : Disk Path → Except κ (α × List (Disk Path))) :
    Prog Path (Except κ α) := fun fates d =>
  match fates with
  | .failed n :: rest => { trace := [stage attempt d n], out := some (.error fault, rest) }
  | .crashed n :: _ => { trace := [stage attempt d n], out := none }
  | _ =>
      { trace := [(stages attempt d).getLastD d],
        out := some ((attempt d).map Prod.fst, fates.tail) }

theorem stage_mem (attempt : Disk Path → Except κ (α × List (Disk Path))) (d : Disk Path)
    (n : Nat) : stage attempt d n ∈ d :: stages attempt d := by
  have hlast : stage attempt d n ∈ d :: (stages attempt d).take n := List.getLastD_mem_cons
  rcases List.mem_cons.mp hlast with h | h
  · exact List.mem_cons.mpr (.inl h)
  · exact List.mem_cons_of_mem d (List.mem_of_mem_take h)

theorem Proceeds.op {fault : κ} {attempt : Disk Path → Except κ (α × List (Disk Path))}
    {Q : Except κ α → Disk Path → Prop}
    (hstage : ∀ e ∈ d :: stages attempt d, G d e ∧ Q (.error fault) e)
    (hdone : Q ((attempt d).map Prod.fst) ((stages attempt d).getLastD d)) :
    Proceeds G d (op fault attempt) Q := by
  intro fates
  have hone : ∀ e ∈ d :: stages attempt d, [d, e].IsChain G := by
    intro e he
    rw [List.isChain_pair]
    exact (hstage e he).1
  rcases fates with _ | ⟨fate, fates⟩
  · refine ⟨hone _ List.getLastD_mem_cons, ?_⟩
    rintro a rest ⟨⟩
    exact hdone
  · cases fate with
    | done =>
        refine ⟨hone _ List.getLastD_mem_cons, ?_⟩
        rintro a rest ⟨⟩
        exact hdone
    | failed n =>
        refine ⟨hone _ (stage_mem attempt d n), ?_⟩
        rintro a rest ⟨⟩
        exact (hstage _ (stage_mem attempt d n)).2
    | crashed n => exact ⟨hone _ (stage_mem attempt d n), fun a rest hout => nomatch hout⟩

theorem Proceeds.opError {fault : κ} (e : κ) {attempt : Disk Path → Except κ (α × List (Disk Path))}
    {Q : Except κ α → Disk Path → Prop} (hattempt : attempt d = .error e) (hG : G d d)
    (hfault : Q (.error fault) d) (herror : Q (.error e) d) :
    Proceeds G d (Crash.op fault attempt) Q := by
  have hstages : stages attempt d = [] := by rw [stages, hattempt]
  apply Proceeds.op
  · intro f hf
    rw [hstages, List.mem_singleton] at hf
    subst hf
    exact ⟨hG, hfault⟩
  · rw [hstages, hattempt]
    exact herror

theorem Proceeds.opOk {fault : κ} (a : α) (ds : List (Disk Path))
    {attempt : Disk Path → Except κ (α × List (Disk Path))} {Q : Except κ α → Disk Path → Prop}
    (hattempt : attempt d = .ok (a, ds)) (hstage : ∀ e ∈ d :: ds, G d e ∧ Q (.error fault) e)
    (hdone : Q (.ok a) (ds.getLastD d)) : Proceeds G d (Crash.op fault attempt) Q := by
  have hstages : stages attempt d = ds := by rw [stages, hattempt]
  apply Proceeds.op
  · rw [hstages]
    exact hstage
  · rw [hstages, hattempt]
    exact hdone

variable [DecidableEq Path]

def readFile (missing fault : κ) (p : Path) : Prog Path (Except κ (List UInt8)) :=
  op fault fun d =>
    match d p with
    | none => .error missing
    | some bytes => .ok (bytes, [])

def createNew (taken fault : κ) (p : Path) : Prog Path (Except κ Unit) :=
  op fault fun d =>
    match d p with
    | some _ => .error taken
    | none => .ok ((), [Function.update d p (some [])])

/-- The stages of appending `bytes` to the file `p` that holds `old`. -/
def grown (d : Disk Path) (p : Path) (old bytes : List UInt8) : List (Disk Path) :=
  (List.range bytes.length).map (fun n => Function.update d p (some (old ++ bytes.take n))) ++
    [Function.update d p (some (old ++ bytes))]

/-- Append to an open file; one that was removed keeps nothing. -/
def writeAll (fault : κ) (p : Path) (bytes : List UInt8) : Prog Path (Except κ Unit) :=
  op fault fun d =>
    match d p with
    | none => .ok ((), [])
    | some old => .ok ((), grown d p old bytes)

/-- An operation that changes no contents. -/
def settle (fault : κ) : Prog Path (Except κ Unit) := op fault fun _ => .ok ((), [])

/-- Move the file `p` over `q` at one stroke. -/
def rename (missing fault : κ) (p q : Path) : Prog Path (Except κ Unit) :=
  op fault fun d =>
    match d p with
    | none => .error missing
    | some content => .ok ((), [Function.update (Function.update d p none) q (some content)])

def removeFile (missing fault : κ) (p : Path) : Prog Path (Except κ Unit) :=
  op fault fun d =>
    match d p with
    | none => .error missing
    | some _ => .ok ((), [Function.update d p none])

/-! ### What each operation does -/

/-- The files other than `p` stay as they are. -/
def Only (p : Path) (d e : Disk Path) : Prop := ∀ q, q ≠ p → e q = d q

omit [DecidableEq Path] in
theorem Only.refl (p : Path) (d : Disk Path) : Only p d d := fun _ _ => rfl

omit [DecidableEq Path] in
theorem Only.trans {p : Path} {c d e : Disk Path} (h : Only p c d) (h' : Only p d e) :
    Only p c e := fun q hq => (h' q hq).trans (h q hq)

theorem only_update (p : Path) (d : Disk Path) (content : Option (List UInt8)) :
    Only p d (Function.update d p content) :=
  fun _ hq => Function.update_of_ne hq content d

theorem eq_update_of_mem_grown {p : Path} {old bytes : List UInt8} {e : Disk Path}
    (he : e ∈ grown d p old bytes) : ∃ content, e = Function.update d p (some content) := by
  rw [grown, List.mem_append, List.mem_map, List.mem_singleton] at he
  rcases he with ⟨n, -, rfl⟩ | rfl
  · exact ⟨old ++ bytes.take n, rfl⟩
  · exact ⟨old ++ bytes, rfl⟩

namespace Proceeds

variable {missing taken fault : κ} {p q : Path}

omit [DecidableEq Path] in
theorem readFile {Q : Except κ (List UInt8) → Disk Path → Prop} (hG : G d d)
    (hfault : Q (.error fault) d) (hmissing : d p = none → Q (.error missing) d)
    (hread : ∀ bytes, d p = some bytes → Q (.ok bytes) d) :
    Proceeds G d (readFile missing fault p) Q := by
  cases hp : d p with
  | none => exact opError missing (by rw [hp]) hG hfault (hmissing hp)
  | some bytes =>
      refine opOk bytes [] (by rw [hp]) ?_ (hread bytes hp)
      intro e he
      obtain rfl := List.mem_singleton.mp he
      exact ⟨hG, hfault⟩

omit [DecidableEq Path] in
theorem settle {Q : Except κ Unit → Disk Path → Prop} (hG : G d d)
    (hfault : Q (.error fault) d) (hdone : Q (.ok ()) d) :
    Proceeds G d (settle fault) Q := by
  refine opOk () [] rfl ?_ hdone
  intro e he
  obtain rfl := List.mem_singleton.mp he
  exact ⟨hG, hfault⟩

theorem createNew {Q : Except κ Unit → Disk Path → Prop}
    (hstage : ∀ e, Only p d e → (d p ≠ none → e = d) → G d e ∧ Q (.error fault) e)
    (htaken : d p ≠ none → Q (.error taken) d)
    (hnew : ∀ e, Only p d e → d p = none → e p = some [] → Q (.ok ()) e) :
    Proceeds G d (createNew taken fault p) Q := by
  obtain ⟨hG, hfault⟩ := hstage d (Only.refl p d) fun _ => rfl
  cases hp : d p with
  | some bytes =>
      have hsome : d p ≠ none := by
        rw [hp]
        exact Option.some_ne_none bytes
      exact opError taken (by rw [hp]) hG hfault (htaken hsome)
  | none =>
      refine opOk () [Function.update d p (some [])] (by rw [hp]) ?_
        (hnew _ (only_update p d _) hp (Function.update_self ..))
      intro e he
      rcases List.mem_pair.mp he with rfl | rfl
      · exact ⟨hG, hfault⟩
      · exact hstage _ (only_update p d _) fun hsome => absurd hp hsome

/-- Writing to an open file changes no other file, and neither creates nor removes it. -/
theorem writeAll {bytes : List UInt8} {Q : Except κ Unit → Disk Path → Prop}
    (hstage : ∀ e, Only p d e → (d p ≠ none → e p ≠ none) → G d e ∧ Q (.error fault) e)
    (hgone : d p = none → Q (.ok ()) d)
    (hdone : ∀ old e, Only p d e → d p = some old → e p = some (old ++ bytes) → Q (.ok ()) e) :
    Proceeds G d (writeAll fault p bytes) Q := by
  obtain ⟨hG, hfault⟩ := hstage d (Only.refl p d) id
  cases hp : d p with
  | none =>
      refine opOk () [] (by rw [hp]) ?_ (hgone hp)
      intro e he
      obtain rfl := List.mem_singleton.mp he
      exact ⟨hG, hfault⟩
  | some old =>
      refine opOk () (grown d p old bytes) (by rw [hp]) ?_ ?_
      · intro e he
        rcases List.mem_cons.mp he with rfl | he
        · exact ⟨hG, hfault⟩
        · obtain ⟨content, rfl⟩ := eq_update_of_mem_grown he
          refine hstage _ (only_update p d _) fun _ => ?_
          rw [Function.update_self]
          exact Option.some_ne_none content
      · rw [grown, List.getLastD_concat]
        exact hdone old _ (only_update p d _) hp (Function.update_self ..)

theorem rename {Q : Except κ Unit → Disk Path → Prop} (hstay : G d d ∧ Q (.error fault) d)
    (hmissing : d p = none → Q (.error missing) d)
    (hmove : ∀ content e, d p = some content → e q = some content →
      (∀ r, r ≠ p → r ≠ q → e r = d r) → (G d e ∧ Q (.error fault) e) ∧ Q (.ok ()) e) :
    Proceeds G d (rename missing fault p q) Q := by
  cases hp : d p with
  | none => exact opError missing (by rw [hp]) hstay.1 hstay.2 (hmissing hp)
  | some content =>
      have hmoved := hmove content
        (Function.update (Function.update d p none) q (some content)) hp (Function.update_self ..)
        fun r hrp hrq => by
          rw [Function.update_of_ne hrq, Function.update_of_ne hrp]
      refine opOk () [Function.update (Function.update d p none) q (some content)]
        (by rw [hp]) ?_ hmoved.2
      intro e he
      rcases List.mem_pair.mp he with rfl | rfl
      · exact hstay
      · exact hmoved.1

theorem removeFile {Q : Except κ Unit → Disk Path → Prop}
    (hstage : ∀ e, Only p d e → G d e ∧ Q (.error fault) e)
    (hmissing : d p = none → Q (.error missing) d)
    (hgone : ∀ e, Only p d e → e p = none → Q (.ok ()) e) :
    Proceeds G d (removeFile missing fault p) Q := by
  cases hp : d p with
  | none =>
      obtain ⟨hG, hfault⟩ := hstage d (Only.refl p d)
      exact opError missing (by rw [hp]) hG hfault (hmissing hp)
  | some content =>
      refine opOk () [Function.update d p none] (by rw [hp]) ?_
        (hgone _ (only_update p d none) (Function.update_self ..))
      intro e he
      rcases List.mem_pair.mp he with rfl | rfl
      · exact hstage e (Only.refl p e)
      · exact hstage _ (only_update p d none)

end Proceeds

end Operations

end Crash
