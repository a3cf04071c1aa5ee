import Mathlib.Algebra.Ring.Nat
import Mathlib.Logic.Function.Basic
import Mathlib.Logic.Relation

/-!
# The cache of names read from keys

Any number of threads scan keys and write to them. A scan reads a key without holding the cache's
lock and keeps what it read only if no forget came in between; a write is wrapped in two forgets.
Modelled from `keyroost-resolve/src/device.rs`.

The threads take steps in any order (`Step`). Labels carry the time they were read at, and some
counts are kept beside the program's own state so that its runs can be spoken about. The generation
that a scan compares is a 64-bit counter of forgets, which wraps: `PromptlyReached` are the runs in
which no read is overtaken by so many. `Fresh` is the invariant, kept by each step (`Fresh.step`);
`no_stale_name` reads the result off it, and `stale_after_wrap` is a run in which the counter comes
back to the same value.
-/

namespace Keyroost.Resolve

/-! ### The cache -/

/-- Milliseconds. -/
def LABEL_CACHE_TTL : Nat := 10000

/-- Names read from keys, by HID path and serial, with when they were read. -/
abbrev LabelCache (Key Label : Type) : Type := List (Key × Nat × Label)

section

variable {Key Label : Type} [DecidableEq Key]

/-- What a scan begun at `now` reuses for `key`. -/
def cachedLabel (cache : LabelCache Key Label) (key : Key) (now : Nat) : Option Label :=
  (cache.find? fun e => decide (e.1 = key) && decide (now - e.2.1 < LABEL_CACHE_TTL)).map
    (·.2.2)

def cacheLabel (cache : LabelCache Key Label) (readGen nowGen : UInt64) (key : Key)
    (readTime : Nat) (label : Label) : Bool × LabelCache Key Label :=
  if readGen ≠ nowGen then (false, cache)
  else
    (true, (cache.filter fun e =>
      decide (e.1 ≠ key) && decide (readTime - e.2.1 < LABEL_CACHE_TTL)) ++
        [(key, readTime, label)])

theorem mem_of_cachedLabel {cache : LabelCache Key Label} {key : Key} {now : Nat}
    {label : Label} (h : cachedLabel cache key now = some label) :
    ∃ e ∈ cache, e.2.2 = label := by
  obtain ⟨e, he, hlabel⟩ := Option.map_eq_some_iff.mp h
  exact ⟨e, List.mem_of_find?_eq_some he, hlabel⟩

/-- The cache afterwards holds nothing but what it held and the label, the label only if
the generation is still the one it was read under. -/
theorem mem_cacheLabel {cache : LabelCache Key Label} {readGen nowGen : UInt64} {key : Key}
    {readTime : Nat} {label : Label} {e : Key × Nat × Label}
    (he : e ∈ (cacheLabel cache readGen nowGen key readTime label).2) :
    e ∈ cache ∨ (readGen = nowGen ∧ e.2.2 = label) := by
  rw [cacheLabel] at he
  split at he
  · exact .inl he
  · rename_i hgen
    rcases List.mem_append.mp he with hold | hnew
    · exact .inl (List.mem_filter.mp hold).1
    · rw [List.mem_singleton] at hnew
      rw [hnew]
      exact .inr ⟨not_not.mp hgen, rfl⟩

end

/-! ### Threads -/

/-- A label, and when it was read from its key. The time goes with the label, since one that was
read before a write came to an end must not be shown after it. -/
structure Stamped (Label : Type) where
  label : Label
  readAt : Nat
deriving DecidableEq, Repr

/-- What a forget is part of: no write, the start of one, or the end of one that finished
at this time. -/
inductive AfterForget where
  | nothing
  | write
  | finished (at' : Nat)
deriving DecidableEq, Repr

/-- Where a thread stands. `forgets` and `since` say how many forgets there had been when a scan
took the generation, and when that was; the source has neither, they are there to be spoken of. -/
inductive Thread (Key Label : Type) where
  | idle
  /-- A scan begun at `now` finds nothing cached for `key`. -/
  | missed (key : Key) (now : Nat)
  /-- It has taken the generation and is reading the key. -/
  | reading (key : Key) (now : Nat) (readGen : UInt64) (forgets since : Nat)
  /-- It has read the key. -/
  | read (key : Key) (now : Nat) (readGen : UInt64) (forgets since : Nat)
      (label : Stamped Label)
  /-- `forget_key_names`, with the generation bumped and the cache not yet cleared. -/
  | clearing (after : AfterForget)
  /-- In the `write` of `with_key_names_forgotten`. -/
  | writing
  | written (finished : Nat)
deriving DecidableEq, Repr

/-- `forgets` counts the bumps of the generation, `settled` has the finishing times of the
writes that have bumped it again since, `returned` of those that have returned. -/
structure State (Key Label : Type) where
  time : Nat
  generation : UInt64
  lock : Option Nat
  cache : LabelCache Key (Stamped Label)
  threads : Nat → Thread Key Label
  forgets : Nat
  settled : List Nat
  returned : List Nat

namespace State

variable {Key Label : Type}

def initial : State Key Label :=
  { time := 0, generation := 0, lock := none, cache := [], threads := fun _ => .idle,
    forgets := 0, settled := [], returned := [] }

/-- Thread `i` goes to `t`; every step takes time. -/
def goes (s : State Key Label) (i : Nat) (t : Thread Key Label) : State Key Label :=
  { s with threads := Function.update s.threads i t, time := s.time + 1 }

/-- The first half of `forget_key_names`, under the lock. -/
def bump (s : State Key Label) (i : Nat) (after : AfterForget) : State Key Label :=
  { s.goes i (.clearing after) with
    generation := s.generation + 1
    lock := some i
    forgets := s.forgets + 1
    settled := match after with
      | .finished f => f :: s.settled
      | _ => s.settled }

/-- The second half, and the return from a wrapped write that it may be the end of. -/
def clear (s : State Key Label) (i : Nat) (after : AfterForget) : State Key Label :=
  { s.goes i (match after with
      | .write => .writing
      | _ => .idle) with
    cache := []
    lock := none
    returned := match after with
      | .finished f => f :: s.returned
      | _ => s.returned }

end State

section

variable {Key Label : Type}

/-- One step of thread `i`. Between two steps any other thread can come in. A lookup and a keeping
are one step each, for they hold the lock; the reading of a key holds none, so forgets and other
scans may come before and after it while its own scan lasts. -/
inductive Step [DecidableEq Key] (s : State Key Label) (i : Nat) : State Key Label → Prop
  | hit {key : Key} {now : Nat} (hthread : s.threads i = .idle) (hlock : s.lock = none)
      (hcached : (cachedLabel s.cache key now).isSome) : Step s i (s.goes i .idle)
  | miss {key : Key} {now : Nat} (hthread : s.threads i = .idle) (hlock : s.lock = none)
      (hcached : cachedLabel s.cache key now = none) : Step s i (s.goes i (.missed key now))
  | takeGeneration {key : Key} {now : Nat} (hthread : s.threads i = .missed key now) :
      Step s i (s.goes i (.reading key now s.generation s.forgets s.time))
  | readKey {key : Key} {now : Nat} {readGen : UInt64} {forgets since : Nat} (label : Label)
      (hthread : s.threads i = .reading key now readGen forgets since) :
      Step s i (s.goes i (.read key now readGen forgets since ⟨label, s.time⟩))
  | keep {key : Key} {now : Nat} {readGen : UInt64} {forgets since : Nat}
      {label : Stamped Label}
      (hthread : s.threads i = .read key now readGen forgets since label)
      (hlock : s.lock = none) :
      Step s i { s.goes i .idle with
        cache := (cacheLabel s.cache readGen s.generation key now label).2 }
  | forget (hthread : s.threads i = .idle) (hlock : s.lock = none) :
      Step s i (s.bump i .nothing)
  | startWrite (hthread : s.threads i = .idle) (hlock : s.lock = none) :
      Step s i (s.bump i .write)
  | finishWrite (hthread : s.threads i = .writing) : Step s i (s.goes i (.written s.time))
  | forgetAgain {finished : Nat} (hthread : s.threads i = .written finished)
      (hlock : s.lock = none) : Step s i (s.bump i (.finished finished))
  | clear {after : AfterForget} (hthread : s.threads i = .clearing after) :
      Step s i (s.clear i after)

/-- No read of a key is overtaken by as many forgets as the generation has values. -/
def State.Prompt (s : State Key Label) : Prop :=
  ∀ i key now readGen forgets since label,
    s.threads i = .read key now readGen forgets since label → s.forgets < forgets + 2 ^ 64

/-- States reached by any interleaving of the threads' steps. -/
def Reached [DecidableEq Key] : State Key Label → Prop :=
  Relation.ReflTransGen (fun s s' => ∃ i, Step s i s') State.initial

/-- States reached while every read is prompt. -/
def PromptlyReached [DecidableEq Key] : State Key Label → Prop :=
  Relation.ReflTransGen (fun s s' => s.Prompt ∧ ∃ i, Step s i s') State.initial

/-! ### The invariant -/

/-- A read under generation `readGen`, the one after `count` forgets: every write settled
by then had finished before `since`. -/
structure ReadSince (s : State Key Label) (readGen : UInt64) (count since : Nat) : Prop where
  generation : readGen = UInt64.ofNat count
  count_le : count ≤ s.forgets
  settled : count = s.forgets → ∀ f ∈ s.settled, f < since

def ThreadFresh (s : State Key Label) : Thread Key Label → Prop
  | .reading _ _ readGen forgets since => ReadSince s readGen forgets since ∧ since ≤ s.time
  | .read _ _ readGen forgets since label =>
      ReadSince s readGen forgets since ∧ since ≤ label.readAt
  | .clearing (.finished f) => f ∈ s.settled
  | .written f => f < s.time
  | _ => True

structure Fresh (s : State Key Label) : Prop where
  generation : s.generation = UInt64.ofNat s.forgets
  past : ∀ f ∈ s.settled, f < s.time
  returned : ∀ f ∈ s.returned, f ∈ s.settled
  threads : ∀ i, ThreadFresh s (s.threads i)
  cached : ∀ f ∈ s.returned, ∀ e ∈ s.cache, f < e.2.2.readAt

/-- What a thread relies on is kept by steps of others: more forgets, or no write newly
settled. -/
theorem ThreadFresh.mono {s s' : State Key Label} {t : Thread Key Label}
    (hforgets : s.forgets ≤ s'.forgets)
    (hsettled : s.forgets = s'.forgets → s'.settled = s.settled)
    (hsub : ∀ f ∈ s.settled, f ∈ s'.settled) (htime : s.time ≤ s'.time)
    (h : ThreadFresh s t) : ThreadFresh s' t := by
  have hread {readGen : UInt64} {forgets since : Nat} (h : ReadSince s readGen forgets since) :
      ReadSince s' readGen forgets since := by
    refine ⟨h.generation, Nat.le_trans h.count_le hforgets, ?_⟩
    intro heq
    have hsame : s.forgets = s'.forgets :=
      Nat.le_antisymm hforgets (heq ▸ h.count_le)
    rw [hsettled hsame]
    exact h.settled (heq.trans hsame.symm)
  cases t with
  | idle => trivial
  | missed => trivial
  | reading => exact ⟨hread h.1, Nat.le_trans h.2 htime⟩
  | read => exact ⟨hread h.1, h.2⟩
  | clearing after =>
      cases after with
      | nothing => trivial
      | write => trivial
      | finished f => exact hsub f h
  | writing => trivial
  | written f => exact Nat.lt_of_lt_of_le h htime

theorem threads_update {s s' : State Key Label} {i : Nat} {t : Thread Key Label}
    (hthreads : s'.threads = Function.update s.threads i t)
    (hmono : ∀ t, ThreadFresh s t → ThreadFresh s' t) (hfresh : ∀ i, ThreadFresh s (s.threads i))
    (ht : ThreadFresh s' t) (j : Nat) : ThreadFresh s' (s'.threads j) := by
  rw [hthreads]
  rcases eq_or_ne j i with hji | hji
  · rw [hji, Function.update_self]
    exact ht
  · rw [Function.update_of_ne hji]
    exact hmono _ (hfresh j)

/-- A step that moves one thread only. -/
theorem Fresh.goes {s : State Key Label} (h : Fresh s) (i : Nat) {t : Thread Key Label}
    (ht : ThreadFresh (s.goes i t) t) : Fresh (s.goes i t) where
  generation := h.generation
  past := fun f hf => Nat.lt_succ_of_lt (h.past f hf)
  returned := h.returned
  threads := threads_update rfl
    (fun _ => ThreadFresh.mono (Nat.le_refl _) (fun _ => rfl) (fun _ hf => hf) (Nat.le_succ _))
    h.threads ht
  cached := h.cached

theorem ofNat_succ (n : Nat) : UInt64.ofNat n + 1 = UInt64.ofNat (n + 1) :=
  (UInt64.ofNat_add n 1).symm

theorem Fresh.bump {s : State Key Label} (h : Fresh s) (i : Nat) {after : AfterForget}
    (hafter : ∀ f, after = .finished f → f < s.time) : Fresh (s.bump i after) := by
  have hsettled : ∀ f ∈ (s.bump i after).settled, f ∈ s.settled ∨ after = .finished f := by
    intro f hf
    cases after with
    | nothing => exact .inl hf
    | write => exact .inl hf
    | finished f' =>
        rcases List.mem_cons.mp hf with hf | hf
        · exact .inr (congrArg _ hf.symm)
        · exact .inl hf
  have hsub : ∀ f ∈ s.settled, f ∈ (s.bump i after).settled := by
    intro f hf
    cases after with
    | nothing => exact hf
    | write => exact hf
    | finished f' => exact List.mem_cons_of_mem f' hf
  refine ⟨?_, ?_, fun f hf => hsub f (h.returned f hf), ?_, h.cached⟩
  · exact (congrArg (· + 1) h.generation).trans (ofNat_succ s.forgets)
  · intro f hf
    rcases hsettled f hf with hold | hnew
    · exact Nat.lt_succ_of_lt (h.past f hold)
    · exact Nat.lt_succ_of_lt (hafter f hnew)
  · refine threads_update (s := s) (i := i) (t := .clearing after) rfl ?_ h.threads ?_
    · intro t
      exact ThreadFresh.mono (Nat.le_succ _) (fun heq => absurd heq (Nat.ne_of_lt
        (Nat.lt_succ_self s.forgets))) hsub (Nat.le_succ _)
    · cases after with
      | nothing => trivial
      | write => trivial
      | finished f => exact List.mem_cons_self

theorem Fresh.clear {s : State Key Label} (h : Fresh s) (i : Nat) {after : AfterForget}
    (hthread : ThreadFresh s (.clearing after)) : Fresh (s.clear i after) := by
  refine ⟨h.generation, fun f hf => Nat.lt_succ_of_lt (h.past f hf), ?_, ?_,
    fun f _ e he => absurd he List.not_mem_nil⟩
  · intro f hf
    cases after with
    | nothing => exact h.returned f hf
    | write => exact h.returned f hf
    | finished f' =>
        rcases List.mem_cons.mp hf with hf | hf
        · rw [hf]
          exact hthread
        · exact h.returned f hf
  · refine threads_update rfl (fun _ => ThreadFresh.mono (Nat.le_refl _) (fun _ => rfl)
      (fun _ hf => hf) (Nat.le_succ _)) h.threads ?_
    cases after <;> trivial

theorem Fresh.step [DecidableEq Key] {s s' : State Key Label} {i : Nat} (h : Fresh s)
    (hprompt : s.Prompt)
    (hstep : Step s i s') : Fresh s' := by
  cases hstep with
  | hit => exact h.goes i trivial
  | miss => exact h.goes i trivial
  | takeGeneration =>
      refine h.goes i ⟨⟨h.generation, Nat.le_refl _, ?_⟩, Nat.le_succ _⟩
      intro _ f hf
      exact h.past f hf
  | readKey label hthread =>
      have hfresh := h.threads i
      rw [hthread] at hfresh
      exact h.goes i ⟨⟨hfresh.1.generation, hfresh.1.count_le, hfresh.1.settled⟩, hfresh.2⟩
  | @keep key now readGen forgets since label hthread hlock =>
      have hmoved := h.goes i (t := .idle) trivial
      have hfresh := h.threads i
      rw [hthread] at hfresh
      obtain ⟨hsince, hread⟩ := hfresh
      refine ⟨hmoved.generation, hmoved.past, hmoved.returned, ?_, ?_⟩
      · intro j
        exact ThreadFresh.mono (s := s.goes i .idle) (Nat.le_refl _) (fun _ => rfl)
          (fun _ hf => hf) (Nat.le_refl _) (hmoved.threads j)
      · intro f hf e he
        rcases mem_cacheLabel he with hold | ⟨hgen, hnew⟩
        · exact h.cached f hf e hold
        · rw [hnew]
          -- Equal generations are equal counts, as fewer than 2⁶⁴ forgets lie between.
          have hcount : forgets = s.forgets := by
            have hlow := hsince.count_le
            have hhigh := hprompt i key now readGen forgets since label hthread
            have hmod : forgets % 2 ^ 64 = s.forgets % 2 ^ 64 := by
              rw [← UInt64.toNat_ofNat', ← UInt64.toNat_ofNat', ← hsince.generation,
                ← h.generation, hgen]
            omega
          exact Nat.lt_of_lt_of_le (hsince.settled hcount f (h.returned f hf)) hread
  | forget => exact h.bump i fun f hf => by cases hf
  | startWrite => exact h.bump i fun f hf => by cases hf
  | finishWrite => exact h.goes i (Nat.lt_succ_self s.time)
  | @forgetAgain finished hthread hlock =>
      have hfresh := h.threads i
      rw [hthread] at hfresh
      refine h.bump i ?_
      intro f hf
      cases hf
      exact hfresh
  | clear hthread => exact h.clear i (hthread ▸ h.threads i)

theorem fresh_initial : Fresh (State.initial : State Key Label) where
  generation := rfl
  past := fun _ hf => absurd hf List.not_mem_nil
  returned := fun _ hf => absurd hf List.not_mem_nil
  threads := fun _ => trivial
  cached := fun _ hf => absurd hf List.not_mem_nil

theorem fresh_of_reached [DecidableEq Key] {s : State Key Label} (h : PromptlyReached s) :
    Fresh s := by
  induction h with
  | refl => exact fresh_initial
  | tail _ hstep ih =>
      obtain ⟨hprompt, i, hstep⟩ := hstep
      exact ih.step hprompt hstep

/-- **No stale name survives a write.** While no read is overtaken by 2⁶⁴ forgets, what the
cache yields once a wrapped write has returned was read from its key after the write
finished. -/
theorem no_stale_name [DecidableEq Key] {s : State Key Label} (h : PromptlyReached s)
    {finished : Nat}
    (hreturned : finished ∈ s.returned) {key : Key} {now : Nat} {label : Stamped Label}
    (hyields : cachedLabel s.cache key now = some label) : finished < label.readAt := by
  obtain ⟨e, he, hlabel⟩ := mem_of_cachedLabel hyields
  rw [← hlabel]
  exact (fresh_of_reached h).cached finished hreturned e he

end

/-! ### A read overtaken by 2⁶⁴ forgets -/

section

variable {Key Label : Type} [DecidableEq Key]

theorem PromptlyReached.reached {s : State Key Label} (h : PromptlyReached s) : Reached s :=
  Relation.ReflTransGen.mono (fun _ _ hstep => hstep.2) _ _ h

/-- Reads are prompt while there have been fewer than 2⁶⁴ forgets in all. -/
theorem promptly_step {s s' : State Key Label} {i : Nat} (h : PromptlyReached s)
    (hfew : s.forgets < 2 ^ 64) (hstep : Step s i s') : PromptlyReached s' := by
  refine Relation.ReflTransGen.tail h ⟨?_, i, hstep⟩
  intro j key now readGen count since label _
  omega

/-- Thread `i` alone forgets `n` times. -/
theorem reached_forgets {s : State Key Label} (hs : Reached s) {i : Nat}
    (hidle : s.threads i = .idle) (hlock : s.lock = none) (hcache : s.cache = []) (n : Nat) :
    ∃ s', Reached s' ∧ s'.generation = s.generation + UInt64.ofNat n ∧
      s'.threads = s.threads ∧ s'.lock = none ∧ s'.cache = [] ∧ s'.returned = s.returned := by
  induction n with
  | zero => exact ⟨s, hs, (UInt64.add_zero _).symm, rfl, hlock, hcache, rfl⟩
  | succ n ih =>
      obtain ⟨s₁, hreached, hgen, hthreads, hlock₁, hcache₁, hreturned⟩ := ih
      have hidle₁ : s₁.threads i = .idle := (congrFun hthreads i).trans hidle
      have hbump : Step s₁ i (s₁.bump i .nothing) := Step.forget hidle₁ hlock₁
      have hclear : Step (s₁.bump i .nothing) i ((s₁.bump i .nothing).clear i .nothing) :=
        Step.clear (Function.update_self i _ _)
      refine ⟨_, (hreached.tail ⟨i, hbump⟩).tail ⟨i, hclear⟩, ?_, ?_, rfl, rfl, hreturned⟩
      · rw [← ofNat_succ, ← UInt64.add_assoc, ← hgen]
        rfl
      · refine (Function.update_idem _ _ _).trans ?_
        rw [← hthreads, ← hidle₁]
        exact Function.update_eq_self i _

/-- Reads of names of one key, as units. -/
abbrev UnitState : Type := State Unit Unit

/-- A scan has read the key at time 2. -/
def scanned : UnitState :=
  ((State.initial.goes 0 (.missed () 0)).goes 0 (.reading () 0 0 0 1)).goes 0
    (.read () 0 0 0 1 ⟨(), 2⟩)

/-- Then a write has run, to time 5. -/
def scannedWritten : UnitState :=
  ((scanned.bump 1 .write).clear 1 .write).goes 1 (.written 5)

/-- And it has returned. -/
def scannedReturned : UnitState := (scannedWritten.bump 1 (.finished 5)).clear 1 (.finished 5)

theorem promptly_scanned : PromptlyReached scanned := by
  have hmiss : PromptlyReached (State.initial.goes 0 (.missed () 0) : UnitState) :=
    promptly_step Relation.ReflTransGen.refl (by decide) (Step.miss rfl rfl rfl)
  have htaken : PromptlyReached ((State.initial.goes 0 (.missed () 0)).goes 0
      (.reading () 0 0 0 1) : UnitState) :=
    promptly_step hmiss (by decide) (Step.takeGeneration rfl)
  exact promptly_step htaken (by decide) (Step.readKey () rfl)

theorem promptly_scannedReturned : PromptlyReached scannedReturned := by
  have hstarted : PromptlyReached (scanned.bump 1 .write) :=
    promptly_step promptly_scanned (by decide) (Step.startWrite rfl rfl)
  have hwriting : PromptlyReached ((scanned.bump 1 .write).clear 1 .write) :=
    promptly_step hstarted (by decide) (Step.clear rfl)
  have hwritten : PromptlyReached scannedWritten :=
    promptly_step hwriting (by decide) (Step.finishWrite rfl)
  have hbumped : PromptlyReached (scannedWritten.bump 1 (.finished 5)) :=
    promptly_step hwritten (by decide) (Step.forgetAgain rfl rfl)
  exact promptly_step hbumped (by decide) (Step.clear rfl)

/-- What was read before the write is kept once the generation has come round. -/
theorem stale_after_wrap :
    ∃ s : UnitState, Reached s ∧ ∃ finished ∈ s.returned, ∃ key now label,
      cachedLabel s.cache key now = some label ∧ label.readAt ≤ finished := by
  obtain ⟨s, hreached, hgen, hthreads, hlock, hcache, hreturned⟩ :=
    reached_forgets promptly_scannedReturned.reached (i := 2) rfl rfl rfl (2 ^ 64 - 2)
  have hthread : s.threads 0 = .read () 0 0 0 1 ⟨(), 2⟩ := congrFun hthreads 0
  have hzero : s.generation = 0 := hgen
  refine ⟨_, hreached.tail ⟨0, Step.keep hthread hlock⟩, 5, ?_, (), 0, ⟨(), 2⟩, ?_, by decide⟩
  · exact hreturned ▸ List.mem_cons_self
  · rw [hcache, hzero]
    rfl

/-- A second scan, after the write, of which the read at time 10 is kept. -/
def rescanned : UnitState :=
  { (((scannedReturned.goes 2 (.missed () 0)).goes 2 (.reading () 0 2 2 9)).goes 2
      (.read () 0 2 2 9 ⟨(), 10⟩)).goes 2 .idle with
    cache := [((), 0, ⟨(), 10⟩)] }

theorem promptly_rescanned : PromptlyReached rescanned := by
  have hmiss : PromptlyReached (scannedReturned.goes 2 (.missed () 0)) :=
    promptly_step promptly_scannedReturned (by decide) (Step.miss rfl rfl rfl)
  have htaken : PromptlyReached ((scannedReturned.goes 2 (.missed () 0)).goes 2
      (.reading () 0 2 2 9)) :=
    promptly_step hmiss (by decide) (Step.takeGeneration rfl)
  have hread : PromptlyReached (((scannedReturned.goes 2 (.missed () 0)).goes 2
      (.reading () 0 2 2 9)).goes 2 (.read () 0 2 2 9 ⟨(), 10⟩)) :=
    promptly_step htaken (by decide) (Step.readKey () rfl)
  have hkept := promptly_step (i := 2) hread (by decide) (Step.keep rfl rfl)
  exact hkept

theorem fresh_after_write :
    cachedLabel rescanned.cache () 0 = some ⟨(), 10⟩ ∧
      5 < (⟨(), 10⟩ : Stamped Unit).readAt := by
  have hyields : cachedLabel rescanned.cache () 0 = some ⟨(), 10⟩ := rfl
  have hreturned : 5 ∈ rescanned.returned := List.mem_cons_self
  exact ⟨hyields, no_stale_name promptly_rescanned hreturned hyields⟩

end

end Keyroost.Resolve
