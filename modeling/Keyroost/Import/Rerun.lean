import Mathlib.Logic.Function.Basic
import Keyroost.Import.PlanRows
import Keyroost.Import.RunSound

/-!
# Running the same import again

An honest key is a finite map from names to codes that refuses an add whose name is there and says
what it did; it may still refuse anything for other reasons (`HonestStore`). The planner of
`keyroost-import/src/plan.rs` and the write loop of `keyroost-import/src/run.rs` are run twice
against it, the second time with what the key then holds.

Whatever a first run came to, planning the same items again finds every code that went through under
the same name, and a second run without replacing changes no code. On a Molto2, which keeps no
names, the same slot is written again. `rerunSafe` states both, and a finite map shows that honest
keys exist.
-/

namespace Keyroost.Import

variable {σ : Type}

/-- What a key stores under a name. -/
abbrev StoredCode := ImportEntry × Bool

/-- A key that is a map from names to codes and is honest about it: an add stores the code under a
name that was free or says that the name is taken, and a call that fails changes no code. `mapStore`
is one. -/
structure HonestStore (σ : Type) extends CodeStore σ where
  code : σ → StoredName → Option StoredCode
  /-- What a listing shows. -/
  names : σ → List StoredName
  mem_names : ∀ s n, n ∈ names s ↔ (code s n).isSome = true
  add_ok : ∀ {s n e t s'}, add s n e t = (.ok (), s') →
    code s n = none ∧ code s' = Function.update (code s) n (some (e, t))
  add_exists : ∀ {s n e t s'}, add s n e t = (.error .exists_, s') → (code s n).isSome = true
  add_error : ∀ {s n e t why s'}, add s n e t = (.error why, s') → code s' = code s
  delete_ok : ∀ {s n s'}, delete s n = (.ok (), s') → code s' = Function.update (code s) n none
  delete_error : ∀ {s n why s'}, delete s n = (.error why, s') → code s' = code s

/-! ### What calls do to the codes of an honest key -/

variable {store : HonestStore σ}

theorem HonestStore.add_keeps {s s' : σ} {n m : StoredName} {e : ImportEntry} {t : Bool}
    {answer : Except StoreError Unit} {c : StoredCode}
    (hadd : store.add s n e t = (answer, s')) (hcode : store.code s m = some c) :
    store.code s' m = some c := by
  cases answer with
  | error why => rwa [store.add_error hadd]
  | ok _ =>
      obtain ⟨hnone, hupdate⟩ := store.add_ok hadd
      have hne : m ≠ n := by
        rintro rfl
        rw [hnone] at hcode
        cases hcode
      rwa [hupdate, Function.update_of_ne hne]

theorem HonestStore.delete_keeps {s s' : σ} {n m : StoredName}
    {answer : Except StoreError Unit} {c : StoredCode} (hne : m ≠ n)
    (hdelete : store.delete s n = (answer, s')) (hcode : store.code s m = some c) :
    store.code s' m = some c := by
  cases answer with
  | error why => rwa [store.delete_error hdelete]
  | ok _ => rwa [store.delete_ok hdelete, Function.update_of_ne hne]

/-- A code that no call deletes stays as it is. -/
theorem Made.keeps {s t : σ} {calls : List Call} (hmade : Made store.toCodeStore s calls t)
    {n : StoredName} {c : StoredCode}
    (hkeep : ∀ answer, Call.delete n answer ∉ calls) (hcode : store.code s n = some c) :
    store.code t n = some c := by
  induction hmade with
  | nil s => exact hcode
  | add hadd _ ih =>
      exact ih (fun answer h => hkeep answer (List.mem_cons_of_mem _ h))
        (store.add_keeps hadd hcode)
  | @delete _ _ _ m answer _ hdelete _ ih =>
      have hne : n ≠ m := by
        rintro rfl
        exact hkeep answer List.mem_cons_self
      exact ih (fun answer h => hkeep answer (List.mem_cons_of_mem _ h))
        (store.delete_keeps hne hdelete hcode)

theorem Made.split {store : CodeStore σ} {s u : σ} {calls more : List Call}
    (hmade : Made store s (calls ++ more) u) :
    ∃ t, Made store s calls t ∧ Made store t more u := by
  induction calls generalizing s with
  | nil => exact ⟨s, .nil s, hmade⟩
  | cons call calls ih =>
      cases hmade with
      | add hadd hrest =>
          obtain ⟨t, hcalls, hmore⟩ := ih hrest
          exact ⟨t, .add hadd hcalls, hmore⟩
      | delete hdelete hrest =>
          obtain ⟨t, hcalls, hmore⟩ := ih hrest
          exact ⟨t, .delete hdelete hcalls, hmore⟩

/-- An add that went through, or found its name, leaves the name on the key. -/
theorem HonestStore.add_there {s s' : σ} {n : StoredName} {e : ImportEntry} {t : Bool}
    {answer : Except StoreError Unit} (hadd : store.add s n e t = (answer, s'))
    (hanswer : answer = .ok () ∨ answer = .error .exists_) : (store.code s' n).isSome = true := by
  rcases hanswer with rfl | rfl
  · rw [(store.add_ok hadd).2, Function.update_self]
    rfl
  · rw [store.add_error hadd]
    exact store.add_exists hadd

/-- A row that went through left its name on the key. -/
theorem there_of_wentThrough {file : ImportFile} {plan : Plan} {row : PlanRow}
    {calls : List Call} {outcome : Outcome} {s t : σ}
    (hwrote : RowWrote file plan row calls outcome) (hthrough : outcome.wentThrough = true)
    (hmade : Made store.toCodeStore s calls t) :
    ∃ n, row.name = some n ∧ (store.code t n).isSome = true := by
  cases hwrote with
  | skipped hrest =>
      rw [← hrest, Outcome.wentThrough_rest] at hthrough
      cases hthrough
  | nameless _ => cases hthrough
  | unjoined _ => cases hthrough
  | @added name _ _ hname _ _ =>
      cases hmade with
      | add hadd hrest =>
          cases hrest
          exact ⟨name, hname, store.add_there hadd (.inl rfl)⟩
  | @there name _ _ hname _ _ _ =>
      cases hmade with
      | add hadd hrest =>
          cases hrest
          exact ⟨name, hname, store.add_there hadd (.inr rfl)⟩
  | refused _ _ _ _ hnot =>
      rw [hnot] at hthrough
      cases hthrough
  | kept _ _ _ _ => cases hthrough
  | lost _ _ _ _ => cases hthrough
  | @replaced name _ _ hname _ _ _ =>
      cases hmade with
      | add _ hrest =>
          cases hrest with
          | delete _ hrest =>
              cases hrest with
              | add hadd hrest =>
                  cases hrest
                  exact ⟨name, hname, store.add_there hadd (.inl rfl)⟩

/-! ### The first run -/

/-- A run whose rows have names of their own leaves on the key the name of every row
that went through. -/
theorem there_after_run {file : ImportFile} {plan : Plan} {s : σ}
    (hnames : plan.writes.Pairwise fun a b => a.name ≠ b.name) {r : RowRun}
    (hr : r ∈ (run file plan store.toCodeStore s).rows) (hthrough : r.outcome.wentThrough = true) :
    ∃ n, r.row.name = some n ∧
      (store.code (run file plan store.toCodeStore s).state n).isSome = true := by
  have hsound := runSound_run file plan store.toCodeStore s
  obtain ⟨before, after, hrows⟩ := List.append_of_mem hr
  have hmade := hsound.made
  rw [hrows, List.flatMap_append, List.flatMap_cons] at hmade
  obtain ⟨t, -, hrest⟩ := hmade.split
  obtain ⟨u, hown, hlater⟩ := hrest.split
  obtain ⟨n, hn, hthere⟩ := there_of_wentThrough (hsound.wrote r hr) hthrough hown
  obtain ⟨c, hc⟩ := Option.isSome_iff_exists.mp hthere
  refine ⟨n, hn, ?_⟩
  -- The rows after this one have other names, and delete only their own.
  have hnamesRows : (run file plan store.toCodeStore s).rows.Pairwise
      fun a b => a.row.name ≠ b.row.name := by
    rw [← hsound.rows, List.pairwise_map] at hnames
    exact hnames
  rw [hrows, List.pairwise_append] at hnamesRows
  have hapart := (List.pairwise_cons.mp hnamesRows.2.1).1
  have hkeep : ∀ answer, Call.delete n answer ∉ after.flatMap (·.calls) := by
    intro answer hcall
    obtain ⟨later, hlaterMem, hdelete⟩ := List.mem_flatMap.mp hcall
    have hlaterRow : later ∈ (run file plan store.toCodeStore s).rows := by
      rw [hrows]
      exact List.mem_append_right _ (List.mem_cons_of_mem _ hlaterMem)
    have hown := (hsound.honest later hlaterRow).own _ hdelete
    exact hapart later hlaterMem (hn.trans hown.symm)
  rw [hlater.keeps hkeep hc]
  rfl

/-! ### The second plan -/

/-- The same import again: against what the key holds, without replacing. -/
def Target.again (target : Target) (names : List StoredName) (hidden : Nat) : Target :=
  { target with existing := { names, hidden }, replace := false }

/-- What the second plan says of a code that went through. -/
def againVerdict (store : Store) : Verdict := if store = .molto2 then .replace else .exists_

theorem again_named {target : Target} (hstore : target.store ≠ .molto2)
    {before : List ImportItem} {item : ImportItem} {n : StoredName} {names : List StoredName}
    {hidden : Nat} (hname : namedAs target.store item = some n)
    (hfirst : ∀ earlier ∈ before, namedAs target.store earlier ≠ some n) (hthere : n ∈ names) :
    (planStep (target.again names hidden) (stateAfter (target.again names hidden) before)
        item).1.name = some n ∧
      (planStep (target.again names hidden) (stateAfter (target.again names hidden) before)
        item).1.verdict = .exists_ := by
  have hagain : (target.again names hidden).store ≠ .molto2 := hstore
  have hnameAgain : namedAs (target.again names hidden).store item = some n := hname
  simp only [planStep, decideItem_named hagain hnameAgain, Decision.row]
  have hcases := named_decideNamed (target.again names hidden)
    (stateAfter (target.again names hidden) before) item.index n
  generalize decideNamed (target.again names hidden)
    (stateAfter (target.again names hidden) before) item.index n = d at hcases ⊢
  cases hcases with
  | repeated first hseen =>
      obtain ⟨earlier, hearlier, hsame⟩ := seen_stateAfter hagain hseen
      exact absurd hsame (hfirst earlier hearlier)
  | there _ _ _ => exact ⟨rfl, rfl⟩
  | starts _ hwrite _ => cases hwrite hthere
  | added _ hnone _ => exact absurd hthere hnone
  | replaced _ _ hreplace _ => cases hreplace

theorem again_slot {target : Target} (hstore : target.store = .molto2) {before : List ImportItem}
    {item : ImportItem} {title : RustStr} {names : List StoredName} {hidden : Nat}
    (htitle : slotTitle item = some title)
    (hlast : (stateAfter target before).nextSlot ≤ MOLTO_LAST_SLOT)
    (hthere : .molto2 (stateAfter target before).nextSlot.toUInt8 title ∈ names) :
    (planStep (target.again names hidden) (stateAfter (target.again names hidden) before)
        item).1.name = some (.molto2 (stateAfter target before).nextSlot.toUInt8 title) ∧
      (planStep (target.again names hidden) (stateAfter (target.again names hidden) before)
        item).1.verdict = .replace := by
  have hagain : (target.again names hidden).store = .molto2 := hstore
  have hfirst : (target.again names hidden).firstSlot = target.firstSlot := rfl
  have hnext : (stateAfter (target.again names hidden) before).nextSlot =
      (stateAfter target before).nextSlot := by
    have hcount := nextSlot_stateAfter hstore before
    have hcountAgain := nextSlot_stateAfter hagain before
    rw [hfirst] at hcountAgain
    omega
  have hoccupied : slotOccupied (target.again names hidden).existing
      (stateAfter target before).nextSlot.toUInt8 = true :=
    List.any_eq_true.mpr ⟨_, hthere, by simp⟩
  simp only [planStep, decideItem_slot hagain htitle, Decision.row, hnext,
    if_neg (Nat.not_lt.mpr hlast), hoccupied, if_true, and_self]

/-- A row that was written is, against a key that holds its name, named the same and
there already (on a Molto2: replaced again, in the same slot). -/
theorem again_of_writes {target : Target} {before : List ImportItem} {item : ImportItem}
    {n : StoredName} {names : List StoredName} {hidden : Nat}
    (hwrites : (planStep target (stateAfter target before) item).1.writes = true)
    (hname : (planStep target (stateAfter target before) item).1.name = some n)
    (hthere : n ∈ names) :
    (planStep (target.again names hidden) (stateAfter (target.again names hidden) before)
        item).1.name = some n ∧
      (planStep (target.again names hidden) (stateAfter (target.again names hidden) before)
        item).1.verdict = againVerdict target.store := by
  by_cases hstore : target.store = .molto2
  · rw [againVerdict, if_pos hstore]
    have hturn := turn_decideItem target (stateAfter target before) item
    simp only [planStep] at hwrites hname
    generalize decideItem target (stateAfter target before) item = d at hturn hwrites hname
    cases hturn with
    | refused hrefuses _ => simp [PlanRow.writes, Decision.row, hrefuses.1] at hwrites
    | named hnamed _ _ => exact absurd hstore hnamed
    | slot _ htitle hlast =>
        obtain rfl := Option.some.inj hname
        exact again_slot hstore htitle hlast hthere
  · rw [againVerdict, if_neg hstore]
    obtain ⟨m, hm, hnamed, hfirst⟩ := first_of_writes hstore hwrites
    obtain rfl := Option.some.inj (hm.symm.trans hname)
    exact again_named hstore hnamed hfirst hthere

/-! ### The second run -/

/-- A plan without replacing deletes nothing. -/
theorem no_delete {file : ImportFile} {target : Target} {wants : PlanRow → Bool}
    (hreplace : target.replace = false) {store : CodeStore σ} {s : σ} {n : StoredName}
    {answer : Except StoreError Unit} :
    Call.delete n answer ∉
      (run file ((plan file target).setTouch wants) store s).rows.flatMap (·.calls) := by
  intro hcall
  obtain ⟨r, hr, hdelete⟩ := List.mem_flatMap.mp hcall
  have hsound := runSound_run file ((plan file target).setTouch wants) store s
  obtain ⟨hstore, hverdict, -⟩ := (hsound.honest r hr).delete_after _ _ hdelete
  have hrow : r.row ∈ ((plan file target).setTouch wants).writes :=
    hsound.rows ▸ List.mem_map.mpr ⟨r, hr, rfl⟩
  obtain ⟨row, hmem, -, hsame⟩ :=
    Pass.exists_of_mem_right (writes_setTouch file target wants) hrow
  obtain ⟨item, -, hrowSound⟩ :=
    Pass.exists_of_mem_right (rowSound_planRows file.items target) (List.mem_filter.mp hmem).1
  rcases hverdict with hv | hplan
  · obtain ⟨-, -, -, hasked⟩ := hrowSound.replace (hsame.symm.trans hv)
    rw [hasked hstore] at hreplace
    cases hreplace
  · have hsame : ((plan file target).setTouch wants).replace = target.replace := rfl
    rw [hsame, hreplace] at hplan
    cases hplan

/-- What a second import of a file promises, after a first: it finds what went through, and it
changes no code that is on the key. -/
structure RerunSafe (file : ImportFile) (target : Target) (first : Plan) (ran : RunResult σ)
    (second : Plan) (reran : RunResult σ) (store : HonestStore σ) : Prop where
  /-- Every row that went through is planned under the name it was stored under (on a
  Molto2, for the slot it was written to), as already there. -/
  there : ∀ a b, (a, b) ∈ first.rows.zip second.rows → ∀ r ∈ ran.rows, r.row = a →
    r.outcome.wentThrough = true →
      b.name = a.name ∧ b.name ≠ none ∧ b.verdict = againVerdict target.store
  /-- Every code on the key, whoever wrote it, is still there and the same. -/
  unchanged : ∀ n c, store.code ran.state n = some c → store.code reran.state n = some c

/-- **Running an import again is safe**, however the first run went: on an honest key
every row that went through is planned under the same name as already there (on a
Molto2 as a write of the same slot), and the second run changes no code. -/
theorem rerunSafe (store : HonestStore σ) (s : σ) (file : ImportFile) (target : Target)
    (wants wantsAgain : PlanRow → Bool) (hidden : Nat) :
    let first := (plan file target).setTouch wants
    let ran := run file first store.toCodeStore s
    let again := target.again (store.names ran.state) hidden
    let second := (plan file again).setTouch wantsAgain
    let reran := run file second store.toCodeStore ran.state
    RerunSafe file target first ran second reran store := by
  intro first ran again second reran
  refine ⟨?_, ?_⟩
  · rintro a b hpair r hr rfl hthrough
    obtain ⟨n, hn, hthere⟩ := there_after_run (distinct_writes file target wants) hr hthrough
    have hlen : first.rows.length = second.rows.length := by
      rw [length_setTouch_rows, length_setTouch_rows]
    obtain ⟨before, after, hzip⟩ := List.append_of_mem hpair
    obtain ⟨hfirst, hsecond⟩ := Pass.zip_split hlen hzip
    obtain ⟨items, item, rest, hitems, hlenItems, hcarried⟩ := item_at hfirst
    have hcarriedAgain := carried_at hitems hsecond (by simpa using hlenItems)
    have hmem : r.row ∈ first.writes :=
      (runSound_run file first store.toCodeStore s).rows ▸ List.mem_map.mpr ⟨r, hr, rfl⟩
    have hwrites := hcarried.writes (List.mem_filter.mp hmem).2
    obtain ⟨hname, hverdict⟩ : (planStep again (stateAfter again items) item).1.name = some n ∧
        (planStep again (stateAfter again items) item).1.verdict = againVerdict target.store :=
      again_of_writes hwrites (hcarried.name ▸ hn) ((store.mem_names _ _).mpr hthere)
    have hsame : b.name = some n := hcarriedAgain.name.trans hname
    refine ⟨hsame.trans hn.symm, ?_, ?_⟩
    · rw [hsame]
      exact Option.some_ne_none n
    · rcases hcarriedAgain.verdict with h | ⟨hadd, -⟩
      · exact h.trans hverdict
      · rw [hverdict, againVerdict] at hadd
        split at hadd <;> cases hadd
  · intro n c hcode
    have hsound := runSound_run file second store.toCodeStore ran.state
    exact hsound.made.keeps (fun answer => no_delete rfl) hcode

/-! ### A Molto2 is written again -/

theorem lookup_cons_of_ne {n m : StoredName} (c : StoredCode) (s : List (StoredName × StoredCode))
    (hne : m ≠ n) : ((n, c) :: s).lookup m = s.lookup m := by
  have hbeq : (m == n) = false := beq_false_of_ne hne
  simp only [List.lookup_cons, hbeq]

theorem lookup_filter_ne (n m : StoredName) (s : List (StoredName × StoredCode)) :
    (s.filter fun pair => pair.1 ≠ n).lookup m = if m = n then none else s.lookup m := by
  induction s with
  | nil => simp
  | cons pair s ih =>
      obtain ⟨k, c⟩ := pair
      by_cases hk : k = n
      · rw [List.filter_cons_of_neg (by simpa using hk), ih]
        by_cases hm : m = n
        · rw [if_pos hm, if_pos hm]
        · rw [if_neg hm, if_neg hm, lookup_cons_of_ne c s (by rwa [hk])]
      · rw [List.filter_cons_of_pos (by simpa using hk)]
        by_cases hm : m = k
        · have hn : ¬m = n := by rwa [hm]
          rw [if_neg hn, hm, List.lookup_cons_self, List.lookup_cons_self]
        · rw [lookup_cons_of_ne c _ hm, lookup_cons_of_ne c s hm, ih]

/-- The honest key that is a list of its codes and refuses nothing else. -/
def mapStore : HonestStore (List (StoredName × StoredCode)) where
  add := fun s n e t =>
    if (s.lookup n).isSome then (.error .exists_, s) else (.ok (), (n, (e, t)) :: s)
  delete := fun s n => (.ok (), s.filter fun pair => pair.1 ≠ n)
  code := fun s n => s.lookup n
  names := fun s => s.map (·.1)
  mem_names := by
    intro s n
    induction s with
    | nil => simp
    | cons pair s ih =>
        by_cases h : n = pair.1
        · simp [h]
        · simp [h, lookup_cons_of_ne _ s h, ih]
  add_ok := by
    intro s n e t s' h
    cases hcode : s.lookup n with
    | some c => simp [hcode] at h
    | none =>
        simp only [hcode, Option.isSome_none, Bool.false_eq_true, if_false, Prod.mk.injEq,
          true_and] at h
        refine ⟨rfl, ?_⟩
        funext m
        by_cases hm : m = n
        · simp [← h, hm]
        · rw [← h, lookup_cons_of_ne _ s hm, Function.update_of_ne hm]
  add_exists := by
    intro s n e t s' h
    cases hcode : s.lookup n with
    | some c => rfl
    | none => simp [hcode] at h
  add_error := by
    intro s n e t why s' h
    cases hcode : s.lookup n with
    | some c =>
        simp only [hcode, Option.isSome_some, if_true, Prod.mk.injEq] at h
        rw [h.2]
    | none => simp [hcode] at h
  delete_ok := by
    intro s n s' h
    obtain rfl : _ = s' := (Prod.mk.inj h).2
    funext m
    rw [lookup_filter_ne, Function.update_apply]
  delete_error := by
    intro s n why s' h
    cases (Prod.mk.inj h).1

def emptyMolto2 : Target where
  store := .molto2
  firstSlot := 0
  existing := { names := [], hidden := 0 }
  replace := false

/-- On a Molto2 the rows of a first import that went through are planned as writes
the second time, not as already there. -/
theorem emptyMolto2_written_again :
    let ran := run twoAccounts (plan twoAccounts emptyMolto2) mapStore.toCodeStore []
    let again := emptyMolto2.again (mapStore.names ran.state) 0
    ran.rows.map (·.outcome) = [.added, .added] ∧
      (plan twoAccounts again).rows.map (·.verdict) = [.replace, .replace] := by
  decide

end Keyroost.Import
