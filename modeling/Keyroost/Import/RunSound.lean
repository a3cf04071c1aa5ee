import Keyroost.Library.Pass
import Keyroost.Import.Run

/-!
# A run is honest, whatever the key does

The key behind the write loop of `keyroost-import/src/run.rs` may refuse, run out of room, be
removed or fail between the two halves of a replace. `RowWrote` lists everything one row can then
have done, one constructor for each way through the source; it is the only place where the code of
one row is taken apart.

The facts about a whole run follow from it and from the rules for a pass: `runSound_run` says that
store calls are made only for the rows that write and in their order, that nothing is deleted that
the row may not replace, that every row is tried up to the first that does not go through and none
after it, and that the report says so.
-/

namespace Keyroost.Import

variable {σ : Type}

/-! ### What was done to the key -/

/-- Making the calls on the key, one after the other, gives the answers they
carry. -/
inductive Made (store : CodeStore σ) : σ → List Call → σ → Prop
  | nil (s : σ) : Made store s [] s
  | add {s t u : σ} {name : StoredName} {entry : ImportEntry} {touch : Bool}
      {answer : Except StoreError Unit} {calls : List Call}
      (hadd : store.add s name entry touch = (answer, t)) (hrest : Made store t calls u) :
      Made store s (.add name entry touch answer :: calls) u
  | delete {s t u : σ} {name : StoredName} {answer : Except StoreError Unit} {calls : List Call}
      (hdelete : store.delete s name = (answer, t)) (hrest : Made store t calls u) :
      Made store s (.delete name answer :: calls) u

theorem Made.append {store : CodeStore σ} {s t u : σ} {calls more : List Call}
    (hcalls : Made store s calls t) (hmore : Made store t more u) :
    Made store s (calls ++ more) u := by
  induction hcalls with
  | nil s => exact hmore
  | add hadd _ ih => exact .add hadd (ih hmore)
  | delete hdelete _ ih => exact .delete hdelete (ih hmore)

/-! ### One row -/

/-- What the rows after one become when it ends the run. -/
def Outcome.rest (outcome : Outcome) : Outcome :=
  if outcome = .noRoom then .noRoom else .notTried

theorem Outcome.wentThrough_rest (outcome : Outcome) : outcome.rest.wentThrough = false := by
  unfold Outcome.rest
  split <;> rfl

@[simp] theorem Outcome.rest_rest (outcome : Outcome) : outcome.rest.rest = outcome.rest := by
  unfold Outcome.rest
  split <;> rfl

/-- Everything one row may have done: its calls, and its outcome. Without a call it was not tried,
or had no name, or its item is no longer there; the other cases follow the answers of the key. -/
inductive RowWrote (file : ImportFile) (plan : Plan) (row : PlanRow) : List Call → Outcome → Prop
  | skipped {outcome : Outcome} (hrest : outcome.rest = outcome) :
      RowWrote file plan row [] outcome
  | nameless (hname : row.name = none) : RowWrote file plan row [] (.failed noNameMessage)
  | unjoined (hitem : ∀ item entry, findItem file row = some item → item.entry ≠ .ok entry) :
      RowWrote file plan row [] (.failed noLongerInFileMessage)
  | added {name : StoredName} {item : ImportItem} {entry : ImportEntry}
      (hname : row.name = some name) (hitem : findItem file row = some item)
      (hentry : item.entry = .ok entry) :
      RowWrote file plan row [.add name entry row.touch (.ok ())]
        (if row.replacing then .replaced else .added)
  | there {name : StoredName} {item : ImportItem} {entry : ImportEntry}
      (hname : row.name = some name) (hitem : findItem file row = some item)
      (hentry : item.entry = .ok entry) (hmay : mayReplace plan row = false) :
      RowWrote file plan row [.add name entry row.touch (.error .exists_)] .alreadyThere
  | refused {name : StoredName} {item : ImportItem} {entry : ImportEntry} {why : StoreError}
      {outcome : Outcome} (hname : row.name = some name) (hitem : findItem file row = some item)
      (hentry : item.entry = .ok entry) (hwhy : why ≠ .exists_)
      (hnot : outcome.wentThrough = false) :
      RowWrote file plan row [.add name entry row.touch (.error why)] outcome
  | kept {name : StoredName} {item : ImportItem} {entry : ImportEntry} {why : StoreError}
      (hname : row.name = some name) (hitem : findItem file row = some item)
      (hentry : item.entry = .ok entry) (hmay : mayReplace plan row = true) :
      RowWrote file plan row
        [.add name entry row.touch (.error .exists_), .delete name (.error why)]
        (.failed why.display)
  | lost {name : StoredName} {item : ImportItem} {entry : ImportEntry} {why : StoreError}
      (hname : row.name = some name) (hitem : findItem file row = some item)
      (hentry : item.entry = .ok entry) (hmay : mayReplace plan row = true) :
      RowWrote file plan row
        [.add name entry row.touch (.error .exists_), .delete name (.ok ()),
          .add name entry row.touch (.error why)]
        (.removedNotAdded why.display)
  | replaced {name : StoredName} {item : ImportItem} {entry : ImportEntry}
      (hname : row.name = some name) (hitem : findItem file row = some item)
      (hentry : item.entry = .ok entry) (hmay : mayReplace plan row = true) :
      RowWrote file plan row
        [.add name entry row.touch (.error .exists_), .delete name (.ok ()),
          .add name entry row.touch (.ok ())]
        .replaced

/-- The stop that belongs to an outcome: none if the row went through. -/
def StopFits (outcome : Outcome) (stop : Option Stop) : Prop :=
  if outcome.wentThrough then stop = none else ∃ st, stop = some st ∧ st.rest = outcome.rest

theorem stopFits_fail (m : RustStr) : StopFits (fail m).1 (fail m).2 :=
  ⟨{ reason := m, rest := .notTried }, rfl, rfl⟩

theorem stopFits_full : StopFits full.1 full.2 :=
  ⟨{ reason := StoreError.full.display, rest := .noRoom }, rfl, rfl⟩

/-- The whole of what `writeOne` promises: its calls and outcome are ones that the row may have, the
calls are what took the key from one state to the other, and it stops exactly where a run has to. -/
structure WroteSound (file : ImportFile) (plan : Plan) (row : PlanRow) (store : CodeStore σ)
    (s : σ) (wrote : Wrote σ) : Prop where
  row : RowWrote file plan row wrote.calls wrote.outcome
  made : Made store s wrote.calls wrote.state
  stop : StopFits wrote.outcome wrote.stop

theorem replaceEntry_sound {file : ImportFile} {plan : Plan} {row : PlanRow}
    {store : CodeStore σ} {s t : σ} {name : StoredName} {item : ImportItem} {entry : ImportEntry}
    (hname : row.name = some name) (hitem : findItem file row = some item)
    (hentry : item.entry = .ok entry) (hmay : mayReplace plan row = true)
    (hadd : store.add s name entry row.touch = (.error .exists_, t)) :
    WroteSound file plan row store s
      (replaceEntry store t name entry row.touch
        [.add name entry row.touch (.error .exists_)]) := by
  cases hdelete : store.delete t name with
  | mk answer u =>
      cases answer with
      | error why =>
          simp only [replaceEntry, hdelete]
          exact ⟨.kept hname hitem hentry hmay, .add hadd (.delete hdelete (.nil u)),
            stopFits_fail _⟩
      | ok _ =>
          cases hagain : store.add u name entry row.touch with
          | mk answer v =>
              simp only [replaceEntry, addAgain, hdelete, hagain]
              cases answer with
              | error why =>
                  exact ⟨.lost hname hitem hentry hmay,
                    .add hadd (.delete hdelete (.add hagain (.nil v))), ⟨_, rfl, rfl⟩⟩
              | ok _ =>
                  exact ⟨.replaced hname hitem hentry hmay,
                    .add hadd (.delete hdelete (.add hagain (.nil v))), rfl⟩

theorem writeEntry_sound {file : ImportFile} {plan : Plan} {row : PlanRow}
    {store : CodeStore σ} {s : σ} {name : StoredName} {item : ImportItem} {entry : ImportEntry}
    (hname : row.name = some name) (hitem : findItem file row = some item)
    (hentry : item.entry = .ok entry) :
    WroteSound file plan row store s (writeEntry plan row store s name entry) := by
  cases hadd : store.add s name entry row.touch with
  | mk answer t =>
      simp only [writeEntry, hadd]
      cases answer with
      | ok _ =>
          refine ⟨.added hname hitem hentry, .add hadd (.nil t), ?_⟩
          cases row.replacing <;> rfl
      | error why =>
          cases why with
          | full =>
              exact ⟨.refused hname hitem hentry (by simp) rfl, .add hadd (.nil t), stopFits_full⟩
          | failed m =>
              exact ⟨.refused hname hitem hentry (by simp) rfl, .add hadd (.nil t),
                stopFits_fail m⟩
          | exists_ =>
              cases hmay : mayReplace plan row with
              | false => exact ⟨.there hname hitem hentry hmay, .add hadd (.nil t), rfl⟩
              | true => exact replaceEntry_sound hname hitem hentry hmay hadd

theorem writeOne_sound (file : ImportFile) (plan : Plan) (row : PlanRow) (store : CodeStore σ)
    (s : σ) : WroteSound file plan row store s (writeOne file plan row store s) := by
  unfold writeOne
  cases hname : row.name with
  | none => exact ⟨.nameless hname, .nil s, stopFits_fail _⟩
  | some name =>
      cases hitem : findItem file row with
      | none => exact ⟨.unjoined (by simp [hitem]), .nil s, stopFits_fail _⟩
      | some item =>
          obtain ⟨index, label, entry⟩ := item
          cases entry with
          | error why =>
              refine ⟨.unjoined ?_, .nil s, stopFits_fail _⟩
              rintro found entry hfound hentry
              obtain rfl := Option.some.inj (hitem.symm.trans hfound)
              cases hentry
          | ok entry => exact writeEntry_sound hname hitem rfl

/-! ### What follows for the calls of one row -/

def Call.isAdd : Call → Bool
  | .add .. => true
  | .delete .. => false

def Call.isDelete (call : Call) : Bool := !call.isAdd

def Call.name : Call → StoredName
  | .add name .. => name
  | .delete name _ => name

/-- The key took the row's code, or had it already and was left alone. -/
def RowRun.Stored (r : RowRun) : Prop :=
  (∃ name entry touch, r.calls.getLast? = some (.add name entry touch (.ok ()))) ∨
    ∃ name entry touch, r.calls = [.add name entry touch (.error .exists_)]

/-- The key was asked to add the row's code, or there was nothing to ask it: the row has no name,
or the file has no entry for it. -/
def RowRun.Tried (file : ImportFile) (r : RowRun) : Prop :=
  (∃ name entry answer rest, r.calls = .add name entry r.row.touch answer :: rest) ∨
    r.row.name = none ∨ ∀ item entry, findItem file r.row = some item → item.entry ≠ .ok entry

/-- How far one row may go on the key: calls for its own name alone, two stores and one deletion at
most, and a deletion only where the plan lets the name be replaced and the key has answered that it
exists. That it went through is said exactly when its code is stored. -/
structure RowHonest (plan : Plan) (r : RowRun) : Prop where
  own : ∀ call ∈ r.calls, r.row.name = some call.name
  adds : r.calls.countP (·.isAdd) ≤ 2
  deletes : r.calls.countP (·.isDelete) ≤ 1
  delete_after : ∀ name answer, Call.delete name answer ∈ r.calls →
    plan.store ≠ .molto2 ∧ (r.row.verdict = .replace ∨ plan.replace = true) ∧
      ∃ entry touch rest,
        r.calls = .add name entry touch (.error .exists_) :: .delete name answer :: rest
  through : r.outcome.wentThrough = true ↔ r.Stored

theorem mayReplace_eq_true {plan : Plan} {row : PlanRow} :
    mayReplace plan row = true ↔
      plan.store ≠ .molto2 ∧ (row.verdict = .replace ∨ plan.replace = true) := by
  simp [mayReplace, PlanRow.replacing]

theorem RowWrote.honest {file : ImportFile} {plan : Plan} {row : PlanRow} {calls : List Call}
    {outcome : Outcome} (hwrote : RowWrote file plan row calls outcome) :
    RowHonest plan { row, outcome, calls } := by
  cases hwrote with
  | skipped hrest =>
      have hnot : outcome.wentThrough = false := hrest ▸ outcome.wentThrough_rest
      exact ⟨by simp, by simp, by simp, by simp, by simp [hnot, RowRun.Stored]⟩
  | nameless _ =>
      exact ⟨by simp, by simp, by simp, by simp, by simp [RowRun.Stored, Outcome.wentThrough]⟩
  | unjoined _ =>
      exact ⟨by simp, by simp, by simp, by simp, by simp [RowRun.Stored, Outcome.wentThrough]⟩
  | added hname _ _ =>
      refine ⟨by simpa [Call.name] using hname, by simp [Call.isAdd],
        by simp [Call.isDelete, Call.isAdd], by simp, ?_⟩
      cases row.replacing <;> simp [RowRun.Stored, Outcome.wentThrough]
  | there hname _ _ _ =>
      exact ⟨by simpa [Call.name] using hname, by simp [Call.isAdd],
        by simp [Call.isDelete, Call.isAdd], by simp,
        by simp [RowRun.Stored, Outcome.wentThrough]⟩
  | refused hname _ _ hwhy hnot =>
      exact ⟨by simpa [Call.name] using hname, by simp [Call.isAdd],
        by simp [Call.isDelete, Call.isAdd], by simp, by simp [RowRun.Stored, hnot, hwhy]⟩
  | kept hname _ _ hmay =>
      refine ⟨by simpa [Call.name] using hname, by simp [Call.isAdd],
        by simp [Call.isDelete, Call.isAdd], ?_, by simp [RowRun.Stored, Outcome.wentThrough]⟩
      intro name answer hmem
      obtain ⟨rfl, rfl⟩ : name = _ ∧ answer = _ := by simpa using hmem
      obtain ⟨hstore, hreplace⟩ := mayReplace_eq_true.mp hmay
      exact ⟨hstore, hreplace, _, _, _, rfl⟩
  | lost hname _ _ hmay =>
      refine ⟨by simpa [Call.name] using hname, by simp [Call.isAdd],
        by simp [Call.isDelete, Call.isAdd], ?_, by simp [RowRun.Stored, Outcome.wentThrough]⟩
      intro name answer hmem
      obtain ⟨rfl, rfl⟩ : name = _ ∧ answer = _ := by simpa using hmem
      obtain ⟨hstore, hreplace⟩ := mayReplace_eq_true.mp hmay
      exact ⟨hstore, hreplace, _, _, _, rfl⟩
  | replaced hname _ _ hmay =>
      refine ⟨by simpa [Call.name] using hname, by simp [Call.isAdd],
        by simp [Call.isDelete, Call.isAdd], ?_, by simp [RowRun.Stored, Outcome.wentThrough]⟩
      intro name answer hmem
      obtain ⟨rfl, rfl⟩ : name = _ ∧ answer = _ := by simpa using hmem
      obtain ⟨hstore, hreplace⟩ := mayReplace_eq_true.mp hmay
      exact ⟨hstore, hreplace, _, _, _, rfl⟩

/-! ### The loop as a pass -/

/-- One turn of `run`'s loop, as a step of a pass. -/
def runStep (file : ImportFile) (plan : Plan) (store : CodeStore σ) :
    Option Stop × σ → PlanRow → RowRun × (Option Stop × σ)
  | (some stop, s), row => ({ row, outcome := stop.rest, calls := [] }, (some stop, s))
  | (none, s), row =>
      let wrote := writeOne file plan row store s
      ({ row, outcome := wrote.outcome, calls := wrote.calls }, (wrote.stop, wrote.state))

theorem runRows_eq_pass (file : ImportFile) (plan : Plan) (store : CodeStore σ)
    (stop : Option Stop) (s : σ) (rows : List PlanRow) :
    (runRows file plan store stop s rows).1 =
      Pass.pass (runStep file plan store) (stop, s) rows := by
  induction rows generalizing stop s with
  | nil => cases stop <;> rfl
  | cons row rows ih =>
      cases stop with
      | none => simp only [runRows, Pass.pass_cons, runStep, ih]
      | some stop => simp only [runRows, Pass.pass_cons, runStep, ih]

/-- The stop, if there is one, gives every later row the same outcome. -/
def StopSettled (state : Option Stop × σ) : Prop :=
  ∀ stop, state.1 = some stop → stop.rest.rest = stop.rest

theorem StopFits.rest_eq {outcome : Outcome} {stop : Option Stop} (hfits : StopFits outcome stop)
    (hnot : outcome.wentThrough = false) : ∃ st, stop = some st ∧ st.rest = outcome.rest := by
  simpa [StopFits, hnot] using hfits

theorem StopFits.settled {outcome : Outcome} {stop : Option Stop} (hfits : StopFits outcome stop)
    (s : σ) : StopSettled (stop, s) := by
  rintro st rfl
  cases hthrough : outcome.wentThrough with
  | true => simp [StopFits, hthrough] at hfits
  | false =>
      obtain ⟨st', hst', hrest⟩ := hfits.rest_eq hthrough
      obtain rfl := Option.some.inj hst'
      rw [hrest, Outcome.rest_rest]

/-- What one turn leaves for its row. -/
theorem runStep_wrote (file : ImportFile) (plan : Plan) (store : CodeStore σ)
    (state : Option Stop × σ) (row : PlanRow) (hstop : StopSettled state) :
    ((runStep file plan store state row).1.row = row ∧
      RowWrote file plan row (runStep file plan store state row).1.calls
        (runStep file plan store state row).1.outcome) ∧
      StopSettled (runStep file plan store state row).2 := by
  obtain ⟨stop, s⟩ := state
  cases stop with
  | some stop => exact ⟨⟨rfl, .skipped (hstop stop rfl)⟩, hstop⟩
  | none =>
      have hsound := writeOne_sound file plan row store s
      exact ⟨⟨rfl, hsound.row⟩, hsound.stop.settled _⟩

/-! ### A whole run -/

/-- What a stopping row means for every row after it. -/
def NothingAfter (a b : RowRun) : Prop :=
  a.outcome.wentThrough = false → b.calls = [] ∧ b.outcome = a.outcome.rest

/-- A row that `writeOne` is called for is tried. -/
theorem tried_writeOne (file : ImportFile) (plan : Plan) (row : PlanRow) (store : CodeStore σ)
    (s : σ) : RowRun.Tried file
      { row
        outcome := (writeOne file plan row store s).outcome
        calls := (writeOne file plan row store s).calls } := by
  by_cases hnameless : row.name = none
  · exact .inr (.inl hnameless)
  by_cases hunjoined : ∀ item entry, findItem file row = some item → item.entry ≠ .ok entry
  · exact .inr (.inr hunjoined)
  -- what is left of the rows that `RowWrote` lists begins with an add
  refine .inl ?_
  have hsound := (writeOne_sound file plan row store s).row
  have hasked : (writeOne file plan row store s).calls ≠ [] := by
    obtain ⟨name, hname⟩ := Option.ne_none_iff_exists'.mp hnameless
    push Not at hunjoined
    obtain ⟨⟨index, label, _⟩, entry, hitem, rfl⟩ := hunjoined
    unfold writeOne
    simp only [hname, hitem]
    unfold writeEntry replaceEntry addAgain
    repeat' split
    all_goals exact List.cons_ne_nil _ _
  cases hcalls : (writeOne file plan row store s).calls with
  | nil => exact absurd hcalls hasked
  | cons call rest =>
      rw [hcalls] at hsound
      generalize (writeOne file plan row store s).outcome = outcome at hsound
      cases hsound <;> exact ⟨_, _, _, _, rfl⟩

/-- As long as every row went through, the next one is tried. -/
theorem runRows_tried (file : ImportFile) (plan : Plan) (store : CodeStore σ)
    {before after : List RowRun} {r : RowRun} {rows : List PlanRow} {s : σ}
    (h : (runRows file plan store none s rows).1 = before ++ r :: after)
    (hthrough : ∀ b ∈ before, b.outcome.wentThrough = true) : r.Tried file := by
  induction before generalizing rows s with
  | nil =>
      cases rows with
      | nil => cases h
      | cons row rows =>
          obtain ⟨rfl, -⟩ := List.cons.inj h
          exact tried_writeOne file plan row store s
  | cons b before ih =>
      cases rows with
      | nil => cases h
      | cons row rows =>
          obtain ⟨rfl, hrest⟩ := List.cons.inj h
          have hwent := hthrough _ List.mem_cons_self
          have hstop := (writeOne_sound file plan row store s).stop
          rw [StopFits, if_pos hwent] at hstop
          rw [hstop] at hrest
          exact ih hrest fun b hb => hthrough b (List.mem_cons_of_mem _ hb)

/-- Everything a run promises of its records, its calls and its report: there is a record for every
row that writes and a call for nothing else, each row does what `RowWrote` and `RowHonest` allow,
nothing is called after a row that stops the run, and the report says what the records say. -/
structure RunSound (file : ImportFile) (plan : Plan) (store : CodeStore σ) (s : σ)
    (result : RunResult σ) : Prop where
  /-- One record per row that writes, in plan order. -/
  rows : result.rows.map (·.row) = plan.writes
  planned : ∀ r ∈ result.rows, r.row.verdict = .add ∨ r.row.verdict = .replace
  /-- The calls of the records are the calls made on the key, in this order. -/
  made : Made store s (result.rows.flatMap (·.calls)) result.state
  wrote : ∀ r ∈ result.rows, RowWrote file plan r.row r.calls r.outcome
  honest : ∀ r ∈ result.rows, RowHonest plan r
  stops : result.rows.Pairwise NothingAfter
  /-- Only a stop leaves a row untried. -/
  tried : ∀ before r after, result.rows = before ++ r :: after →
    (∀ b ∈ before, b.outcome.wentThrough = true) → r.Tried file
  reported : result.report.rows.map (fun row => (row.1, row.2.1)) =
    plan.writes.map (fun row => (row.index, row.shownLabel))
  ok : result.report.ok = true ↔ ∀ r ∈ result.rows, r.Stored

theorem runRows_made (file : ImportFile) (plan : Plan) (store : CodeStore σ)
    (stop : Option Stop) (s : σ) (rows : List PlanRow) :
    Made store s ((runRows file plan store stop s rows).1.flatMap (·.calls))
      (runRows file plan store stop s rows).2.2 := by
  induction rows generalizing stop s with
  | nil => cases stop <;> exact .nil s
  | cons row rows ih =>
      cases stop with
      | some stop => simpa only [runRows, List.flatMap_cons, List.nil_append] using ih (some stop) s
      | none =>
          simp only [runRows, List.flatMap_cons]
          exact (writeOne_sound file plan row store s).made.append (ih _ _)

theorem runRows_wrote (file : ImportFile) (plan : Plan) (store : CodeStore σ) (s : σ)
    (rows : List PlanRow) :
    List.Forall₂ (fun row r => r.row = row ∧ RowWrote file plan row r.calls r.outcome) rows
      (runRows file plan store none s rows).1 := by
  rw [runRows_eq_pass]
  exact Pass.forall₂_pass StopSettled (fun state row hstop =>
    runStep_wrote file plan store state row hstop) (fun _ h => by cases h) rows

/-- A row that did not go through is remembered by the stop. -/
def RemembersStop (state : Option Stop × σ) (r : RowRun) : Prop :=
  r.outcome.wentThrough = false → ∃ stop, state.1 = some stop ∧ stop.rest = r.outcome.rest

theorem runRows_stops (file : ImportFile) (plan : Plan) (store : CodeStore σ) (s : σ)
    (rows : List PlanRow) : (runRows file plan store none s rows).1.Pairwise NothingAfter := by
  rw [runRows_eq_pass]
  refine Pass.pairwise_pass StopSettled RemembersStop
    (fun state row h => (runStep_wrote file plan store state row h).2) ?_ ?_ ?_
    (fun _ h => by cases h) rows
  · rintro ⟨stop, s⟩ row hsettled hnot
    cases stop with
    | some stop => exact ⟨stop, rfl, (hsettled stop rfl).symm⟩
    | none => exact (writeOne_sound file plan row store s).stop.rest_eq hnot
  · rintro ⟨stop, s⟩ row r - hpast hnot
    obtain ⟨st, hst, hrest⟩ := hpast hnot
    obtain rfl : stop = some st := hst
    exact ⟨st, rfl, hrest⟩
  · rintro ⟨stop, s⟩ row r - hpast hnot
    obtain ⟨st, hst, hrest⟩ := hpast hnot
    obtain rfl : stop = some st := hst
    exact ⟨rfl, hrest⟩

/-- **Every run is honest**: for any plan, any file and any key, store calls are
made only for the rows that write and in their order, nothing is deleted that the
row may not replace, every row is tried up to the first that does not go through
and nothing is called after it, and the report is ok exactly when every row's code
is on the key. -/
theorem runSound_run (file : ImportFile) (plan : Plan) (store : CodeStore σ) (s : σ) :
    RunSound file plan store s (run file plan store s) := by
  have hwrote := runRows_wrote file plan store s plan.writes
  have hrows : (run file plan store s).rows.map (·.row) = plan.writes := by
    have heq : List.Forall₂ (fun row r => r.row = row) plan.writes (run file plan store s).rows :=
      hwrote.imp fun _ _ h => h.1
    rw [← List.forall₂_eq_eq_eq, List.forall₂_map_left_iff]
    exact heq.flip.imp fun _ _ h => h
  have heach : ∀ r ∈ (run file plan store s).rows, RowWrote file plan r.row r.calls r.outcome := by
    intro r hr
    obtain ⟨row, -, rfl, hrow⟩ := Pass.exists_of_mem_right hwrote hr
    exact hrow
  refine ⟨hrows, ?_, runRows_made file plan store none s plan.writes, heach,
    fun r hr => (heach r hr).honest, runRows_stops file plan store s plan.writes,
    fun _ _ _ => runRows_tried file plan store, ?_, ?_⟩
  · intro r hr
    have hmem : r.row ∈ plan.writes := hrows ▸ List.mem_map.mpr ⟨r, hr, rfl⟩
    have hwrites := (List.mem_filter.mp hmem).2
    simpa [PlanRow.writes, Verdict.writes] using hwrites
  · rw [← hrows]
    simp [RunResult.report]
  · simp only [Report.ok, RunResult.report, List.all_map, List.all_eq_true, Function.comp]
    exact forall₂_congr fun r hr => (heach r hr).honest.through

end Keyroost.Import
