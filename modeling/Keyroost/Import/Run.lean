import Keyroost.Import.Plan

/-!
# The write loop

`run` of `keyroost-import/src/run.rs` stores a plan's codes on a key one at a time, stops on the
first error, and reports what happened to each one. The key is a `CodeStore`, the source's trait as
an arbitrary state machine behind two calls, so that a run against any key, in any state and with
any failures, is one function of that machine.

Beside the source's report, the model keeps the calls each row made and the key's answers
(`RowRun.calls`): what the report says is compared with them in `RunSound`.
-/

namespace Keyroost.Import

/-! ### The key -/

/-- What a key said when asked to store or remove one code. The run acts on the first two; of any
other failure it has the message alone. -/
inductive StoreError where
  | exists_
  | full
  | failed (message : RustStr)
deriving DecidableEq, Repr

/-- `Display` for a store error. -/
def StoreError.display : StoreError → RustStr
  | .exists_ => "the key says this name is already on it".toList
  | .full => "the key is full".toList
  | .failed m => m

/-- One destination's write side. It may answer each call as it likes, and its state is whatever the
destination is: nothing is assumed of it here. -/
structure CodeStore (σ : Type) where
  add : σ → StoredName → ImportEntry → Bool → Except StoreError Unit × σ
  delete : σ → StoredName → Except StoreError Unit × σ

/-- A call made on the key, with its answer. -/
inductive Call where
  | add (name : StoredName) (entry : ImportEntry) (touch : Bool) (answer : Except StoreError Unit)
  | delete (name : StoredName) (answer : Except StoreError Unit)

/-! ### Outcomes -/

/-- What happened to one planned write. After `removedNotAdded` the key has neither the old code nor
the new one; after `noRoom` and `notTried` it has what it had. -/
inductive Outcome where
  | added
  | replaced
  | alreadyThere
  | removedNotAdded (why : RustStr)
  | failed (message : RustStr)
  | noRoom
  | notTried
deriving DecidableEq, Repr

/-- The write went through, or found its code already on the key. -/
def Outcome.wentThrough (o : Outcome) : Bool :=
  o == .added || o == .replaced || o == .alreadyThere

/-- Why the run stops, and what the rows after the stopping one become. -/
structure Stop where
  reason : RustStr
  rest : Outcome
deriving DecidableEq, Repr

/-- What a run did: one row per written plan row, and why it stopped early. -/
structure Report where
  rows : List (Nat × RustStr × Outcome)
  stopped : Option RustStr
deriving DecidableEq, Repr

/-- True when every planned write ended Added, Replaced or AlreadyThere. -/
def Report.ok (report : Report) : Bool := report.rows.all fun row => row.2.2.wentThrough

/-! ### One row -/

/-- What one row did: its outcome, why it ends the run, the key after it, and the
calls made. -/
structure Wrote (σ : Type) where
  outcome : Outcome
  stop : Option Stop
  state : σ
  calls : List Call

def fail (m : RustStr) : Outcome × Option Stop :=
  (.failed m, some { reason := m, rest := .notTried })

def full : Outcome × Option Stop :=
  (.noRoom, some { reason := StoreError.full.display, rest := .noRoom })

/-- The stop reason when a replace lost the old entry. -/
def removedNotAdded (name : StoredName) (why : StoreError) : RustStr :=
  "the old code ".toList ++ name.display ++
    " was removed from the key, but the new one could not be added (".toList ++
    why.display ++ [')']

/-- The outcome and stop, with the key and the calls that led there. -/
def Wrote.of {σ : Type} (end_ : Outcome × Option Stop) (state : σ) (calls : List Call) : Wrote σ :=
  { outcome := end_.1, stop := end_.2, state, calls }

def noNameMessage : RustStr := "this entry has no name to store it under".toList

def noLongerInFileMessage : RustStr := "this entry is no longer in the file".toList

/-- A row planned to replace. -/
def PlanRow.replacing (row : PlanRow) : Bool := row.verdict == .replace

/-- Whether the row may delete the entry that is in its way. A Molto2 slot write
overwrites; nothing there is ever deleted. -/
def mayReplace (plan : Plan) (row : PlanRow) : Bool :=
  plan.store ≠ .molto2 && (row.replacing || plan.replace)

/-- The item a row is looked up as: the first one with the row's index. -/
def findItem (file : ImportFile) (row : PlanRow) : Option ImportItem :=
  file.items.find? fun item => item.index == row.index

/-- The second half of a replace: the add after the delete. -/
def addAgain {σ : Type} (store : CodeStore σ) (s : σ) (name : StoredName) (entry : ImportEntry)
    (touch : Bool) (calls : List Call) : Wrote σ :=
  let (answer, s) := store.add s name entry touch
  let calls := calls ++ [.add name entry touch answer]
  match answer with
  | .ok () => .of (.replaced, none) s calls
  | .error e =>
      .of (.removedNotAdded e.display,
        some { reason := removedNotAdded name e, rest := .notTried }) s calls

/-- The key refuses duplicates: remove the old entry, then add. -/
def replaceEntry {σ : Type} (store : CodeStore σ) (s : σ) (name : StoredName)
    (entry : ImportEntry) (touch : Bool) (calls : List Call) : Wrote σ :=
  let (answer, s) := store.delete s name
  let calls := calls ++ [.delete name answer]
  match answer with
  | .error e => .of (fail e.display) s calls
  | .ok () => addAgain store s name entry touch calls

/-- `write_one` once the name and the entry are known. The key is asked to add even where the plan
replaces: only its answer that the name exists lets the old code be removed. -/
def writeEntry {σ : Type} (plan : Plan) (row : PlanRow) (store : CodeStore σ) (s : σ)
    (name : StoredName) (entry : ImportEntry) : Wrote σ :=
  let (answer, s) := store.add s name entry row.touch
  let calls := [.add name entry row.touch answer]
  match answer with
  | .ok () => .of (if row.replacing then .replaced else .added, none) s calls
  | .error .full => .of full s calls
  | .error (.failed m) => .of (fail m) s calls
  | .error .exists_ =>
      if mayReplace plan row = false then .of (.alreadyThere, none) s calls
      else replaceEntry store s name entry row.touch calls

/-- One planned write and, when it ends the run, why. -/
def writeOne {σ : Type} (file : ImportFile) (plan : Plan) (row : PlanRow) (store : CodeStore σ)
    (s : σ) : Wrote σ :=
  match row.name with
  | none => .of (fail noNameMessage) s []
  | some name =>
      match findItem file row with
      | some { entry := .ok entry, .. } => writeEntry plan row store s name entry
      | _ => .of (fail noLongerInFileMessage) s []

/-! ### The loop -/

/-- What became of one written row. The report keeps the row's index and label with the outcome; the
calls are kept beside them, so that the results can speak of what the key was asked. -/
structure RowRun where
  row : PlanRow
  outcome : Outcome
  calls : List Call

/-- `run`'s loop over the rows to write, from a stop (or none) and a key. -/
def runRows {σ : Type} (file : ImportFile) (plan : Plan) (store : CodeStore σ) :
    Option Stop → σ → List PlanRow → List RowRun × Option Stop × σ
  | stop, s, [] => ([], stop, s)
  | some stop, s, row :: rows =>
      let (runs, final) := runRows file plan store (some stop) s rows
      ({ row, outcome := stop.rest, calls := [] } :: runs, final)
  | none, s, row :: rows =>
      let wrote := writeOne file plan row store s
      let (runs, final) := runRows file plan store wrote.stop wrote.state rows
      ({ row, outcome := wrote.outcome, calls := wrote.calls } :: runs, final)

/-- What a run leaves: a record of every written row, the stop, and the key. The source returns the
first two; the key is what the calls were made on. -/
structure RunResult (σ : Type) where
  rows : List RowRun
  stop : Option Stop
  state : σ

/-- Write every Add or Replace row of `plan`, one at a time. -/
def run {σ : Type} (file : ImportFile) (plan : Plan) (store : CodeStore σ) (s : σ) :
    RunResult σ :=
  let (rows, stop, state) := runRows file plan store none s plan.writes
  { rows, stop, state }

/-- The source's report of a run. -/
def RunResult.report {σ : Type} (result : RunResult σ) : Report where
  rows := result.rows.map fun r => (r.row.index, r.row.shownLabel, r.outcome)
  stopped := result.stop.map (·.reason)

end Keyroost.Import
