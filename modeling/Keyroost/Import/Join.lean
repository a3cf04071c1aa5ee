import Keyroost.Import.ListItems
import Keyroost.Import.PlanRows
import Keyroost.Import.RunSound

/-!
# Joining rows and items at write time

A plan's row keeps no entry: the write loop of `keyroost-import/src/run.rs` looks the entry up again
by the row's index (`findItem`). The list reader gives every account of one migration link the index
of the link's line, so the lookup finds the link's first account, and a later account of the link is
sent the first one's seed.

When does a run still send every row its own entry? Two answers:

* `sendsOwn_iff`, for one file and one target: exactly when the item that each row to be written is
  looked up as has that row's own entry and no two such rows have one index (`Joined`).
* `joinsRight_iff`, for a file and whatever target: exactly when no later account of a link is one
  that some key would be told to write (`LaterCodesIdle`). A file without such links is one case.

That a plan which is not joined shows is seen on a key that takes everything (`acceptAll`), and the
targets that would write an idle account are built from its name and its slot.
-/

namespace Keyroost.Import

variable {σ : Type}

/-! ### What a run should do -/

/-- The position of the item a row is looked up as. -/
def joinedAt (file : ImportFile) (row : PlanRow) : Option Nat :=
  file.items.findIdx? fun item => item.index == row.index

/-- Every row sends its own entry, no row is told that its entry is gone, and no
two rows send the same item. -/
structure SendsOwn (file : ImportFile) (plan : Plan) (rows : List RowRun) : Prop where
  entries : List.Forall₂
    (fun pair r => r.row = pair.2 ∧ ∀ name entry touch answer,
      Call.add name entry touch answer ∈ r.calls → pair.1.entry = .ok entry)
    (plannedItems file plan) rows
  found : ∀ r ∈ rows, r.calls = [] → r.outcome ≠ .failed noLongerInFileMessage
  separate : rows.Pairwise fun a b =>
    a.calls ≠ [] → b.calls ≠ [] → joinedAt file a.row ≠ joinedAt file b.row

/-- Whatever the target, the touch choices and the key, a run sends every row its
own entry. -/
def JoinsRight (file : ImportFile) : Prop :=
  ∀ (target : Target) (wants : PlanRow → Bool) (σ : Type) (store : CodeStore σ) (s : σ),
    SendsOwn file ((plan file target).setTouch wants)
      (run file ((plan file target).setTouch wants) store s).rows

/-! ### When it does -/

/-- No key would be told to write this item, coming after these: a Molto2 is full
by then or does not take it, and every other key does not take it or has an
earlier item of the name. -/
structure TurnedDown (before : List ImportItem) (item : ImportItem) : Prop where
  slot : slotTitle item = none ∨ MOLTO_LAST_SLOT < slotsWanted before
  named : ∀ store, store ≠ .molto2 → ∀ n, namedAs store item = some n →
    ∃ earlier ∈ before, namedAs store earlier = some n

/-- Every item that shares its index with an earlier one is turned down by every
key. -/
def LaterCodesIdle (items : List ImportItem) : Prop :=
  ∀ before item after, items = before ++ item :: after →
    (∃ earlier ∈ before, earlier.index = item.index) → TurnedDown before item

/-! ### The lookup -/

theorem findItem_first {file : ImportFile} {before after : List ImportItem} {item : ImportItem}
    {row : PlanRow} (hitems : file.items = before ++ item :: after)
    (hindex : row.index = item.index) (hfirst : ∀ earlier ∈ before, earlier.index ≠ item.index) :
    findItem file row = some item := by
  have hbefore : before.find? (fun found => found.index == row.index) = none := by
    rw [List.find?_eq_none]
    intro earlier hearlier
    simpa [hindex] using hfirst earlier hearlier
  rw [findItem, hitems, List.find?_append, hbefore, Option.none_or,
    List.find?_cons_of_pos (by simp [hindex])]

theorem index_of_findItem {file : ImportFile} {row : PlanRow} {found : ImportItem}
    (h : findItem file row = some found) : found.index = row.index := by
  rw [findItem] at h
  simpa using List.find?_some h

theorem findItem_eq_joinedAt (file : ImportFile) (row : PlanRow) :
    findItem file row = (joinedAt file row).bind (file.items[·]?) :=
  List.find?_eq_bind_findIdx?_getElem?

/-- With an earlier item of the same index, the lookup finds an earlier item. -/
theorem findItem_earlier {file : ImportFile} {before after : List ImportItem}
    {item found : ImportItem}
    {row : PlanRow} (hitems : file.items = before ++ item :: after)
    (hindex : row.index = item.index) (hshared : ∃ earlier ∈ before, earlier.index = item.index)
    (hfound : findItem file row = some found) : found ∈ before ∧ found.index = item.index := by
  obtain ⟨earlier, hearlier, hsame⟩ := hshared
  have hsome : (before.find? fun i => i.index == row.index).isSome = true :=
    List.find?_isSome.mpr ⟨earlier, hearlier, by simp [hindex, hsame]⟩
  obtain ⟨first, hfirst⟩ := Option.isSome_iff_exists.mp hsome
  rw [findItem, hitems, List.find?_append, hfirst, Option.some_or] at hfound
  obtain rfl := Option.some.inj hfound
  refine ⟨List.mem_of_find?_eq_some hfirst, ?_⟩
  have hp := List.find?_some hfirst
  simpa [hindex] using hp

/-! ### A row that writes, and what it means for its item -/

/-- An item some plan writes is not turned down. -/
theorem not_turnedDown_of_writes {target : Target} {before : List ImportItem} {item : ImportItem}
    (hwrites : (planStep target (stateAfter target before) item).1.writes = true) :
    ¬TurnedDown before item := by
  intro hdown
  by_cases hstore : target.store = .molto2
  · have hcount := nextSlot_stateAfter hstore before
    have hturn := turn_decideItem target (stateAfter target before) item
    simp only [planStep] at hwrites
    generalize decideItem target (stateAfter target before) item = d at hturn hwrites
    cases hturn with
    | refused hrefuses _ =>
        simp [PlanRow.writes, Decision.row, hrefuses.1] at hwrites
    | named hnamed _ _ => exact absurd hstore hnamed
    | slot _ htitle hlast =>
        rcases hdown.slot with hnone | hfull
        · rw [htitle] at hnone
          cases hnone
        · omega
  · obtain ⟨n, -, hname, hfirst⟩ := first_of_writes hstore hwrites
    obtain ⟨earlier, hearlier, hsame⟩ := hdown.named target.store hstore n hname
    exact hfirst earlier hearlier hsame

/-- The entry of an item whose row writes. -/
theorem entry_of_writes {target : Target} {s : PlanState} {item : ImportItem}
    (hwrites : (planStep target s item).1.writes = true) :
    (∃ e, item.entry = .ok e) ∧ ∃ n, (planStep target s item).1.name = some n := by
  obtain ⟨e, n, hentry, hn, -, -⟩ := (rowSound_decideItem s item).fits hwrites
  exact ⟨⟨e, hentry⟩, n, hn⟩

/-! ### One plan -/

/-- A key that takes everything. -/
def acceptAll : CodeStore Unit where
  add := fun s _ _ _ => (.ok (), s)
  delete := fun s _ => (.ok (), s)

/-- On such a key every row makes one call, unless its entry is not found. -/
theorem acceptAll_calls (file : ImportFile) (plan : Plan) (rows : List PlanRow)
    (hname : ∀ row ∈ rows, row.name ≠ none)
    (hfound : ∀ r ∈ (runRows file plan acceptAll none () rows).1,
      r.calls = [] → r.outcome ≠ .failed noLongerInFileMessage) :
    ∀ r ∈ (runRows file plan acceptAll none () rows).1, ∃ name item entry,
      findItem file r.row = some item ∧ item.entry = .ok entry ∧
        r.calls = [.add name entry r.row.touch (.ok ())] := by
  induction rows with
  | nil => simp [runRows]
  | cons row rows ih =>
      obtain ⟨name, hrowName⟩ := Option.ne_none_iff_exists'.mp (hname row List.mem_cons_self)
      have hwrote : ∃ item entry, findItem file row = some item ∧ item.entry = .ok entry := by
        have hhead := hfound _ (by simp only [runRows]; exact List.mem_cons_self)
        simp only [writeOne, hrowName] at hhead
        cases hitem : findItem file row with
        | none => simp [hitem, Wrote.of, fail] at hhead
        | some item =>
            obtain ⟨index, label, entry⟩ := item
            cases entry with
            | error why => simp [hitem, Wrote.of, fail] at hhead
            | ok entry => exact ⟨_, entry, rfl, rfl⟩
      obtain ⟨item, entry, hitem, hentry⟩ := hwrote
      have hone : writeOne file plan row acceptAll () =
          .of (if row.replacing then .replaced else .added, none) ()
            [.add name entry row.touch (.ok ())] := by
        obtain ⟨index, label, itemEntry⟩ := item
        obtain rfl : itemEntry = .ok entry := hentry
        simp only [writeOne, hrowName, hitem, writeEntry, acceptAll]
      simp only [runRows, hone, Wrote.of] at hfound ⊢
      intro r hr
      rcases List.mem_cons.mp hr with rfl | hr
      · exact ⟨name, item, entry, hitem, hentry, rfl⟩
      · exact ih (fun row h => hname row (List.mem_cons_of_mem _ h))
          (fun r h => hfound r (List.mem_cons_of_mem _ h)) r hr

section Wrote

variable {file : ImportFile}

/-- The rows that write, beside their items. -/
theorem plannedItems_rows (file : ImportFile) (target : Target) (wants : PlanRow → Bool) :
    (plannedItems file ((plan file target).setTouch wants)).map (·.2) =
      ((plan file target).setTouch wants).writes := by
  have hlen := length_setTouch_rows file target wants
  have hsnd := @List.map_snd_zip _ _ file.items
    ((plan file target).setTouch wants).rows hlen.le
  rw [Plan.writes]
  conv_rhs => rw [← hsnd]
  rw [plannedItems, List.filter_map]
  rfl

theorem planned_wrote (file : ImportFile) (target : Target) (wants : PlanRow → Bool)
    (store : CodeStore σ) (s : σ) :
    List.Forall₂
      (fun pair r => r.row = pair.2 ∧ RowWrote file ((plan file target).setTouch wants) pair.2
        r.calls r.outcome)
      (plannedItems file ((plan file target).setTouch wants))
      (run file ((plan file target).setTouch wants) store s).rows := by
  have hwrote : List.Forall₂ _ ((plan file target).setTouch wants).writes
      (run file ((plan file target).setTouch wants) store s).rows :=
    runRows_wrote file ((plan file target).setTouch wants) store s _
  rw [← plannedItems_rows, List.forall₂_map_left_iff] at hwrote
  exact hwrote

/-- A row that writes, looked up as its own item, sends that item's entry. -/
theorem RowWrote.entry_eq {plan : Plan} {row : PlanRow} {calls : List Call} {outcome : Outcome}
    (hwrote : RowWrote file plan row calls outcome) {item : ImportItem}
    (hfind : findItem file row = some item) {name : StoredName} {entry : ImportEntry}
    {touch : Bool} {answer : Except StoreError Unit}
    (hcall : Call.add name entry touch answer ∈ calls) : item.entry = .ok entry := by
  cases hwrote <;> simp only [List.mem_cons, List.not_mem_nil, Call.add.injEq, reduceCtorEq,
    or_false, false_or] at hcall
  all_goals grind

/-- A named row without calls was not tried, or its entry was not found. -/
theorem RowWrote.not_found {plan : Plan} {row : PlanRow} {calls : List Call} {outcome : Outcome}
    (hwrote : RowWrote file plan row calls outcome) (hname : row.name ≠ none)
    (hcalls : calls = []) (hfailed : outcome.rest ≠ outcome) :
    ∀ item entry, findItem file row = some item → item.entry ≠ .ok entry := by
  cases hwrote with
  | skipped hrest => exact absurd hrest hfailed
  | nameless hnone => exact absurd hnone hname
  | unjoined hitem => exact hitem
  | added _ _ _ => cases hcalls
  | there _ _ _ _ => cases hcalls
  | refused _ _ _ _ _ => cases hcalls
  | kept _ _ _ _ => cases hcalls
  | lost _ _ _ _ => cases hcalls
  | replaced _ _ _ _ => cases hcalls

end Wrote

/-- What a plan needs to be carried out right: the item that each row to be written is looked up as
has that row's own entry, and no two such rows have one index. -/
structure Joined (file : ImportFile) (plan : Plan) : Prop where
  entries : ∀ pair ∈ plannedItems file plan, ∃ found,
    findItem file pair.2 = some found ∧ found.entry = pair.1.entry
  apart : (plannedItems file plan).Pairwise fun p q => p.2.index ≠ q.2.index

section Planned

variable {file : ImportFile} {target : Target} {wants : PlanRow → Bool}

/-- A row to be written has an entry and a name. -/
theorem entry_of_planned {pair : ImportItem × PlanRow}
    (hpair : pair ∈ plannedItems file ((plan file target).setTouch wants)) :
    pair.2.index = pair.1.index ∧ (∃ e, pair.1.entry = .ok e) ∧ pair.2.name ≠ none := by
  obtain ⟨hmem, hwrites⟩ := List.mem_filter.mp hpair
  obtain ⟨before, after, hpairs⟩ := List.append_of_mem hmem
  obtain ⟨item, row⟩ := pair
  obtain ⟨-, hcarried⟩ := pair_at hpairs
  obtain ⟨hentry, n, hn⟩ := entry_of_writes (hcarried.writes hwrites)
  exact ⟨hcarried.index, hentry, by simp [hcarried.name, hn]⟩

theorem sendsOwn_of_joined (hjoined : Joined file ((plan file target).setTouch wants))
    (store : CodeStore σ) (s : σ) : SendsOwn file ((plan file target).setTouch wants)
      (run file ((plan file target).setTouch wants) store s).rows := by
  have hwrote := planned_wrote file target wants store s
  refine ⟨?_, ?_, ?_⟩
  · refine Pass.forall₂_imp_mem ?_ hwrote
    rintro pair hpair r ⟨hrow, hr⟩
    obtain ⟨found, hfind, hsame⟩ := hjoined.entries pair hpair
    exact ⟨hrow, fun name entry touch answer hcall => hsame ▸ hr.entry_eq hfind hcall⟩
  · intro r hr hcalls houtcome
    obtain ⟨pair, hpair, -, hrow⟩ := Pass.exists_of_mem_right hwrote hr
    obtain ⟨found, hfind, hsame⟩ := hjoined.entries pair hpair
    obtain ⟨-, ⟨e, hentry⟩, hname⟩ := entry_of_planned hpair
    exact hrow.not_found hname hcalls (by simp [houtcome, Outcome.rest]) _ e hfind
      (hsame.trans hentry)
  · refine Pass.pairwise_of_forall₂
      (T := fun pair r => r.row = pair.2 ∧ (findItem file pair.2).isSome = true) ?_
      hjoined.apart (Pass.forall₂_imp_mem ?_ hwrote)
    · rintro p q a b hindex ⟨ha, hp⟩ ⟨hb, hq⟩ - - hjoinedAt
      obtain ⟨first, hfirst⟩ := Option.isSome_iff_exists.mp hp
      obtain ⟨second, hsecond⟩ := Option.isSome_iff_exists.mp hq
      rw [ha, hb] at hjoinedAt
      have hsame : first = second := by
        rw [findItem_eq_joinedAt, hjoinedAt, ← findItem_eq_joinedAt, hsecond] at hfirst
        exact (Option.some.inj hfirst).symm
      rw [← index_of_findItem hfirst, ← index_of_findItem hsecond, hsame] at hindex
      exact hindex rfl
    · rintro pair hpair r ⟨hrow, -⟩
      obtain ⟨found, hfind, -⟩ := hjoined.entries pair hpair
      exact ⟨hrow, Option.isSome_iff_exists.mpr ⟨found, hfind⟩⟩

theorem joined_of_sendsOwn (hsend : SendsOwn file ((plan file target).setTouch wants)
      (run file ((plan file target).setTouch wants) acceptAll ()).rows) :
    Joined file ((plan file target).setTouch wants) := by
  have hcalls := acceptAll_calls file ((plan file target).setTouch wants)
    ((plan file target).setTouch wants).writes (fun _ hrow => name_of_writes hrow) hsend.found
  refine ⟨fun pair hpair => ?_, ?_⟩
  · obtain ⟨r, hr, hrow, hentries⟩ := Pass.exists_of_mem_left hsend.entries hpair
    obtain ⟨name, found, entry, hfound, hentry, hcall⟩ := hcalls r hr
    refine ⟨found, hrow ▸ hfound, ?_⟩
    rw [hentry, hentries name entry r.row.touch (.ok ()) (by simp [hcall])]
  · have hrows : (run file ((plan file target).setTouch wants) acceptAll ()).rows.Pairwise
        fun a b => a.row.index ≠ b.row.index := by
      refine hsend.separate.imp_of_mem ?_
      intro a b ha hb hne hindex
      obtain ⟨_, _, _, -, -, hcallsA⟩ := hcalls a ha
      obtain ⟨_, _, _, -, -, hcallsB⟩ := hcalls b hb
      exact hne (by simp [hcallsA]) (by simp [hcallsB]) (by rw [joinedAt, joinedAt, hindex])
    have hwrites : ((plan file target).setTouch wants).writes.Pairwise
        fun a b => a.index ≠ b.index := by
      rw [← (runSound_run file ((plan file target).setTouch wants) acceptAll ()).rows]
      exact List.pairwise_map.mpr hrows
    rw [← plannedItems_rows] at hwrites
    rwa [List.pairwise_map] at hwrites

/-- **One file and one target**: whatever the key answers, a run sends every row its own entry,
exactly when the plan is joined. -/
theorem sendsOwn_iff (file : ImportFile) (target : Target) (wants : PlanRow → Bool) :
    (∀ (σ : Type) (store : CodeStore σ) (s : σ),
      SendsOwn file ((plan file target).setTouch wants)
        (run file ((plan file target).setTouch wants) store s).rows) ↔
      Joined file ((plan file target).setTouch wants) :=
  ⟨fun h => joined_of_sendsOwn (h Unit acceptAll ()), fun h _ store s => sendsOwn_of_joined h store s⟩

end Planned

/-! ### Idle later codes are enough -/

section Enough

variable {file : ImportFile} {target : Target} {wants : PlanRow → Bool}

theorem first_index_of_writes (hidle : LaterCodesIdle file.items)
    {before after : List (ImportItem × PlanRow)} {item : ImportItem} {row : PlanRow}
    (hpairs : file.items.zip ((plan file target).setTouch wants).rows =
      before ++ (item, row) :: after) (hwrites : row.writes = true) :
    ∀ earlier ∈ before.map (·.1), earlier.index ≠ item.index := by
  obtain ⟨hitems, hcarried⟩ := pair_at hpairs
  intro earlier hearlier hsame
  exact not_turnedDown_of_writes (hcarried.writes hwrites)
    (hidle _ _ _ hitems ⟨earlier, hearlier, hsame⟩)

/-- The lookup finds the item the row was planned from. -/
theorem findItem_planned (hidle : LaterCodesIdle file.items) {pair : ImportItem × PlanRow}
    (hpair : pair ∈ plannedItems file ((plan file target).setTouch wants)) :
    findItem file pair.2 = some pair.1 := by
  obtain ⟨hmem, hwrites⟩ := List.mem_filter.mp hpair
  obtain ⟨before, after, hpairs⟩ := List.append_of_mem hmem
  obtain ⟨item, row⟩ := pair
  obtain ⟨hitems, hcarried⟩ := pair_at hpairs
  exact findItem_first hitems hcarried.index (first_index_of_writes hidle hpairs hwrites)

theorem plannedItems_apart (hidle : LaterCodesIdle file.items) :
    (plannedItems file ((plan file target).setTouch wants)).Pairwise
      fun p q => p.1.index ≠ q.1.index := by
  have hall : (file.items.zip ((plan file target).setTouch wants).rows).Pairwise
      fun p q => q.2.writes = true → p.1.index ≠ q.1.index := by
    refine Pass.pairwise_of_splits ?_
    rintro before ⟨item, row⟩ after hpairs earlier hearlier hwrites
    exact first_index_of_writes hidle hpairs hwrites earlier.1
      (List.mem_map.mpr ⟨earlier, hearlier, rfl⟩)
  refine (hall.sublist List.filter_sublist).imp_of_mem ?_
  intro p q _ hq hne
  exact hne (List.mem_filter.mp hq).2

theorem joinsRight_of_laterCodesIdle (hidle : LaterCodesIdle file.items) : JoinsRight file := by
  intro target wants σ store s
  refine (sendsOwn_iff file target wants).mpr ⟨fun pair hpair => ?_, ?_⟩ σ store s
  · exact ⟨pair.1, findItem_planned hidle hpair, rfl⟩
  · refine (plannedItems_apart hidle).imp_of_mem ?_
    intro p q hp hq hindex
    rw [(entry_of_planned hp).1, (entry_of_planned hq).1]
    exact hindex

end Enough

/-! ### Idle later codes are needed -/

/-- A store of the same limits that has no prefix issue. -/
def Store.calm : Store → Store
  | .oath (.yubiKey (some v)) =>
      if Version.lt v (4, 3, 1) then .oath (.yubiKey (some (4, 0, 0))) else .oath (.yubiKey none)
  | store => store

theorem namedAs_yubiKey {v w : Option Version}
    (hhashes : (limits (.oath (.yubiKey v))).hashes = (limits (.oath (.yubiKey w))).hashes)
    (item : ImportItem) :
    namedAs (.oath (.yubiKey v)) item = namedAs (.oath (.yubiKey w)) item := by
  simp only [limits] at hhashes
  unfold namedAs
  cases item.entry with
  | error why => rfl
  | ok e =>
      have hparams : checkParams e (.oath (.yubiKey v)) (limits (.oath (.yubiKey v))) =
          checkParams e (.oath (.yubiKey w)) (limits (.oath (.yubiKey w))) := by
        simp [checkParams, checkKind, limits, hhashes]
      have hname : nameFor e (.oath (.yubiKey v)) (limits (.oath (.yubiKey v))) =
          nameFor e (.oath (.yubiKey w)) (limits (.oath (.yubiKey w))) := by
        simp [nameFor, oathName, periodPrefix, periodRead, limits]
      simp only [hparams, hname]

theorem namedAs_calm (store : Store) (item : ImportItem) :
    namedAs store.calm item = namedAs store item := by
  unfold Store.calm
  split
  · rename_i v
    split
    · rename_i hold
      exact namedAs_yubiKey (by simp [limits, hold]; decide) item
    · rename_i hnew
      exact namedAs_yubiKey (by simp [limits, hnew]) item
  · rfl

theorem startsAnotherName_calm (store : Store) (n : StoredName) (existing : Existing)
    (seen : List (StoredName × Nat)) : startsAnotherName store.calm n existing seen = false := by
  unfold Store.calm
  split
  · split <;> cases n <;> rfl
  · rename_i hnot
    cases store with
    | molto2 => rfl
    | token2Otp => rfl
    | oath family =>
        cases n with
        | molto2 _ _ => rfl
        | token2 _ _ => rfl
        | oath name =>
            cases family with
            | yubiKey v =>
                cases v with
                | none => rfl
                | some v => exact absurd rfl (hnot v)
            | solo2 => rfl
            | nitrokey3 => rfl
            | other => rfl

theorem calm_ne_molto2 {store : Store} (hstore : store ≠ .molto2) : store.calm ≠ .molto2 := by
  unfold Store.calm
  split
  · split <;> simp
  · exact hstore

/-- A key that already holds every name of the file, to be replaced. -/
def replaceAllTarget (store : Store) (items : List ImportItem) : Target where
  store := store.calm
  firstSlot := 0
  existing := { names := items.filterMap (namedAs store), hidden := 0 }
  replace := true

/-- A Molto2 with every slot in use. -/
def fullMoltoTarget : Target where
  store := .molto2
  firstSlot := 0
  existing :=
    { names := (List.range (MOLTO_LAST_SLOT + 1)).map fun slot => .molto2 slot.toUInt8 []
      hidden := 0 }
  replace := false

/-- The first item of a name is replaced there. -/
theorem replaces_named {store : Store} (hstore : store ≠ .molto2) {items before : List ImportItem}
    {item : ImportItem} (hitem : item ∈ items) {n : StoredName}
    (hname : namedAs store item = some n)
    (hfirst : ∀ earlier ∈ before, namedAs store earlier ≠ some n) :
    (planStep (replaceAllTarget store items)
      (stateAfter (replaceAllTarget store items) before) item).1.verdict = .replace := by
  have hcalm : (replaceAllTarget store items).store ≠ .molto2 := calm_ne_molto2 hstore
  have hcalmName : namedAs (replaceAllTarget store items).store item = some n :=
    (namedAs_calm store item).trans hname
  have hkey : n ∈ (replaceAllTarget store items).existing.names :=
    List.mem_filterMap.mpr ⟨item, hitem, hname⟩
  simp only [planStep, decideItem_named hcalm hcalmName, Decision.row]
  have hcases := named_decideNamed (replaceAllTarget store items)
    (stateAfter (replaceAllTarget store items) before) item.index n
  generalize decideNamed (replaceAllTarget store items)
    (stateAfter (replaceAllTarget store items) before) item.index n = d at hcases ⊢
  cases hcases with
  | repeated first hseen =>
      obtain ⟨earlier, hearlier, hsame⟩ := seen_stateAfter hcalm hseen
      exact absurd ((namedAs_calm store earlier).symm.trans hsame) (hfirst earlier hearlier)
  | there _ _ hkeep => cases hkeep
  | starts _ _ hstarts =>
      have hno := startsAnotherName_calm store n (replaceAllTarget store items).existing
        (stateAfter (replaceAllTarget store items) before).seen
      rw [replaceAllTarget] at hstarts hno
      rw [hno] at hstarts
      cases hstarts
  | added _ hnone _ => exact absurd hkey hnone
  | replaced _ _ _ _ => rfl

theorem slotOccupied_full {slot : Nat} (hslot : slot ≤ MOLTO_LAST_SLOT) :
    slotOccupied fullMoltoTarget.existing slot.toUInt8 = true := by
  refine List.any_eq_true.mpr ⟨.molto2 slot.toUInt8 [], ?_, by simp⟩
  exact List.mem_map.mpr ⟨slot, List.mem_range.mpr (Nat.lt_succ_of_le hslot), rfl⟩

/-- An item that fills a slot replaces what is there. -/
theorem replaces_slot {before : List ImportItem} {item : ImportItem} {title : RustStr}
    (htitle : slotTitle item = some title) (hroom : slotsWanted before ≤ MOLTO_LAST_SLOT) :
    (planStep fullMoltoTarget (stateAfter fullMoltoTarget before) item).1.verdict = .replace := by
  have hstore : fullMoltoTarget.store = .molto2 := rfl
  have hcount := nextSlot_stateAfter hstore before
  have hfirst : fullMoltoTarget.firstSlot.toNat = 0 := rfl
  have hlast : (stateAfter fullMoltoTarget before).nextSlot ≤ MOLTO_LAST_SLOT := by omega
  simp only [planStep, decideItem_slot hstore htitle, Decision.row,
    if_neg (Nat.not_lt.mpr hlast), slotOccupied_full hlast, if_true]

section Needed

variable {file : ImportFile} {target : Target}

/-- The plan without touch choices. -/
def untouchedPlan (file : ImportFile) (target : Target) : Plan :=
  (plan file target).setTouch fun _ => false

theorem joined_untouched (hjoin : JoinsRight file) : Joined file (untouchedPlan file target) :=
  (sendsOwn_iff file target fun _ => false).mp (hjoin target fun _ => false)

/-- What is written for a later code of a link is the entry of an earlier code. -/
theorem earlier_same_entry (hjoin : JoinsRight file) {before after : List ImportItem}
    {item : ImportItem} (hitems : file.items = before ++ item :: after)
    (hshared : ∃ earlier ∈ before, earlier.index = item.index)
    (hreplace : (planStep target (stateAfter target before) item).1.verdict = .replace) :
    ∃ found ∈ before, found.index = item.index ∧ found.entry = item.entry := by
  obtain ⟨rowsBefore, row, rowsAfter, hrows, hlen, hcarried⟩ :=
    @row_at _ target (fun _ => false) _ _ _ hitems
  have hpair : (item, row) ∈ plannedItems file (untouchedPlan file target) := by
    refine List.mem_filter.mpr ⟨?_, hcarried.writes_of_replace hreplace⟩
    rw [hitems, untouchedPlan, hrows, List.zip_append hlen]
    exact List.mem_append_right _ List.mem_cons_self
  obtain ⟨found, hfound, hentry⟩ := (joined_untouched hjoin).entries _ hpair
  obtain ⟨hmem, hsame⟩ := findItem_earlier hitems hcarried.index hshared hfound
  exact ⟨found, hmem, hsame, hentry⟩

/-- Two rows that write have different indices, if a run joins right. -/
theorem indices_of_joinsRight (hjoin : JoinsRight file) :
    (untouchedPlan file target).rows.Pairwise fun a b =>
      a.writes = true → b.writes = true → a.index ≠ b.index := by
  have hwrites : (untouchedPlan file target).writes.Pairwise fun a b => a.index ≠ b.index := by
    rw [untouchedPlan, ← plannedItems_rows]
    exact List.pairwise_map.mpr (joined_untouched hjoin).apart
  exact List.pairwise_filter.mp hwrites

theorem laterCodesIdle_of_joinsRight (hjoin : JoinsRight file) : LaterCodesIdle file.items := by
  intro before item after hitems hshared
  refine ⟨?_, ?_⟩
  · by_contra hslot
    obtain ⟨hsome, hroom⟩ := not_or.mp hslot
    obtain ⟨title, htitle⟩ := Option.ne_none_iff_exists'.mp hsome
    have hroom := Nat.not_lt.mp hroom
    have hreplace := replaces_slot htitle hroom
    obtain ⟨found, hfound, hindex, hentry⟩ := earlier_same_entry hjoin hitems hshared hreplace
    -- The link's first code fills a slot as well, and both rows are joined to it.
    have hfoundTitle : slotTitle found = some title := by
      rw [← htitle, slotTitle, slotTitle, hentry]
    obtain ⟨first, between, rfl⟩ := List.append_of_mem hfound
    have hfirstRoom : slotsWanted first ≤ MOLTO_LAST_SLOT := by
      refine le_trans ?_ hroom
      simp [slotsWanted, List.countP_append]
    obtain ⟨rowsFound, rowFound, _, hrowsFound, hlenFound, hcarriedFound⟩ :=
      @row_at _ fullMoltoTarget (fun _ => false) _ _ _
        (show file.items = first ++ found :: (between ++ item :: after) by simp [hitems])
    obtain ⟨rowsItem, rowItem, _, hrowsItem, hlenItem, hcarriedItem⟩ :=
      @row_at _ fullMoltoTarget (fun _ => false) _ _ _ hitems
    refine Pass.rel_of_getElem? (@indices_of_joinsRight _ fullMoltoTarget hjoin)
      (i := rowsFound.length) (j := rowsItem.length) (a := rowFound) (b := rowItem)
      (by rw [untouchedPlan, hrowsFound]; simp) (by rw [untouchedPlan, hrowsItem]; simp) ?_
      (hcarriedFound.writes_of_replace (replaces_slot hfoundTitle hfirstRoom))
      (hcarriedItem.writes_of_replace hreplace) ?_
    · rw [← hlenFound, ← hlenItem]
      simp
    · rw [hcarriedFound.index, hcarriedItem.index]
      exact hindex
  · intro store hstore n hname
    by_contra hnone
    have hfirst : ∀ earlier ∈ before, namedAs store earlier ≠ some n :=
      fun earlier hearlier hsame => hnone ⟨earlier, hearlier, hsame⟩
    have hitem : item ∈ file.items := by simp [hitems]
    obtain ⟨found, hfound, -, hentry⟩ :=
      earlier_same_entry hjoin hitems hshared (replaces_named hstore hitem hname hfirst)
    refine hfirst found hfound ?_
    rw [← hname, namedAs, namedAs, hentry]

end Needed

/-- **When rows and items are joined right**: a run sends every row the entry it
was planned from, on every key and for every target, exactly when every item that
shares its index with an earlier one is turned down by every key. -/
theorem joinsRight_iff (file : ImportFile) : JoinsRight file ↔ LaterCodesIdle file.items :=
  ⟨laterCodesIdle_of_joinsRight, joinsRight_of_laterCodesIdle⟩

/-- In particular where no line carries more than one code. -/
theorem joinsRight_of_single_codes {json : Bulk.JsonReader} {text : RustStr} {file : ImportFile}
    (hread : Bulk.parseAnyWide json text = .ok file)
    (hsingle : ∀ numbered ∈ (RustStr.lines text).zipIdx,
      (Bulk.lineItems numbered).length ≤ 1) : JoinsRight file := by
  refine joinsRight_of_laterCodesIdle ?_
  rintro before item after hitems ⟨earlier, hearlier, hsame⟩
  have hapart := Bulk.indices_parseAnyWide hread hsingle
  rw [hitems, List.pairwise_append] at hapart
  exact absurd hsame (hapart.2.2 earlier hearlier item List.mem_cons_self)

/-! ### A link that carries two codes -/

/-- `serde_json` on a text that is no JSON. -/
def noJson : Bulk.JsonReader where
  aegisCount := fun _ => none
  aegisRoot := fun _ => .error "expected value"
  aegisCounters := fun _ => .error "expected value"
  twofasCount := fun _ => none
  twofasRoot := fun _ => .error "expected value"
  twofasCounters := fun _ => .error "expected value"

/-- Account `A` with the seed `01`, and account `B` with the seed `02`. -/
def linkOfTwo : RustStr := "otpauth-migration://offline?data=CgYKAQESAUEKBgoBAhIBQg==".toList

def emptyToken2 : Target where
  store := .token2Otp
  firstSlot := 0
  existing := { names := [], hidden := 0 }
  replace := false

/-- The seed in the file. -/
def ImportItem.seed? (item : ImportItem) : Option (List UInt8) :=
  match item.entry with
  | .ok e => some e.secret.val
  | .error _ => none

/-- The seeds one row sent. -/
def RowRun.seedsSent (r : RowRun) : List (List UInt8) :=
  r.calls.filterMap fun
    | .add _ entry _ _ => some entry.secret.val
    | .delete .. => none

/-- Two items of one index, of which a Token2 key takes the second under a name of
its own. -/
def sharesIndex (file : ImportFile) : Bool :=
  match file.items with
  | [a, b] => a.index == b.index && (namedAs .token2Otp b).isSome &&
      namedAs .token2Otp a != namedAs .token2Otp b
  | _ => false

theorem not_joinsRight_of_sharesIndex {file : ImportFile} (hshares : sharesIndex file = true) :
    ¬JoinsRight file := by
  intro hjoin
  unfold sharesIndex at hshares
  split at hshares
  · rename_i a b hitems
    simp only [Bool.and_eq_true, beq_iff_eq, bne_iff_ne, ne_eq] at hshares
    obtain ⟨⟨hindex, hsome⟩, hne⟩ := hshares
    obtain ⟨n, hname⟩ := Option.isSome_iff_exists.mp hsome
    have hdown := laterCodesIdle_of_joinsRight hjoin [a] b [] hitems
      ⟨a, List.mem_cons_self, hindex⟩
    obtain ⟨earlier, hearlier, hsame⟩ := hdown.named .token2Otp (by decide) n hname
    rw [List.mem_singleton.mp hearlier] at hsame
    exact hne (hsame.trans hname.symm)
  · cases hshares

/-- Both rows of this link send the seed of the first code. -/
theorem linkOfTwo_sends_first_seed_twice :
    ∃ file, Bulk.parseAnyWide noJson linkOfTwo = .ok file ∧
      file.items.map (·.seed?) = [some [1], some [2]] ∧
      (run file (plan file emptyToken2) acceptAll ()).rows.map (·.seedsSent) = [[[1]], [[1]]] ∧
      ¬JoinsRight file := by
  have hread : (Bulk.parseAnyWide noJson linkOfTwo).toOption.any (fun file =>
      decide (file.items.map (·.seed?) = [some [1], some [2]]) &&
        decide ((run file (plan file emptyToken2) acceptAll ()).rows.map (·.seedsSent) =
          [[[1]], [[1]]]) && sharesIndex file) = true := by decide +kernel
  cases hfile : Bulk.parseAnyWide noJson linkOfTwo with
  | error e =>
      rw [hfile] at hread
      cases hread
  | ok file =>
      rw [hfile] at hread
      simp only [Except.toOption, Option.any_some, Bool.and_eq_true, decide_eq_true_eq] at hread
      obtain ⟨⟨hseeds, hsent⟩, hshares⟩ := hread
      exact ⟨file, rfl, hseeds, hsent, not_joinsRight_of_sharesIndex hshares⟩

end Keyroost.Import
