import Mathlib.Data.List.Nodup
import Mathlib.Data.List.Perm.Subperm
import Keyroost.Import.PlanInvariant

/-!
# A plan is sound

What `plan` of `keyroost-import/src/plan.rs` promises, as one structure: a row for
each item, each within the limits of its store and each saying the truth about what
is on the key; no name written twice; never more codes than the key holds; no name
that a YubiKey 4 would misread; and each row exactly the one that its item, the items
before it and the rows before it call for, so that a plan does not just refuse.

Every part is read off one turn of the loop over the items (`turn_decideItem`), and
carried over the whole pass by the rules for a pass with a carried state. The second
pass, which takes back the adds that find no room, changes one row at a time
(`Trimmed`). The parts are put together in `PlanRows`, where a row is tied to the
items before it.
-/

namespace Keyroost.Import

/-! ### The promise -/

/-- The place a row writes to is taken: the name is on the key, or the slot is in
use. -/
def Target.OnKey (target : Target) (n : StoredName) : Prop :=
  match target.store, n with
  | .molto2, .molto2 slot _ => slotOccupied target.existing slot = true
  | _, _ => n ∈ target.existing.names

/-- What a plan promises about the row of one item, on its own: which item it is of, that what is
written fits the store, and what its verdict says of the name on the key. When a row gets which
verdict is the matter of `RowExact`. -/
structure RowSound (target : Target) (item : ImportItem) (row : PlanRow) : Prop where
  index : row.index = item.index
  label : row.label = item.label
  fits : row.writes = true → ∃ e n, item.entry = .ok e ∧ row.name = some n ∧
    ParamsFit e target.store (limits target.store) ∧ NameFits n (limits target.store)
  add : row.verdict = .add → ∃ n, row.name = some n ∧ ¬target.OnKey n
  replace : row.verdict = .replace → ∃ n, row.name = some n ∧ target.OnKey n ∧
    (target.store ≠ .molto2 → target.replace = true)
  there : row.verdict = .exists_ → ∃ n, row.name = some n ∧ target.OnKey n ∧
    target.store ≠ .molto2 ∧ target.replace = false

/-- `name` is a proper prefix of `other`. -/
def ProperPrefix (name other : RustStr) : Prop := name <+: other ∧ name ≠ other

/-- `later` is not a proper prefix of `earlier`, where both are OATH names. -/
def NoPrefix (earlier later : StoredName) : Prop :=
  ∀ other name, earlier = .oath other → later = .oath name → ¬ProperPrefix name other

/-- The Molto2 slot of a row. -/
def PlanRow.slot? (row : PlanRow) : Option UInt8 :=
  match row.name with
  | some (.molto2 slot _) => some slot
  | _ => none

/-- How many codes a plan adds. -/
def Plan.adds (plan : Plan) : Nat := plan.rows.countP (·.verdict = .add)

/-- How many of a Molto2's slots are in use. -/
def slotsInUse (existing : Existing) : Nat :=
  (List.range (MOLTO_LAST_SLOT + 1)).countP fun slot => slotOccupied existing slot.toUInt8

/-- How many items fill a slot, as long as there are slots. -/
def slotsWanted (items : List ImportItem) : Nat := items.countP fun item => (slotTitle item).isSome

/-! ### The row that an item calls for -/

/-- The row keeps later items of the file off its name: it writes, it found the name
on the key, or it would have written if there had been room. -/
def PlanRow.Claims (row : PlanRow) (n : StoredName) : Prop :=
  row.name = some n ∧ (row.writes = true ∨ row.verdict = .exists_ ∨
    ∃ capacity, row.verdict = .skip (.noRoom capacity))

/-- On firmware with the prefix defect, `n` starts a name that is on the key or that a
row before claims. -/
def Target.Starts (target : Target) (rowsBefore : List PlanRow) (n : StoredName) : Prop :=
  ∃ family, target.store = .oath family ∧ family.prefixIssue = true ∧
    ∃ other, (other ∈ target.existing.names ∨ ∃ row ∈ rowsBefore, row.Claims other) ∧
      ¬NoPrefix other n

/-- The codes on the key and those added by the rows before fill the key. -/
def Target.Full (target : Target) (rowsBefore : List PlanRow) : Prop :=
  ∃ capacity ∈ (limits target.store).capacity,
    capacity ≤ target.existing.onKey + rowsBefore.countP (·.verdict = .add)

/-- No item before is stored under the name. -/
def Target.First (target : Target) (before : List ImportItem) (n : StoredName) : Prop :=
  ∀ earlier ∈ before, namedAs target.store earlier ≠ some n

/-- The row of an item that a store with names takes as `n`. The cases exclude each other and leave
none out: whether the name came before in the file, whether it is on the key and may be replaced,
whether it starts another name, and whether there is room. -/
structure NamedRow (target : Target) (before : List ImportItem) (rowsBefore : List PlanRow)
    (n : StoredName) (row : PlanRow) : Prop where
  name : row.name = some n
  /-- A name that came before is skipped, whatever came of it. -/
  repeated : ¬target.First before n → ∃ why, row.verdict = .skip why
  there : target.First before n → n ∈ target.existing.names → target.replace = false →
    row.verdict = .exists_
  starts : target.First before n → (n ∈ target.existing.names → target.replace = true) →
    target.Starts rowsBefore n → row.verdict = .skip .startsAnotherName
  replaced : target.First before n → n ∈ target.existing.names → target.replace = true →
    ¬target.Starts rowsBefore n → row.verdict = .replace
  added : target.First before n → n ∉ target.existing.names → ¬target.Starts rowsBefore n →
    ¬target.Full rowsBefore → row.verdict = .add
  noRoom : target.First before n → n ∉ target.existing.names → ¬target.Starts rowsBefore n →
    target.Full rowsBefore → ∃ capacity, row.verdict = .skip (.noRoom capacity)

/-- The row of an item that a Molto2 takes under `title`: it fills the slot after those
of the items before, as long as there is one. -/
structure SlotRow (target : Target) (before : List ImportItem) (title : RustStr) (row : PlanRow) :
    Prop where
  filled : target.firstSlot.toNat + slotsWanted before ≤ MOLTO_LAST_SLOT →
    row.name = some (.molto2 (target.firstSlot.toNat + slotsWanted before).toUInt8 title) ∧
      row.verdict = if slotOccupied target.existing
        (target.firstSlot.toNat + slotsWanted before).toUInt8 then .replace else .add
  past : MOLTO_LAST_SLOT < target.firstSlot.toNat + slotsWanted before →
    row.verdict = .skip .pastLastSlot

/-- The row that an item calls for, after these items and their rows. An item that the
store has no name or no title for is skipped. -/
structure RowExact (target : Target) (before : List ImportItem) (rowsBefore : List PlanRow)
    (item : ImportItem) (row : PlanRow) : Prop where
  unnamed : target.store ≠ .molto2 → namedAs target.store item = none →
    ∃ why, row.verdict = .skip why
  named : target.store ≠ .molto2 → ∀ n, namedAs target.store item = some n →
    NamedRow target before rowsBefore n row
  untitled : target.store = .molto2 → slotTitle item = none → ∃ why, row.verdict = .skip why
  slot : target.store = .molto2 → ∀ title, slotTitle item = some title →
    SlotRow target before title row

/-- Everything a plan for `target` promises: what each row is, given the items and the rows before
it, and what the rows that write come to together. Names are distinct and the store has room for
them; on a Molto2 the slots are consecutive; and where a store looks names up by their beginnings,
none is the beginning of another. -/
structure PlanSound (items : List ImportItem) (target : Target) (plan : Plan) : Prop where
  rows : List.Forall₂ (RowSound target) items plan.rows
  exact : ∀ before item after rowsBefore row rowsAfter, items = before ++ item :: after →
    plan.rows = rowsBefore ++ row :: rowsAfter → before.length = rowsBefore.length →
      RowExact target before rowsBefore item row
  distinct : plan.writes.Pairwise fun a b => a.name ≠ b.name
  room : target.store ≠ .molto2 → ∀ capacity ∈ (limits target.store).capacity,
    target.existing.onKey ≤ capacity → target.existing.onKey + plan.adds ≤ capacity
  slotRoom : target.store = .molto2 →
    slotsInUse target.existing + plan.adds ≤ MOLTO_LAST_SLOT + 1
  slots : target.store = .molto2 →
    plan.writes.map (·.slot?) =
        (List.range' target.firstSlot.toNat plan.writes.length).map
          (fun slot => some slot.toUInt8) ∧
      ∀ slot ∈ List.range' target.firstSlot.toNat plan.writes.length, slot ≤ MOLTO_LAST_SLOT
  noPrefix : ∀ family, target.store = .oath family → family.prefixIssue = true →
    plan.writes.Pairwise (fun a b => ∀ n m, a.name = some n → b.name = some m → NoPrefix n m) ∧
      ∀ row ∈ plan.writes, ∀ m, row.name = some m → ∀ n ∈ target.existing.names, NoPrefix n m

/-! ### The first pass, one item at a time -/

variable {target : Target}

theorem rowSound_of_refuses {s : PlanState} {item : ImportItem} {d : Decision}
    (hrefuses : d.Refuses s) : RowSound target item (d.row item) := by
  obtain ⟨hwrites, hthere, -⟩ := hrefuses
  have hadd : d.verdict ≠ .add := by
    intro h
    simp [Verdict.writes, h] at hwrites
  have hreplace : d.verdict ≠ .replace := by
    intro h
    simp [Verdict.writes, h] at hwrites
  refine ⟨rfl, rfl, ?_, ?_, ?_, ?_⟩
  · intro h
    simp only [PlanRow.writes, Decision.row, hwrites, Bool.false_eq_true] at h
  · exact fun h => absurd h hadd
  · exact fun h => absurd h hreplace
  · exact fun h => absurd h hthere

theorem onKey_named (hstore : target.store ≠ .molto2) (n : StoredName) :
    target.OnKey n ↔ n ∈ target.existing.names := by
  unfold Target.OnKey
  cases hcase : target.store with
  | molto2 => exact absurd hcase hstore
  | oath family => rfl
  | token2Otp => rfl

theorem rowSound_slot {s : PlanState} {item : ImportItem} (hstore : target.store = .molto2)
    {title : RustStr} (htitle : slotTitle item = some title) :
    RowSound target item (Decision.row
      { name := some (.molto2 s.nextSlot.toUInt8 title)
        verdict := if slotOccupied target.existing s.nextSlot.toUInt8 then .replace else .add
        state := { s with nextSlot := s.nextSlot + 1 } } item) := by
  obtain ⟨e, hentry, hparams, rfl, -⟩ := slotTitle_eq_some.mp htitle
  have hname : NameFits (.molto2 s.nextSlot.toUInt8 (moltoTitle e.issuer e.account))
      (limits .molto2) :=
    ⟨by simpa [StoredName.parts, limits] using len_moltoTitle_le _ _, by simp [limits]⟩
  refine ⟨rfl, rfl, fun _ => ⟨e, _, hentry, rfl, ?_, ?_⟩, ?_, ?_, ?_⟩
  · rw [hstore]
    exact checkParams_eq_ok.mp hparams
  · rw [hstore]
    exact hname
  all_goals
    cases hoccupied : slotOccupied target.existing s.nextSlot.toUInt8 <;>
      simp [Decision.row, Target.OnKey, hstore, hoccupied]

theorem rowSound_named {s : PlanState} {item : ImportItem} (hstore : target.store ≠ .molto2)
    {n : StoredName} (hname : namedAs target.store item = some n) {d : Decision}
    (hd : Named target s item.index n d) : RowSound target item (d.row item) := by
  obtain ⟨e, hentry, hparams, hfor⟩ := namedAs_eq_some.mp hname
  have hfits : ∃ e m, item.entry = .ok e ∧ some n = some m ∧
      ParamsFit e target.store (limits target.store) ∧ NameFits m (limits target.store) :=
    ⟨e, n, hentry, rfl, checkParams_eq_ok.mp hparams, nameFits_of_nameFor hfor⟩
  have honKey := onKey_named hstore n
  cases hd with
  | repeated first _ => exact rowSound_of_refuses (refuses_skip _ _ s)
  | starts _ _ _ => exact rowSound_of_refuses (refuses_skip _ _ s)
  | there _ hkey hkeep =>
      exact ⟨rfl, rfl, by simp [Decision.row, PlanRow.writes, Verdict.writes],
        by simp [Decision.row], by simp [Decision.row],
        fun _ => ⟨n, rfl, honKey.mpr hkey, hstore, hkeep⟩⟩
  | added _ hkey _ =>
      exact ⟨rfl, rfl, fun _ => hfits, fun _ => ⟨n, rfl, fun h => hkey (honKey.mp h)⟩,
        by simp [Decision.row], by simp [Decision.row]⟩
  | replaced _ hkey hreplace _ =>
      exact ⟨rfl, rfl, fun _ => hfits, by simp [Decision.row],
        fun _ => ⟨n, rfl, honKey.mpr hkey, fun _ => hreplace⟩, by simp [Decision.row]⟩

/-- The row of any item, whatever was planned before it. -/
theorem rowSound_decideItem (s : PlanState) (item : ImportItem) :
    RowSound target item ((decideItem target s item).row item) := by
  have hturn := turn_decideItem target s item
  generalize decideItem target s item = d at hturn ⊢
  cases hturn with
  | refused hrefuses _ => exact rowSound_of_refuses hrefuses
  | slot hstore htitle _ => exact rowSound_slot hstore htitle
  | named hstore hname hd => exact rowSound_named hstore hname hd

/-! ### The first pass, item against item -/

/-- A name already planned, or on the key, or planned next. -/
theorem seen_append (s : PlanState) (n : StoredName) (index : Nat) (m : StoredName) :
    { s with seen := s.seen ++ [(n, index)] }.Seen m ↔ s.Seen m ∨ m = n := by
  simp [PlanState.Seen]

/-- What the state knows of a written row: its name is among the names planned. -/
def Remembers (s : PlanState) (row : PlanRow) : Prop :=
  row.writes = true → ∃ n, row.name = some n ∧ s.Seen n

/-- One turn only ever adds to the names planned. -/
theorem seen_decideItem {s : PlanState} (item : ImportItem) {n : StoredName} (hseen : s.Seen n) :
    (decideItem target s item).state.Seen n := by
  have hturn := turn_decideItem target s item
  generalize decideItem target s item = d at hturn ⊢
  cases hturn with
  | refused hrefuses _ => rwa [hrefuses.2.2]
  | slot _ _ _ => exact hseen
  | @named _ m _ _ hd =>
      cases hd with
      | repeated first _ => exact hseen
      | starts _ _ _ => exact hseen
      | there _ _ _ => exact (seen_append s m item.index n).mpr (.inl hseen)
      | added _ _ _ => exact (seen_append s m item.index n).mpr (.inl hseen)
      | replaced _ _ _ _ => exact (seen_append s m item.index n).mpr (.inl hseen)

/-- A row that writes under a name was not preceded by that name, and is remembered. -/
theorem fresh_of_writes (hstore : target.store ≠ .molto2) {s : PlanState} {item : ImportItem}
    (hwrites : (planStep target s item).1.writes = true) :
    ∃ n, (planStep target s item).1.name = some n ∧ namedAs target.store item = some n ∧
      ¬s.Seen n ∧ (planStep target s item).2.Seen n ∧
      startsAnotherName target.store n target.existing s.seen = false := by
  have hturn := turn_decideItem target s item
  simp only [planStep] at hwrites ⊢
  generalize decideItem target s item = d at hturn hwrites ⊢
  cases hturn with
  | refused hrefuses _ =>
      have hnone := hrefuses.1
      simp only [PlanRow.writes, Decision.row, hnone, Bool.false_eq_true] at hwrites
  | slot hmolto _ _ => exact absurd hmolto hstore
  | @named _ n hname _ hd =>
      cases hd with
      | repeated first _ => simp [PlanRow.writes, Decision.row, Verdict.writes] at hwrites
      | starts _ _ _ => simp [PlanRow.writes, Decision.row, Verdict.writes] at hwrites
      | there _ _ _ => simp [PlanRow.writes, Decision.row, Verdict.writes] at hwrites
      | added hseen _ hstarts =>
          exact ⟨n, rfl, hname, hseen, (seen_append s n item.index n).mpr (.inr rfl), hstarts⟩
      | replaced hseen _ _ hstarts =>
          exact ⟨n, rfl, hname, hseen, (seen_append s n item.index n).mpr (.inr rfl), hstarts⟩

/-- A name is refused exactly where it starts another OATH name. -/
theorem startsAnotherName_iff {store : Store} {existing : Existing}
    {seen : List (StoredName × Nat)} {m : StoredName} :
    startsAnotherName store m existing seen = true ↔
      ∃ family, store = .oath family ∧ family.prefixIssue = true ∧
        ∃ n ∈ existing.names ++ seen.map (·.1), ¬NoPrefix n m := by
  constructor
  · intro hstarts
    unfold startsAnotherName at hstarts
    split at hstarts
    · next family name =>
        simp only [OathFamily.prefixRefusal, Option.isSome_ite, Bool.and_eq_true] at hstarts
        obtain ⟨hissue, hany⟩ := hstarts
        obtain ⟨other, hother, hstart⟩ := List.any_eq_true.mp hany
        obtain ⟨n, hn, hname⟩ := List.mem_filterMap.mp hother
        have hoath : n = .oath other := by
          cases n with
          | oath _ => rw [Option.some.inj hname]
          | token2 _ _ => cases hname
          | molto2 _ _ => cases hname
        simp only [startsOther, RustStr.startsWith, Bool.and_eq_true, decide_eq_true_eq,
          List.isPrefixOf_iff_prefix] at hstart
        exact ⟨family, rfl, hissue, n, hn, fun hno =>
          hno other name hoath rfl ⟨hstart.2, Ne.symm hstart.1⟩⟩
    · cases hstarts
  · rintro ⟨family, rfl, hissue, n, hn, hstart⟩
    simp only [NoPrefix, not_forall, not_not] at hstart
    obtain ⟨other, name, rfl, rfl, hbegins, hne⟩ := hstart
    have hmem : other ∈ oathNames (existing.names ++ seen.map (·.1)) :=
      List.mem_filterMap.mpr ⟨.oath other, hn, rfl⟩
    have hany : (oathNames (existing.names ++ seen.map (·.1))).any (startsOther name) = true := by
      refine List.any_eq_true.mpr ⟨other, hmem, ?_⟩
      simp [startsOther, Ne.symm hne, RustStr.startsWith, hbegins]
    simp [startsAnotherName, OathFamily.prefixRefusal, hissue, hany]

/-- Nothing that a prefix-checked name starts is among the names it was checked
against. -/
theorem noPrefix_of_startsAnotherName {family : OathFamily} {existing : Existing}
    {seen : List (StoredName × Nat)} {n m : StoredName} (hissue : family.prefixIssue = true)
    (hstarts : startsAnotherName (.oath family) m existing seen = false)
    (hother : n ∈ existing.names ++ seen.map (·.1)) : NoPrefix n m := by
  by_contra hprefix
  rw [startsAnotherName_iff.mpr ⟨family, rfl, hissue, n, hother, hprefix⟩] at hstarts
  cases hstarts

/-! ### The rows of the first pass -/

/-- Two rows that write do so under two names, neither of which a YubiKey 4 would
take for the other. -/
def WritesApart (target : Target) (a b : PlanRow) : Prop :=
  a.writes = true → b.writes = true → a.name ≠ b.name ∧
    ∀ family, target.store = .oath family → family.prefixIssue = true →
      ∀ n m, a.name = some n → b.name = some m → NoPrefix n m

theorem rowSound_planItems (target : Target) (s : PlanState) (items : List ImportItem) :
    List.Forall₂ (RowSound target) items (planItems target s items) := by
  rw [planItems_eq_pass]
  exact Pass.forall₂_pass (fun _ => True) (fun s item _ => ⟨rowSound_decideItem s item, trivial⟩)
    trivial items

theorem writesApart_planItems_named (hstore : target.store ≠ .molto2) (s : PlanState)
    (items : List ImportItem) : (planItems target s items).Pairwise (WritesApart target) := by
  rw [planItems_eq_pass]
  refine Pass.pairwise_pass (fun _ => True) Remembers (fun _ _ h => h) ?_ ?_ ?_ trivial items
  · intro s item _ hwrites
    obtain ⟨n, hn, -, -, hseen, -⟩ := fresh_of_writes hstore hwrites
    exact ⟨n, hn, hseen⟩
  · intro s item row _ hpast hwrites
    obtain ⟨n, hn, hseen⟩ := hpast hwrites
    exact ⟨n, hn, seen_decideItem item hseen⟩
  · intro s item row _ hpast hrow hwrites
    obtain ⟨m, hm, hseen⟩ := hpast hrow
    obtain ⟨n, hn, -, hfresh, -, hstarts⟩ := fresh_of_writes hstore hwrites
    refine ⟨?_, ?_⟩
    · rw [hm, hn]
      intro h
      obtain rfl := Option.some.inj h
      exact hfresh hseen
    · intro family hfamily hissue a b ha hb
      obtain rfl := Option.some.inj (hm.symm.trans ha)
      obtain rfl := Option.some.inj (hn.symm.trans hb)
      rw [hfamily] at hstarts
      exact noPrefix_of_startsAnotherName hissue hstarts (List.mem_append_right _ hseen)

/-- The slots of the rows that write follow each other from the next slot on. -/
theorem slots_planItems (hstore : target.store = .molto2) (s : PlanState)
    (items : List ImportItem) :
    let writes := (planItems target s items).filter (·.writes)
    writes.map (·.slot?) =
        (List.range' s.nextSlot writes.length).map (fun slot => some slot.toUInt8) ∧
      ∀ slot ∈ List.range' s.nextSlot writes.length, slot ≤ MOLTO_LAST_SLOT := by
  induction items generalizing s with
  | nil => simp [planItems]
  | cons item items ih =>
      have hturn := turn_decideItem target s item
      simp only [planItems]
      generalize decideItem target s item = d at hturn ⊢
      cases hturn with
      | refused hrefuses _ =>
          have hnone : (d.row item).writes = false := hrefuses.1
          rw [hrefuses.2.2, List.filter_cons_of_neg (by simp [hnone])]
          exact ih s
      | slot _ _ hlast =>
          rw [List.filter_cons_of_pos (by
            cases slotOccupied target.existing s.nextSlot.toUInt8 <;> rfl)]
          obtain ⟨hslots, hbound⟩ := ih { s with nextSlot := s.nextSlot + 1 }
          simp only [List.map_cons, List.length_cons, List.range'_succ, hslots]
          refine ⟨rfl, ?_⟩
          intro slot hslot
          rcases List.mem_cons.mp hslot with rfl | hslot
          · exact hlast
          · exact hbound slot hslot
      | named hnamed _ _ => exact absurd hstore hnamed

/-! ### The second pass -/

/-- What the second pass may do to a row: take an add back. -/
def Trimmed (row row' : PlanRow) : Prop :=
  row' = row ∨
    row.verdict = .add ∧ ∃ capacity, row' = { row with verdict := .skip (.noRoom capacity) }

theorem Trimmed.writes {row row' : PlanRow} (htrim : Trimmed row row')
    (hwrites : row'.writes = true) : row' = row := by
  rcases htrim with h | ⟨-, capacity, rfl⟩
  · exact h
  · simp [PlanRow.writes, Verdict.writes] at hwrites

theorem trimmed_roomPass (capacity used : Nat) (rows : List PlanRow) :
    List.Forall₂ Trimmed rows (roomPass capacity used rows) := by
  induction rows generalizing used with
  | nil => exact .nil
  | cons row rows ih =>
      simp only [roomPass]
      by_cases hadd : row.verdict = .add
      · by_cases hfull : capacity ≤ used
        · rw [if_pos hadd, if_pos hfull]
          exact .cons (.inr ⟨hadd, capacity, rfl⟩) (ih used)
        · rw [if_pos hadd, if_neg hfull]
          exact .cons (.inl rfl) (ih (used + 1))
      · rw [if_neg hadd]
        exact .cons (.inl rfl) (ih used)

/-- Never more adds than there is room. -/
theorem adds_roomPass (capacity used : Nat) (rows : List PlanRow) (hused : used ≤ capacity) :
    used + (roomPass capacity used rows).countP (·.verdict = .add) ≤ capacity := by
  induction rows generalizing used with
  | nil => simpa [roomPass] using hused
  | cons row rows ih =>
      simp only [roomPass]
      by_cases hadd : row.verdict = .add
      · by_cases hfull : capacity ≤ used
        · rw [if_pos hadd, if_pos hfull]
          simpa using ih used hused
        · have hnext := ih (used + 1) (by omega)
          rw [if_pos hadd, if_neg hfull, List.countP_cons_of_pos (by simpa using hadd)]
          omega
      · rw [if_neg hadd, List.countP_cons_of_neg (by simpa using hadd)]
        exact ih used hused

theorem trimmed_planRows (items : List ImportItem) (target : Target) :
    List.Forall₂ Trimmed
      (planItems target { seen := [], nextSlot := target.firstSlot.toNat } items)
      (planRows items target) := by
  have hsame : ∀ rows : List PlanRow, List.Forall₂ Trimmed rows rows :=
    fun rows => List.forall₂_same.mpr fun _ _ => .inl rfl
  unfold planRows
  by_cases hstore : target.store = .molto2
  · simp only [hstore, if_true]
    exact hsame _
  · simp only [hstore, if_false]
    cases planCapacity target with
    | none => exact hsame _
    | some capacity => exact trimmed_roomPass _ _ _

theorem RowSound.trimmed {item : ImportItem} {row row' : PlanRow}
    (hsound : RowSound target item row) (htrim : Trimmed row row') :
    RowSound target item row' := by
  rcases htrim with rfl | ⟨-, capacity, rfl⟩
  · exact hsound
  · exact ⟨hsound.index, hsound.label, by simp [PlanRow.writes, Verdict.writes], by simp,
      by simp, by simp⟩

theorem rowSound_planRows (items : List ImportItem) (target : Target) :
    List.Forall₂ (RowSound target) items (planRows items target) :=
  Pass.forall₂_comp (fun _ _ _ hsound htrim => hsound.trimmed htrim)
    (rowSound_planItems target _ items) (trimmed_planRows items target)

/-! ### What holds between the rows of a plan -/

/-- For a Molto2 the second pass is not made. -/
theorem planRows_molto (items : List ImportItem) (hstore : target.store = .molto2) :
    planRows items target =
      planItems target { seen := [], nextSlot := target.firstSlot.toNat } items := by
  simp [planRows, hstore]

theorem writes_pairwise_of_apart {rows : List PlanRow} (h : rows.Pairwise (WritesApart target)) :
    (rows.filter (·.writes)).Pairwise fun a b => a.name ≠ b.name ∧
      ∀ family, target.store = .oath family → family.prefixIssue = true →
        ∀ n m, a.name = some n → b.name = some m → NoPrefix n m := by
  have hfilter := h.sublist (List.filter_sublist (p := fun row : PlanRow => row.writes))
  refine hfilter.imp_of_mem ?_
  intro a b ha hb hapart
  exact hapart (List.mem_filter.mp ha).2 (List.mem_filter.mp hb).2

theorem writesApart_planRows_named (items : List ImportItem) (hstore : target.store ≠ .molto2) :
    (planRows items target).Pairwise (WritesApart target) := by
  refine Pass.pairwise_of_forall₂ ?_ (writesApart_planItems_named hstore _ items)
    (trimmed_planRows items target)
  intro a b a' b' hapart ha hb hwritesA hwritesB
  obtain rfl := ha.writes hwritesA
  obtain rfl := hb.writes hwritesB
  exact hapart hwritesA hwritesB

theorem slots_planRows (items : List ImportItem) (hstore : target.store = .molto2) :
    let writes := (planRows items target).filter (·.writes)
    writes.map (·.slot?) =
        (List.range' target.firstSlot.toNat writes.length).map (fun slot => some slot.toUInt8) ∧
      ∀ slot ∈ List.range' target.firstSlot.toNat writes.length, slot ≤ MOLTO_LAST_SLOT := by
  rw [planRows_molto items hstore]
  exact slots_planItems hstore _ items

/-- The slots of a Molto2 plan's rows are all different. -/
theorem slots_nodup_planRows (items : List ImportItem) (hstore : target.store = .molto2) :
    (((planRows items target).filter (·.writes)).map (·.slot?)).Nodup := by
  obtain ⟨hslots, hbound⟩ := slots_planRows items hstore
  rw [hslots]
  refine List.Nodup.map_on ?_ List.nodup_range'
  intro a ha b hb hab
  have hbounda := hbound a ha
  have hboundb := hbound b hb
  have heq := congrArg UInt8.toNat (Option.some.inj hab)
  simp only [MOLTO_LAST_SLOT] at hbounda hboundb
  simp only [Nat.toUInt8, UInt8.toNat_ofNat'] at heq
  omega

theorem distinct_planRows (items : List ImportItem) (target : Target) :
    ((planRows items target).filter (·.writes)).Pairwise fun a b => a.name ≠ b.name := by
  by_cases hstore : target.store = .molto2
  · have hnodup := slots_nodup_planRows items hstore
    rw [List.Nodup, List.pairwise_map] at hnodup
    refine hnodup.imp ?_
    intro a b hslot hname
    exact hslot (by rw [PlanRow.slot?, PlanRow.slot?, hname])
  · exact (writes_pairwise_of_apart (writesApart_planRows_named items hstore)).imp fun h => h.1

/-- The adds of a Molto2 plan go to slots that are free. -/
theorem slotRoom_planRows (items : List ImportItem) (hstore : target.store = .molto2) :
    slotsInUse target.existing + (planRows items target).countP (·.verdict = .add) ≤
      MOLTO_LAST_SLOT + 1 := by
  -- The slots added to, as positions among all the slots.
  let free := (List.range (MOLTO_LAST_SLOT + 1)).filter
    fun slot => !slotOccupied target.existing slot.toUInt8
  let adds := (planRows items target).filter (·.verdict = .add)
  have hsub : adds.Sublist ((planRows items target).filter (·.writes)) := by
    refine List.monotone_filter_right _ ?_
    intro row hadd
    simpa [PlanRow.writes, Verdict.writes] using Or.inl (by simpa using hadd)
  have hnodup : (adds.map (·.slot?)).Nodup :=
    (slots_nodup_planRows items hstore).sublist (hsub.map _)
  have hfree : adds.map (·.slot?) ⊆ free.map fun slot => some slot.toUInt8 := by
    intro slot? hslot?
    obtain ⟨row, hrow, rfl⟩ := List.mem_map.mp hslot?
    obtain ⟨hmem, hadd⟩ := List.mem_filter.mp hrow
    obtain ⟨item, -, hsound⟩ := Pass.exists_of_mem_right (rowSound_planRows items target) hmem
    obtain ⟨hslots, hbound⟩ := slots_planRows items hstore
    have hwrite : row.slot? ∈ ((planRows items target).filter (·.writes)).map (·.slot?) :=
      List.mem_map.mpr ⟨row, hsub.subset hrow, rfl⟩
    rw [hslots] at hwrite
    obtain ⟨slot, hslot, hrowSlot⟩ := List.mem_map.mp hwrite
    obtain ⟨n, hn, honKey⟩ := hsound.add (by simpa using hadd)
    refine List.mem_map.mpr ⟨slot, List.mem_filter.mpr ⟨?_, ?_⟩, hrowSlot⟩
    · exact List.mem_range.mpr (Nat.lt_succ_of_le (hbound slot hslot))
    · rw [PlanRow.slot?, hn] at hrowSlot
      cases n with
      | oath _ => simp at hrowSlot
      | token2 _ _ => simp at hrowSlot
      | molto2 taken title =>
          obtain rfl := Option.some.inj hrowSlot
          simpa [Target.OnKey, hstore] using honKey
  have hlength := (List.subperm_of_subset hnodup hfree).length_le
  rw [List.length_map, List.length_map] at hlength
  have hcount := List.length_eq_countP_add_countP
    (fun slot : Nat => slotOccupied target.existing slot.toUInt8)
    (l := List.range (MOLTO_LAST_SLOT + 1))
  have hfreeCount : free.length = (List.range (MOLTO_LAST_SLOT + 1)).countP
      (fun slot => decide ¬slotOccupied target.existing slot.toUInt8 = true) := by
    simp only [free, ← List.countP_eq_length_filter]
    congr 1
    funext slot
    cases slotOccupied target.existing slot.toUInt8 <;> rfl
  have hadds : (planRows items target).countP (·.verdict = .add) = adds.length :=
    List.countP_eq_length_filter
  rw [List.length_range] at hcount
  rw [slotsInUse, hadds]
  omega

theorem room_planRows (items : List ImportItem) (hstore : target.store ≠ .molto2)
    {capacity : Nat} (hcapacity : (limits target.store).capacity = some capacity)
    (hroom : target.existing.onKey ≤ capacity) :
    target.existing.onKey + (planRows items target).countP (·.verdict = .add) ≤ capacity := by
  have hplan : planCapacity target = some capacity := by
    simpa [planCapacity, hstore] using hcapacity
  simp only [planRows, hstore, if_false, hplan]
  exact adds_roomPass _ _ _ hroom

theorem noPrefix_planStep {family : OathFamily} (hfamily : target.store = .oath family)
    (hissue : family.prefixIssue = true) (s : PlanState) (item : ImportItem)
    (hwrites : (planStep target s item).1.writes = true) {n m : StoredName}
    (hm : (planStep target s item).1.name = some m) (hn : n ∈ target.existing.names) :
    NoPrefix n m := by
  obtain ⟨k, hk, -, -, -, hstarts⟩ := fresh_of_writes (by simp [hfamily]) hwrites
  obtain rfl := Option.some.inj (hk.symm.trans hm)
  rw [hfamily] at hstarts
  exact noPrefix_of_startsAnotherName hissue hstarts (List.mem_append_left _ hn)

/-- No written name starts a name that is on the key. -/
theorem noPrefix_planRows (items : List ImportItem) {family : OathFamily}
    (hfamily : target.store = .oath family) (hissue : family.prefixIssue = true) :
    ∀ row ∈ planRows items target, row.writes = true → ∀ m, row.name = some m →
      ∀ n ∈ target.existing.names, NoPrefix n m := by
  intro row' hrow' hwrites m hm n hn
  obtain ⟨row, hrow, htrim⟩ := Pass.exists_of_mem_right (trimmed_planRows items target) hrow'
  obtain rfl := htrim.writes hwrites
  have hall : List.Forall₂
      (fun _ row => row.writes = true → ∀ m, row.name = some m → NoPrefix n m) items
      (Pass.pass (planStep target) { seen := [], nextSlot := target.firstSlot.toNat } items) :=
    Pass.forall₂_pass (fun _ => True)
      (fun s item _ => ⟨fun hwrites m hm =>
        noPrefix_planStep hfamily hissue s item hwrites hm hn, trivial⟩) trivial items
  rw [planItems_eq_pass] at hrow
  obtain ⟨-, -, h⟩ := Pass.exists_of_mem_right hall hrow
  exact h hwrites m hm

end Keyroost.Import
