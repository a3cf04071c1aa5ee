import Keyroost.Import.PlanSound

/-!
# The row of an item, and the items before it

What the first pass of the planner (`keyroost-import/src/plan.rs`) knows when it comes to an item
depends on the items before it only through their names and the slots they fill. So the row of an
item can be said without the pass: `rowExact_planRows` gives, for each item, the one row that it and
the items and rows before it call for, in both directions.

A row that writes is the first of its name, which is what the write loop and a second import rest
on. `planSound_plan` puts together all that a plan promises, and `pair_at` hands a row and its item
to the modules about runs.
-/

namespace Keyroost.Import

variable {target : Target}

/-- The variables of the first pass after some items. -/
def stateAfter (target : Target) (items : List ImportItem) : PlanState :=
  Pass.after (planStep target) { seen := [], nextSlot := target.firstSlot.toNat } items

/-! ### Settled names -/

/-- Nothing more will be written under this name: it was planned before, or it is
refused for starting another name. A name that was found on the key is not refused. -/
def Settled (target : Target) (s : PlanState) (n : StoredName) : Prop :=
  s.Seen n ∨ (n ∈ target.existing.names → target.replace = true) ∧
    startsAnotherName target.store n target.existing s.seen = true

theorem startsAnotherName_mono {store : Store} {n : StoredName} {existing : Existing}
    {seen more : List (StoredName × Nat)} (hsub : ∀ m ∈ seen.map (·.1), m ∈ more.map (·.1))
    (hstarts : startsAnotherName store n existing seen = true) :
    startsAnotherName store n existing more = true := by
  obtain ⟨family, hfamily, hissue, m, hm, hprefix⟩ := startsAnotherName_iff.mp hstarts
  refine startsAnotherName_iff.mpr ⟨family, hfamily, hissue, m, ?_, hprefix⟩
  rcases List.mem_append.mp hm with hkey | hseen
  · exact List.mem_append_left _ hkey
  · exact List.mem_append_right _ (hsub m hseen)

theorem Settled.decideItem {s : PlanState} {n : StoredName} (hsettled : Settled target s n)
    (item : ImportItem) : Settled target (planStep target s item).2 n := by
  rcases hsettled with hseen | ⟨hwrite, hstarts⟩
  · exact .inl (seen_decideItem item hseen)
  · exact .inr ⟨hwrite, startsAnotherName_mono (fun m hm => seen_decideItem item hm) hstarts⟩

/-- An item leaves the name it would be stored under settled. -/
theorem settled_planStep (hstore : target.store ≠ .molto2) (s : PlanState) {item : ImportItem}
    {n : StoredName} (hname : namedAs target.store item = some n) :
    Settled target (planStep target s item).2 n := by
  have hturn := turn_decideItem target s item
  simp only [planStep]
  generalize decideItem target s item = d at hturn ⊢
  cases hturn with
  | refused _ hnone =>
      rw [hnone hstore] at hname
      cases hname
  | slot hmolto _ _ => exact absurd hmolto hstore
  | named _ hname' hd =>
      obtain rfl := Option.some.inj (hname'.symm.trans hname)
      cases hd with
      | repeated first hseen => exact .inl hseen
      | starts _ hwrite hstarts => exact .inr ⟨hwrite, hstarts⟩
      | there _ _ _ => exact .inl ((seen_append s _ item.index _).mpr (.inr rfl))
      | added _ _ _ => exact .inl ((seen_append s _ item.index _).mpr (.inr rfl))
      | replaced _ _ _ _ => exact .inl ((seen_append s _ item.index _).mpr (.inr rfl))

theorem Settled.after {s : PlanState} {n : StoredName} (hsettled : Settled target s n)
    (items : List ImportItem) : Settled target (Pass.after (planStep target) s items) n := by
  induction items generalizing s with
  | nil => exact hsettled
  | cons item items ih => exact ih (hsettled.decideItem item)

theorem settled_stateAfter (hstore : target.store ≠ .molto2) {before : List ImportItem}
    {earlier : ImportItem} (hearlier : earlier ∈ before) {n : StoredName}
    (hname : namedAs target.store earlier = some n) :
    Settled target (stateAfter target before) n := by
  obtain ⟨first, rest, rfl⟩ := List.append_of_mem hearlier
  rw [stateAfter, Pass.after_append, Pass.after_cons]
  exact (settled_planStep hstore _ hname).after rest

/-- A row that writes is the first of its name. -/
theorem first_of_writes (hstore : target.store ≠ .molto2) {before : List ImportItem}
    {item : ImportItem}
    (hwrites : (planStep target (stateAfter target before) item).1.writes = true) :
    ∃ n, (planStep target (stateAfter target before) item).1.name = some n ∧
      namedAs target.store item = some n ∧
      ∀ earlier ∈ before, namedAs target.store earlier ≠ some n := by
  obtain ⟨n, hn, hname, hfresh, -, hstarts⟩ := fresh_of_writes hstore hwrites
  refine ⟨n, hn, hname, ?_⟩
  intro earlier hearlier hsame
  rcases settled_stateAfter hstore hearlier hsame with hseen | ⟨-, hrefused⟩
  · exact hfresh hseen
  · rw [hstarts] at hrefused
    cases hrefused

/-- Only names of items are planned. -/
theorem seen_after (hstore : target.store ≠ .molto2) {s : PlanState} {items : List ImportItem}
    {n : StoredName} (hseen : (Pass.after (planStep target) s items).Seen n) :
    s.Seen n ∨ ∃ item ∈ items, namedAs target.store item = some n := by
  induction items generalizing s with
  | nil => exact .inl hseen
  | cons item items ih =>
      rcases ih hseen with hhead | ⟨later, hlater, hname⟩
      · have hturn := turn_decideItem target s item
        simp only [planStep] at hhead
        generalize decideItem target s item = d at hturn hhead
        cases hturn with
        | refused hrefuses _ => exact .inl (hrefuses.2.2 ▸ hhead)
        | slot hmolto _ _ => exact absurd hmolto hstore
        | @named _ m hname _ hd =>
            have hone : s.Seen n ∨ n = m := by
              cases hd with
              | repeated first _ => exact .inl hhead
              | starts _ _ _ => exact .inl hhead
              | there _ _ _ => exact (seen_append s m item.index n).mp hhead
              | added _ _ _ => exact (seen_append s m item.index n).mp hhead
              | replaced _ _ _ _ => exact (seen_append s m item.index n).mp hhead
            rcases hone with hold | rfl
            · exact .inl hold
            · exact .inr ⟨item, List.mem_cons_self, hname⟩
      · exact .inr ⟨later, List.mem_cons_of_mem item hlater, hname⟩

theorem seen_stateAfter (hstore : target.store ≠ .molto2) {before : List ImportItem}
    {n : StoredName} (hseen : (stateAfter target before).Seen n) :
    ∃ earlier ∈ before, namedAs target.store earlier = some n := by
  rcases seen_after hstore hseen with hempty | h
  · simp [PlanState.Seen] at hempty
  · exact h

/-! ### Slots filled -/

theorem nextSlot_after (hstore : target.store = .molto2) (s : PlanState)
    (items : List ImportItem) :
    min (Pass.after (planStep target) s items).nextSlot (MOLTO_LAST_SLOT + 1) =
      min (s.nextSlot + slotsWanted items) (MOLTO_LAST_SLOT + 1) := by
  induction items generalizing s with
  | nil => simp [slotsWanted]
  | cons item items ih =>
      rw [Pass.after_cons, ih]
      simp only [planStep, slotsWanted]
      cases htitle : slotTitle item with
      | none =>
          rw [(decideItem_refused_molto hstore htitle).2.2,
            List.countP_cons_of_neg (by simp [htitle])]
      | some title =>
          rw [decideItem_slot hstore htitle, List.countP_cons_of_pos (by simp [htitle])]
          split
          · simp only
            omega
          · simp only
            omega

theorem nextSlot_stateAfter (hstore : target.store = .molto2) (before : List ImportItem) :
    min (stateAfter target before).nextSlot (MOLTO_LAST_SLOT + 1) =
      min (target.firstSlot.toNat + slotsWanted before) (MOLTO_LAST_SLOT + 1) :=
  nextSlot_after hstore _ before

/-! ### The row that an item calls for -/

/-- A row that keeps later items off its name claims that name only. -/
theorem PlanRow.claims_iff {row : PlanRow} {m : StoredName} (hname : row.name = some m)
    (hkeeps : row.writes = true ∨ row.verdict = .exists_) (n : StoredName) :
    row.Claims n ↔ n = m := by
  constructor
  · rintro ⟨hn, -⟩
    exact Option.some.inj (hn.symm.trans hname)
  · rintro rfl
    exact ⟨hname, hkeeps.imp_right .inl⟩

/-- A turn adds to the names planned exactly the name that its row claims. -/
theorem seen_planStep (hstore : target.store ≠ .molto2) (s : PlanState) (item : ImportItem)
    (n : StoredName) :
    (planStep target s item).2.Seen n ↔ s.Seen n ∨ (planStep target s item).1.Claims n := by
  cases hname : namedAs target.store item with
  | none =>
      obtain ⟨hrefuses, hnone⟩ := decideItem_refused_named (s := s) hstore hname
      simp [planStep, hrefuses.2.2, PlanRow.Claims, Decision.row, hnone]
  | some m =>
      have hcases := named_decideNamed target s item.index m
      simp only [planStep, decideItem_named hstore hname]
      generalize decideNamed target s item.index m = d at hcases ⊢
      cases hcases with
      | repeated first _ => simp [PlanRow.Claims, PlanRow.writes, Verdict.writes, Decision.row]
      | starts _ _ _ => simp [PlanRow.Claims, PlanRow.writes, Verdict.writes, Decision.row]
      | there _ _ _ => rw [seen_append, PlanRow.claims_iff rfl (.inr rfl)]
      | added _ _ _ => rw [seen_append, PlanRow.claims_iff rfl (.inl rfl)]
      | replaced _ _ _ _ => rw [seen_append, PlanRow.claims_iff rfl (.inl rfl)]

theorem seen_pass (hstore : target.store ≠ .molto2) (s : PlanState) (items : List ImportItem)
    (n : StoredName) : (Pass.after (planStep target) s items).Seen n ↔
      s.Seen n ∨ ∃ row ∈ Pass.pass (planStep target) s items, row.Claims n := by
  induction items generalizing s with
  | nil => simp
  | cons item items ih =>
      rw [Pass.after_cons, ih, seen_planStep hstore, Pass.pass_cons, or_assoc]
      simp

/-- The second pass leaves a row the name that it claims. -/
theorem Trimmed.claims {row row' : PlanRow} (htrim : Trimmed row row') (n : StoredName) :
    row'.Claims n ↔ row.Claims n := by
  rcases htrim with rfl | ⟨hadd, capacity, rfl⟩
  · exact Iff.rfl
  · simp [PlanRow.Claims, PlanRow.writes, Verdict.writes, hadd]

/-- The names planned after some items are those that their rows claim. -/
theorem seen_iff_claims (hstore : target.store ≠ .molto2) {before : List ImportItem}
    {rowsBefore : List PlanRow}
    (htrim : List.Forall₂ Trimmed (Pass.pass (planStep target)
      { seen := [], nextSlot := target.firstSlot.toNat } before) rowsBefore) (n : StoredName) :
    (stateAfter target before).Seen n ↔ ∃ row ∈ rowsBefore, row.Claims n := by
  rw [stateAfter, seen_pass hstore]
  constructor
  · rintro (hempty | ⟨row, hrow, hclaims⟩)
    · simp [PlanState.Seen] at hempty
    · obtain ⟨row', hrow', ht⟩ := Pass.exists_of_mem_left htrim hrow
      exact ⟨row', hrow', (ht.claims n).mpr hclaims⟩
  · rintro ⟨row', hrow', hclaims⟩
    obtain ⟨row, hrow, ht⟩ := Pass.exists_of_mem_right htrim hrow'
    exact .inr ⟨row, hrow, (ht.claims n).mp hclaims⟩

theorem starts_iff (hstore : target.store ≠ .molto2) {before : List ImportItem}
    {rowsBefore : List PlanRow}
    (htrim : List.Forall₂ Trimmed (Pass.pass (planStep target)
      { seen := [], nextSlot := target.firstSlot.toNat } before) rowsBefore) (n : StoredName) :
    startsAnotherName target.store n target.existing (stateAfter target before).seen = true ↔
      target.Starts rowsBefore n := by
  have hmem : ∀ m, m ∈ target.existing.names ++ (stateAfter target before).seen.map (·.1) ↔
      m ∈ target.existing.names ∨ ∃ row ∈ rowsBefore, row.Claims m := by
    intro m
    rw [List.mem_append]
    exact or_congr_right (seen_iff_claims hstore htrim m)
  rw [startsAnotherName_iff]
  simp only [hmem, Target.Starts]

/-- The second pass at one row: it takes back an add where the key is full. -/
theorem roomPass_at {capacity used : Nat} {rows rowsBefore rowsAfter before after : List PlanRow}
    {row row' : PlanRow} (hsplit : rows = before ++ row :: after)
    (hrows : roomPass capacity used rows = rowsBefore ++ row' :: rowsAfter)
    (hlen : before.length = rowsBefore.length) :
    row' = if row.verdict = .add ∧ capacity ≤ used + rowsBefore.countP (·.verdict = .add) then
      { row with verdict := .skip (.noRoom capacity) } else row := by
  subst hsplit
  induction before generalizing used rowsBefore with
  | nil =>
      obtain rfl : rowsBefore = [] := List.eq_nil_of_length_eq_zero hlen.symm
      simp only [List.nil_append, roomPass] at hrows
      by_cases hadd : row.verdict = .add
      · by_cases hfull : capacity ≤ used
        · rw [if_pos hadd, if_pos hfull] at hrows
          rw [if_pos ⟨hadd, by simpa using hfull⟩]
          exact (List.cons.inj hrows).1.symm
        · rw [if_pos hadd, if_neg hfull] at hrows
          rw [if_neg (by simp [hfull])]
          exact (List.cons.inj hrows).1.symm
      · rw [if_neg hadd] at hrows
        rw [if_neg (by simp [hadd])]
        exact (List.cons.inj hrows).1.symm
  | cons first before ih =>
      cases rowsBefore with
      | nil => simp at hlen
      | cons shown rowsBefore =>
          have hlenRest : before.length = rowsBefore.length := by simpa using hlen
          simp only [List.cons_append, roomPass] at hrows
          by_cases hadd : first.verdict = .add
          · by_cases hfull : capacity ≤ used
            · rw [if_pos hadd, if_pos hfull] at hrows
              obtain ⟨rfl, hrest⟩ := List.cons.inj hrows
              rw [List.countP_cons_of_neg (by simp)]
              exact ih hlenRest hrest
            · rw [if_pos hadd, if_neg hfull] at hrows
              obtain ⟨rfl, hrest⟩ := List.cons.inj hrows
              rw [List.countP_cons_of_pos (by simpa using hadd), Nat.add_comm _ 1, ← Nat.add_assoc]
              exact ih hlenRest hrest
          · rw [if_neg hadd] at hrows
            obtain ⟨rfl, hrest⟩ := List.cons.inj hrows
            rw [List.countP_cons_of_neg (by simpa using hadd)]
            exact ih hlenRest hrest

section AtOneItem

variable {items before after : List ImportItem} {item : ImportItem}
  {rowsBefore rowsAfter : List PlanRow} {row : PlanRow}

/-- The rows before an item's row are those of the items before, as the second pass left
them. -/
theorem trimmed_before (hitems : items = before ++ item :: after)
    (hrows : planRows items target = rowsBefore ++ row :: rowsAfter)
    (hlen : before.length = rowsBefore.length) :
    List.Forall₂ Trimmed (Pass.pass (planStep target)
      { seen := [], nextSlot := target.firstSlot.toNat } before) rowsBefore := by
  have hall := trimmed_planRows items target
  rw [hrows, hitems, planItems_eq_pass, Pass.pass_append] at hall
  have htake := List.forall₂_take before.length hall
  rwa [List.take_left' (Pass.length_pass _ _ _), List.take_left' hlen.symm] at htake

/-- An item's row is that of its turn, or an add taken back because the key is full. -/
theorem planRows_at (hitems : items = before ++ item :: after)
    (hrows : planRows items target = rowsBefore ++ row :: rowsAfter)
    (hlen : before.length = rowsBefore.length) :
    (target.store ≠ .molto2 → (planStep target (stateAfter target before) item).1.verdict = .add →
        target.Full rowsBefore →
          row.name = (planStep target (stateAfter target before) item).1.name ∧
            ∃ capacity, row.verdict = .skip (.noRoom capacity)) ∧
      ((target.store ≠ .molto2 →
          (planStep target (stateAfter target before) item).1.verdict = .add →
            ¬target.Full rowsBefore) →
        row = (planStep target (stateAfter target before) item).1) := by
  have hsplit : planItems target { seen := [], nextSlot := target.firstSlot.toNat } items =
      Pass.pass (planStep target) { seen := [], nextSlot := target.firstSlot.toNat } before ++
        (planStep target (stateAfter target before) item).1 ::
          Pass.pass (planStep target) (planStep target (stateAfter target before) item).2
            after := by
    rw [planItems_eq_pass, hitems, Pass.pass_append, Pass.pass_cons, stateAfter]
  have hlen' : (Pass.pass (planStep target)
      { seen := [], nextSlot := target.firstSlot.toNat } before).length = rowsBefore.length := by
    rw [Pass.length_pass, hlen]
  have hsame : ∀ rows : List PlanRow,
      Pass.pass (planStep target) { seen := [], nextSlot := target.firstSlot.toNat } before ++
        (planStep target (stateAfter target before) item).1 :: rows =
          rowsBefore ++ row :: rowsAfter →
        row = (planStep target (stateAfter target before) item).1 := by
    intro rows h
    exact (List.cons.inj (List.append_inj h hlen').2).1.symm
  unfold planRows at hrows
  by_cases hstore : target.store = .molto2
  · simp only [hstore, if_true] at hrows
    rw [hsplit] at hrows
    exact ⟨fun hne => absurd hstore hne, fun _ => hsame _ hrows⟩
  · have hcapacity : planCapacity target = (limits target.store).capacity := by
      rw [planCapacity, if_neg hstore]
    simp only [hstore, if_false] at hrows
    cases hcase : planCapacity target with
    | none =>
        rw [hcase] at hrows hcapacity
        simp only at hrows
        rw [hsplit] at hrows
        refine ⟨fun _ _ hfull => ?_, fun _ => hsame _ hrows⟩
        obtain ⟨capacity, hmem, -⟩ := hfull
        rw [← hcapacity] at hmem
        cases hmem
    | some capacity =>
        rw [hcase] at hrows hcapacity
        simp only at hrows
        have hroom := roomPass_at hsplit hrows hlen'
        have hfullIff : target.Full rowsBefore ↔
            capacity ≤ target.existing.onKey + rowsBefore.countP (·.verdict = .add) := by
          simp [Target.Full, ← hcapacity]
        rw [hroom]
        constructor
        · intro _ hadd hfull
          rw [if_pos ⟨hadd, hfullIff.mp hfull⟩]
          exact ⟨rfl, capacity, rfl⟩
        · intro hnot
          exact if_neg fun h => hnot hstore h.1 (hfullIff.mpr h.2)

/-- The row of an item that a store with names takes. -/
theorem namedRow_planRows (hstore : target.store ≠ .molto2)
    (hitems : items = before ++ item :: after)
    (hrows : planRows items target = rowsBefore ++ row :: rowsAfter)
    (hlen : before.length = rowsBefore.length) {n : StoredName}
    (hname : namedAs target.store item = some n) : NamedRow target before rowsBefore n row := by
  have hstarts := starts_iff hstore (trimmed_before hitems hrows hlen) n
  obtain ⟨hfull, hroom⟩ := planRows_at hitems hrows hlen
  have hfresh : target.First before n → ¬(stateAfter target before).Seen n := by
    intro hfirst hseen
    obtain ⟨earlier, hearlier, hsame⟩ := seen_stateAfter hstore hseen
    exact hfirst earlier hearlier hsame
  have hsettled : ¬target.First before n → Settled target (stateAfter target before) n := by
    intro hnot
    simp only [Target.First, not_forall, not_not] at hnot
    obtain ⟨earlier, hearlier, hsame⟩ := hnot
    exact settled_stateAfter hstore hearlier hsame
  have hkept : target.replace = true → ¬target.replace = false :=
    fun hreplace hkeep => Bool.true_eq_false.mp (hreplace.symm.trans hkeep)
  -- The two verdicts that write come with an unseen name that starts no other.
  have hnone : ¬startsAnotherName target.store n target.existing
      (stateAfter target before).seen = true → ¬target.Starts rowsBefore n := (mt hstarts.mpr ·)
  have hturn : ¬(stateAfter target before).Seen n → ¬startsAnotherName target.store n
      target.existing (stateAfter target before).seen = true → ¬¬target.First before n := by
    intro hseen hstart hnot
    rcases hsettled hnot with h | ⟨-, h⟩
    · exact hseen h
    · exact hstart h
  have hcases := named_decideNamed target (stateAfter target before) item.index n
  simp only [planStep, decideItem_named hstore hname] at hfull hroom
  generalize decideNamed target (stateAfter target before) item.index n = d at hcases hfull hroom
  cases hcases with
  | repeated first hseen =>
      obtain rfl := hroom fun _ h => by cases h
      refine ⟨rfl, fun _ => ⟨_, rfl⟩, ?_, ?_, ?_, ?_, ?_⟩
      all_goals exact fun hfirst => absurd hseen (hfresh hfirst)
  | there hseen hkey hkeep =>
      obtain rfl := hroom fun _ h => by cases h
      refine ⟨rfl, ?_, fun _ _ _ => rfl, ?_, ?_, ?_, ?_⟩
      · intro hnot
        rcases hsettled hnot with h | ⟨hwrite, -⟩
        · exact absurd h hseen
        · exact absurd hkeep (hkept (hwrite hkey))
      · exact fun _ hwrite => absurd hkeep (hkept (hwrite hkey))
      · exact fun _ _ hreplace => absurd hkeep (hkept hreplace)
      · exact fun _ hnew => absurd hkey hnew
      · exact fun _ hnew => absurd hkey hnew
  | starts _ hwrite hstart =>
      obtain rfl := hroom fun _ h => by cases h
      refine ⟨rfl, fun _ => ⟨_, rfl⟩, ?_, fun _ _ _ => rfl, ?_, ?_, ?_⟩
      · exact fun _ hkey hkeep => absurd hkeep (hkept (hwrite hkey))
      · exact fun _ _ _ hno => absurd (hstarts.mp hstart) hno
      · exact fun _ _ hno => absurd (hstarts.mp hstart) hno
      · exact fun _ _ hno => absurd (hstarts.mp hstart) hno
  | added hseen hkey hstart =>
      have hstart := Bool.eq_false_iff.mp hstart
      by_cases hroomy : target.Full rowsBefore
      · obtain ⟨hn, hverdict⟩ := hfull hstore rfl hroomy
        refine ⟨hn, fun h => absurd h (hturn hseen hstart), ?_, ?_, ?_, ?_, fun _ _ _ _ => hverdict⟩
        · exact fun _ h => absurd h hkey
        · exact fun _ _ h => absurd h (hnone hstart)
        · exact fun _ h => absurd h hkey
        · exact fun _ _ _ h => absurd hroomy h
      · obtain rfl := hroom fun _ _ => hroomy
        refine ⟨rfl, fun h => absurd h (hturn hseen hstart), ?_, ?_, ?_, fun _ _ _ _ => rfl, ?_⟩
        · exact fun _ h => absurd h hkey
        · exact fun _ _ h => absurd h (hnone hstart)
        · exact fun _ h => absurd h hkey
        · exact fun _ _ _ h => absurd h hroomy
  | replaced hseen hkey hreplace hstart =>
      have hstart := Bool.eq_false_iff.mp hstart
      obtain rfl := hroom fun _ h => by cases h
      refine ⟨rfl, fun h => absurd h (hturn hseen hstart), ?_, ?_, fun _ _ _ _ => rfl, ?_, ?_⟩
      · exact fun _ _ hkeep => absurd hkeep (hkept hreplace)
      · exact fun _ _ h => absurd h (hnone hstart)
      · exact fun _ h => absurd hkey h
      · exact fun _ h => absurd hkey h

/-- The row of an item that a Molto2 takes. -/
theorem slotRow_planRows (hstore : target.store = .molto2)
    (hitems : items = before ++ item :: after)
    (hrows : planRows items target = rowsBefore ++ row :: rowsAfter)
    (hlen : before.length = rowsBefore.length) {title : RustStr}
    (htitle : slotTitle item = some title) : SlotRow target before title row := by
  obtain ⟨-, hroom⟩ := planRows_at hitems hrows hlen
  obtain rfl := hroom fun hne => absurd hstore hne
  have hnext := nextSlot_stateAfter hstore before
  simp only [planStep, decideItem_slot hstore htitle]
  constructor
  · intro hlast
    have heq : (stateAfter target before).nextSlot =
        target.firstSlot.toNat + slotsWanted before := by omega
    rw [if_neg (by omega), heq]
    exact ⟨rfl, rfl⟩
  · intro hpast
    rw [if_pos (by omega)]
    rfl

/-- **Each row is the one that its item calls for.** -/
theorem rowExact_planRows (hitems : items = before ++ item :: after)
    (hrows : planRows items target = rowsBefore ++ row :: rowsAfter)
    (hlen : before.length = rowsBefore.length) :
    RowExact target before rowsBefore item row := by
  have hskips : (decideItem target (stateAfter target before) item).Refuses
      (stateAfter target before) → ∃ why, row.verdict = .skip why := by
    intro hrefuses
    obtain ⟨why, hwhy⟩ := hrefuses.skips
    have hturn : (planStep target (stateAfter target before) item).1.verdict = .skip why := hwhy
    obtain ⟨-, hroom⟩ := planRows_at hitems hrows hlen
    obtain rfl := hroom fun _ hadd => by
      rw [hturn] at hadd
      cases hadd
    exact ⟨why, hwhy⟩
  constructor
  · exact fun hstore hname => hskips (decideItem_refused_named hstore hname).1
  · exact fun hstore n hname => namedRow_planRows hstore hitems hrows hlen hname
  · exact fun hstore htitle => hskips (decideItem_refused_molto hstore htitle)
  · exact fun hstore title htitle => slotRow_planRows hstore hitems hrows hlen htitle

end AtOneItem

/-! ### Every plan -/

/-- **Every plan is sound**: for any file and any target, the plan has one row per
item, in order and within the store's limits; each row is the one that its item calls
for after the items and the rows before it; and the plan keeps its promises about
names, room, slots and prefixes. -/
theorem planSound_plan (file : ImportFile) (target : Target) :
    PlanSound file.items target (plan file target) := by
  refine ⟨rowSound_planRows file.items target, ?_, distinct_planRows file.items target, ?_, ?_, ?_,
    ?_⟩
  · intro before item after rowsBefore row rowsAfter hitems hrows hlen
    exact rowExact_planRows hitems hrows hlen
  · intro hstore capacity hcapacity hroom
    exact room_planRows file.items hstore hcapacity hroom
  · intro hstore
    exact slotRoom_planRows file.items hstore
  · intro hstore
    exact slots_planRows file.items hstore
  · intro family hfamily hissue
    have hstore : target.store ≠ .molto2 := by simp [hfamily]
    refine ⟨?_, ?_⟩
    · refine (writes_pairwise_of_apart (writesApart_planRows_named file.items hstore)).imp ?_
      exact fun h => h.2 family hfamily hissue
    · intro row hrow m hm n hn
      obtain ⟨hmem, hwrites⟩ := List.mem_filter.mp hrow
      exact noPrefix_planRows file.items hfamily hissue row hmem hwrites m hm n hn

/-- Two accounts, for the examples below. -/
def twoAccounts : ImportFile where
  format := .otpauthList
  items := [
    { index := 0, label := ['a'], entry := .ok (usualEntry none (some ['a']) (oneByteSeed 1)) },
    { index := 1, label := ['b'], entry := .ok (usualEntry none (some ['b']) (oneByteSeed 2)) }]
  batch := none

/-- A Molto2 whose first slot is in use, listed beside 99 entries the listing could
not show. Replacing was not asked for. -/
def usedMolto2 : Target where
  store := .molto2
  firstSlot := 0
  existing := { names := [.molto2 0 ['x']], hidden := 99 }
  replace := false

/-- A Molto2 plan replaces what is in a slot without being asked, and counts its
room in slots. -/
theorem usedMolto2_replaces_unasked :
    ¬(∀ row ∈ (plan twoAccounts usedMolto2).rows, row.verdict = .replace →
        usedMolto2.replace = true ∧ ∀ n, row.name = some n → n ∈ usedMolto2.existing.names) ∧
      ¬(usedMolto2.existing.onKey ≤ 100 →
        usedMolto2.existing.onKey + (plan twoAccounts usedMolto2).adds ≤ 100) := by
  constructor
  · intro h
    have hrows : (plan twoAccounts usedMolto2).rows.any (·.verdict = .replace) = true := by
      decide
    obtain ⟨row, hrow, hverdict⟩ := List.any_eq_true.mp hrows
    exact absurd (h row hrow (by simpa using hverdict)).1 (by decide)
  · decide

/-! ### From the first pass to the plan that is run -/

/-- What the second pass and the touch choices leave of a row: all but its touch
flag, and its verdict if that was an add. -/
structure Carried (row row' : PlanRow) : Prop where
  index : row'.index = row.index
  label : row'.label = row.label
  name : row'.name = row.name
  verdict : row'.verdict = row.verdict ∨
    row.verdict = .add ∧ ∃ capacity, row'.verdict = .skip (.noRoom capacity)

theorem Carried.verdict_eq {row row' : PlanRow} (hcarried : Carried row row')
    (hwrites : row'.writes = true) : row'.verdict = row.verdict := by
  rcases hcarried.verdict with h | ⟨-, capacity, h⟩
  · exact h
  · simp [PlanRow.writes, Verdict.writes, h] at hwrites

theorem Carried.writes {row row' : PlanRow} (hcarried : Carried row row')
    (hwrites : row'.writes = true) : row.writes = true := by
  rw [PlanRow.writes, ← hcarried.verdict_eq hwrites]
  exact hwrites

theorem Carried.writes_of_replace {row row' : PlanRow} (hcarried : Carried row row')
    (hreplace : row.verdict = .replace) : row'.writes = true := by
  rcases hcarried.verdict with h | ⟨hadd, -⟩
  · simp [PlanRow.writes, Verdict.writes, h, hreplace]
  · rw [hreplace] at hadd
    cases hadd

theorem carried_setTouch (file : ImportFile) (target : Target) (wants : PlanRow → Bool) :
    List.Forall₂ Carried
      (Pass.pass (planStep target) { seen := [], nextSlot := target.firstSlot.toNat } file.items)
      ((plan file target).setTouch wants).rows := by
  rw [← planItems_eq_pass]
  refine (Pass.forall₂_comp ?_ (trimmed_planRows file.items target)
    (List.forall₂_map_right_iff.mpr (List.forall₂_same.mpr fun _ _ => rfl)) :
      List.Forall₂ Carried _ ((planRows file.items target).map _))
  · rintro row trimmed _ htrim rfl
    rcases htrim with rfl | ⟨hadd, capacity, rfl⟩
    · exact ⟨rfl, rfl, rfl, .inl rfl⟩
    · exact ⟨rfl, rfl, rfl, .inr ⟨hadd, capacity, rfl⟩⟩

theorem length_setTouch_rows (file : ImportFile) (target : Target) (wants : PlanRow → Bool) :
    ((plan file target).setTouch wants).rows.length = file.items.length := by
  rw [← (carried_setTouch file target wants).length_eq, Pass.length_pass]

/-- The row at an item's position comes from that item's turn. -/
theorem carried_at {file : ImportFile} {target : Target} {wants : PlanRow → Bool}
    {before after : List ImportItem} {item : ImportItem} {rowsBefore rowsAfter : List PlanRow}
    {row : PlanRow} (hitems : file.items = before ++ item :: after)
    (hrows : ((plan file target).setTouch wants).rows = rowsBefore ++ row :: rowsAfter)
    (hlen : before.length = rowsBefore.length) :
    Carried (planStep target (stateAfter target before) item).1 row := by
  have hcarried := carried_setTouch file target wants
  rw [hitems, hrows, Pass.pass_append, Pass.pass_cons] at hcarried
  exact Pass.rel_at (by simpa using hlen) hcarried

theorem items_beside_rows (file : ImportFile) (target : Target) (wants : PlanRow → Bool) :
    List.Forall₂ (fun _ _ => True) file.items ((plan file target).setTouch wants).rows :=
  Pass.forall₂_comp (fun _ _ _ _ _ => trivial)
    (Pass.forall₂_pass (fun _ => True) (R := fun _ _ => True) (fun _ _ _ => ⟨trivial, trivial⟩)
      trivial file.items) (carried_setTouch file target wants)

/-- The row of an item. -/
theorem row_at {file : ImportFile} {target : Target} {wants : PlanRow → Bool}
    {before after : List ImportItem} {item : ImportItem}
    (hitems : file.items = before ++ item :: after) :
    ∃ rowsBefore row rowsAfter,
      ((plan file target).setTouch wants).rows = rowsBefore ++ row :: rowsAfter ∧
        before.length = rowsBefore.length ∧
          Carried (planStep target (stateAfter target before) item).1 row := by
  have hall := items_beside_rows file target wants
  rw [hitems] at hall
  obtain ⟨rowsBefore, row, rowsAfter, hrows, hlen, -⟩ := Pass.exists_at hall
  exact ⟨rowsBefore, row, rowsAfter, hrows, hlen, carried_at hitems hrows hlen⟩

/-- The item of a row. -/
theorem item_at {file : ImportFile} {target : Target} {wants : PlanRow → Bool}
    {rowsBefore rowsAfter : List PlanRow} {row : PlanRow}
    (hrows : ((plan file target).setTouch wants).rows = rowsBefore ++ row :: rowsAfter) :
    ∃ before item after, file.items = before ++ item :: after ∧
      before.length = rowsBefore.length ∧
        Carried (planStep target (stateAfter target before) item).1 row := by
  have hall := (items_beside_rows file target wants).flip
  rw [hrows] at hall
  obtain ⟨before, item, after, hitems, hlen, -⟩ := Pass.exists_at hall
  exact ⟨before, item, after, hitems, hlen.symm, carried_at hitems hrows hlen.symm⟩

/-- The items whose rows write, beside these rows. -/
def plannedItems (file : ImportFile) (plan : Plan) : List (ImportItem × PlanRow) :=
  (file.items.zip plan.rows).filter fun pair => pair.2.writes

/-- A pair of item and row, as the item and the row at one position. -/
theorem pair_at {file : ImportFile} {target : Target} {wants : PlanRow → Bool}
    {before after : List (ImportItem × PlanRow)} {item : ImportItem} {row : PlanRow}
    (hpairs : file.items.zip ((plan file target).setTouch wants).rows =
      before ++ (item, row) :: after) :
    file.items = before.map (·.1) ++ item :: after.map (·.1) ∧
      Carried (planStep target (stateAfter target (before.map (·.1))) item).1 row := by
  have hlen := (length_setTouch_rows file target wants).symm
  obtain ⟨hitems, hrows⟩ := Pass.zip_split hlen hpairs
  exact ⟨hitems, carried_at hitems hrows (by simp)⟩

/-- A written row's name is the one the store gives its item. -/
theorem namedAs_planned {file : ImportFile} {target : Target} {wants : PlanRow → Bool}
    (hstore : target.store ≠ .molto2) {pair : ImportItem × PlanRow}
    (hpair : pair ∈ plannedItems file ((plan file target).setTouch wants)) :
    ∃ n, pair.2.name = some n ∧ namedAs target.store pair.1 = some n := by
  obtain ⟨hmem, hwrites⟩ := List.mem_filter.mp hpair
  obtain ⟨before, after, hpairs⟩ := List.append_of_mem hmem
  obtain ⟨item, row⟩ := pair
  obtain ⟨-, hcarried⟩ := pair_at hpairs
  obtain ⟨n, hn, hname, -⟩ := first_of_writes hstore (hcarried.writes hwrites)
  exact ⟨n, hcarried.name.trans hn, hname⟩

/-- A row of the plan that is run, as the second pass left it. -/
theorem writes_setTouch (file : ImportFile) (target : Target) (wants : PlanRow → Bool) :
    List.Forall₂ (fun row row' => row'.name = row.name ∧ row'.verdict = row.verdict)
      ((planRows file.items target).filter (·.writes))
      ((plan file target).setTouch wants).writes := by
  simp only [Plan.writes, Plan.setTouch, plan, List.filter_map]
  rw [List.forall₂_map_right_iff]
  exact List.forall₂_same.mpr fun _ _ => ⟨rfl, rfl⟩

/-- No name is written twice. -/
theorem distinct_writes (file : ImportFile) (target : Target) (wants : PlanRow → Bool) :
    ((plan file target).setTouch wants).writes.Pairwise fun a b => a.name ≠ b.name := by
  refine Pass.pairwise_of_forall₂ ?_ (distinct_planRows file.items target)
    (writes_setTouch file target wants)
  intro a b a' b' hne ha hb
  rw [ha.1, hb.1]
  exact hne

/-- A row that writes has a name. -/
theorem name_of_writes {file : ImportFile} {target : Target} {wants : PlanRow → Bool}
    {row : PlanRow} (hrow : row ∈ ((plan file target).setTouch wants).writes) :
    row.name ≠ none := by
  obtain ⟨hmem, hwrites⟩ := List.mem_filter.mp hrow
  obtain ⟨first, hfirst, hcarried⟩ :=
    Pass.exists_of_mem_right (carried_setTouch file target wants) hmem
  rw [← planItems_eq_pass] at hfirst
  obtain ⟨item, -, hsound⟩ := Pass.exists_of_mem_right (rowSound_planItems target _ _) hfirst
  obtain ⟨-, n, -, hn, -, -⟩ := hsound.fits (hcarried.writes hwrites)
  simp [hcarried.name, hn]

end Keyroost.Import
