import Keyroost.Library.Checks
import Keyroost.Library.Pass
import Keyroost.Import.Plan

/-!
# What a plan guarantees

The planner of `keyroost-import/src/plan.rs` decides one item at a time. `decideItem` is read here
once, through two views of what a store makes of an entry on its own: the name it would have
(`namedAs`) and the slot title it would fill (`slotTitle`).

Every fact about the first pass comes from the rules for a pass with a carried state
(`Library/Pass`), applied to the one turn `turn_decideItem`; every fact about the second pass comes
from how it changes one row (`Trimmed`). So when a rule of the planner changes, the lemmas about
one turn change and those about plans do not.
-/

namespace Keyroost.Import

/-! ### What a store makes of one entry -/

/-- The name under which a store that names its codes takes an item, if the
item's parameters and its name pass the store's checks. -/
def namedAs (store : Store) (item : ImportItem) : Option StoredName :=
  match item.entry with
  | .error _ => none
  | .ok e =>
      match checkParams e store (limits store), nameFor e store (limits store) with
      | .ok (), .ok n => some n
      | _, _ => none

/-- The title an item gets in a Molto2 slot, if it may fill one. -/
def slotTitle (item : ImportItem) : Option RustStr :=
  match item.entry with
  | .error _ => none
  | .ok e =>
      match checkParams e .molto2 (limits .molto2) with
      | .error _ => none
      | .ok () =>
          let title := moltoTitle e.issuer e.account
          if title.isEmpty then none else some title

theorem namedAs_eq_some {store : Store} {item : ImportItem} {n : StoredName} :
    namedAs store item = some n ↔
      ∃ e, item.entry = .ok e ∧ checkParams e store (limits store) = .ok () ∧
        nameFor e store (limits store) = .ok n := by
  unfold namedAs
  cases hentry : item.entry with
  | error why => simp
  | ok e =>
      cases hparams : checkParams e store (limits store) with
      | error why => simp [hparams]
      | ok _ =>
          cases hname : nameFor e store (limits store) with
          | error why => simp [hparams, hname]
          | ok m => simp [hparams, hname]

theorem slotTitle_eq_some {item : ImportItem} {title : RustStr} :
    slotTitle item = some title ↔
      ∃ e, item.entry = .ok e ∧ checkParams e .molto2 (limits .molto2) = .ok () ∧
        moltoTitle e.issuer e.account = title ∧ title ≠ [] := by
  unfold slotTitle
  cases hentry : item.entry with
  | error why => simp
  | ok e =>
      cases hparams : checkParams e .molto2 (limits .molto2) with
      | error why => simp [hparams]
      | ok _ =>
          by_cases htitle : moltoTitle e.issuer e.account = []
          · simp [htitle, hparams]
          · simp only [hparams, List.isEmpty_iff, htitle, if_false, Option.some.injEq,
              Except.ok.injEq, exists_eq_left', true_and]
            constructor
            · rintro rfl
              exact ⟨rfl, htitle⟩
            · exact fun h => h.1

/-! ### The limits, as the devices state them -/

/-- The period or the counter is one the store keeps. -/
def KindFits (kind : OtpKind) (lim : Limits) : Prop :=
  match kind with
  | .totp period =>
      match lim.totp with
      | .any => True
      | .only30 => period = 30
      | .molto2 => period = 30 ∨ period = 60
      | .range low high => low ≤ period ∧ period ≤ high
  | .hotp counter =>
      match lim.hotp with
      | .no => False
      | .counterU32 => counter ≤ 0xFFFFFFFF
      | .counterZeroOnly => counter = 0

/-- Hash, digits, period or counter, and secret are within the store's limits. These are the checks
that need no other entry; names and room come after them. -/
structure ParamsFit (e : ImportEntry) (store : Store) (lim : Limits) : Prop where
  hash : e.hash ∈ lim.hashes
  digits : lim.digitsLow ≤ e.digits ∧ e.digits ≤ lim.digitsHigh
  moltoDigits : store = .molto2 → moltoDigits e.digits = true
  kind : KindFits e.kind lim
  secret : ∀ max ∈ lim.secretMax, e.secret.val.length ≤ max

/-- The texts of a name that the store's limits are about. -/
def StoredName.parts : StoredName → List RustStr
  | .oath name => [name]
  | .token2 app account => [app, account]
  | .molto2 _ title => [title]

/-- Length and character set are within the store's limits. Lengths are in bytes, as the source
counts them, and each part of a name has to fit by itself. -/
structure NameFits (n : StoredName) (lim : Limits) : Prop where
  length : ∀ part ∈ n.parts, ∀ max ∈ lim.nameMax, part.len ≤ max
  ascii : lim.asciiOnly = true → ∀ part ∈ n.parts, part.isAscii = true

theorem checkKind_eq_ok {kind : OtpKind} {lim : Limits}
    (hhotp : ∀ counter, kind = .hotp counter → lim.hotp ≠ .no) :
    checkKind kind lim = .ok () ↔ KindFits kind lim := by
  cases kind with
  | totp period =>
      unfold checkKind KindFits
      cases lim.totp with
      | any => simp
      | only30 => by_cases h : period = 30 <;> simp [h]
      | molto2 => by_cases h : period = 30 <;> by_cases h' : period = 60 <;> simp [h, h']
      | range low high => by_cases h : low ≤ period ∧ period ≤ high <;> simp [h]
  | hotp counter =>
      have hsome := hhotp counter rfl
      unfold checkKind KindFits
      cases hrule : lim.hotp with
      | no => exact absurd hrule hsome
      | counterU32 => simp
      | counterZeroOnly => by_cases h : counter = 0 <;> simp [h]

/-- The parameter checks pass exactly when the parameters are within the limits. -/
theorem checkParams_eq_ok {e : ImportEntry} {store : Store} {lim : Limits} :
    checkParams e store lim = .ok () ↔ ParamsFit e store lim := by
  have hchain : checkParams e store lim = .ok () ↔
      ¬((∃ counter, e.kind = .hotp counter) ∧ lim.hotp = .no) ∧ e.hash ∈ lim.hashes ∧
        ((lim.digitsLow ≤ e.digits ∧ e.digits ≤ lim.digitsHigh) ∧
          (store = .molto2 → moltoDigits e.digits = true)) ∧
        checkKind e.kind lim = .ok () ∧ ∀ max ∈ lim.secretMax, e.secret.val.length ≤ max := by
    unfold checkParams
    cases hkind : e.kind with
    | totp period => cases hmax : lim.secretMax <;> simp
    | hotp counter => cases hmax : lim.secretMax <;> simp
  rw [hchain]
  constructor
  · rintro ⟨hhotp, hhash, hdigits, hkind, hsecret⟩
    exact ⟨hhash, hdigits.1, hdigits.2,
      (checkKind_eq_ok fun counter hcounter hno => hhotp ⟨⟨counter, hcounter⟩, hno⟩).mp hkind,
      hsecret⟩
  · intro hfit
    have hhotp : ∀ counter, e.kind = .hotp counter → lim.hotp ≠ .no := by
      intro counter hcounter hno
      have hkind := hfit.kind
      simp [KindFits, hcounter, hno] at hkind
    exact ⟨fun h => hhotp h.1.choose h.1.choose_spec h.2, hfit.hash,
      ⟨hfit.digits, hfit.moltoDigits⟩, (checkKind_eq_ok hhotp).mpr hfit.kind, hfit.secret⟩

/-! ### One turn of the first pass -/

/-- The row of an item, without a name or with one, that nothing is written for. -/
def Decision.Refuses (d : Decision) (s : PlanState) : Prop :=
  d.verdict.writes = false ∧ d.verdict ≠ .exists_ ∧ d.state = s

variable {target : Target} {s : PlanState} {item : ImportItem}

/-- What is refused is skipped for some reason. -/
theorem Decision.Refuses.skips {d : Decision} (hrefuses : d.Refuses s) :
    ∃ why, d.verdict = .skip why := by
  obtain ⟨hwrites, hthere, -⟩ := hrefuses
  cases hverdict : d.verdict with
  | add => simp [Verdict.writes, hverdict] at hwrites
  | replace => simp [Verdict.writes, hverdict] at hwrites
  | exists_ => exact absurd hverdict hthere
  | skip why => exact ⟨why, rfl⟩

theorem decideItem_refused_named (hstore : target.store ≠ .molto2)
    (hname : namedAs target.store item = none) :
    (decideItem target s item).Refuses s ∧ (decideItem target s item).name = none := by
  unfold namedAs at hname
  unfold decideItem
  cases hentry : item.entry with
  | error why => exact ⟨⟨rfl, by simp, rfl⟩, rfl⟩
  | ok e =>
      cases hparams : checkParams e target.store (limits target.store) with
      | error why => simp [hparams, Decision.Refuses, Verdict.writes]
      | ok _ =>
          cases hfor : nameFor e target.store (limits target.store) with
          | error why => simp [hparams, hfor, hstore, Decision.Refuses, Verdict.writes]
          | ok n => simp [hentry, hparams, hfor] at hname

theorem decideItem_named (hstore : target.store ≠ .molto2) {n : StoredName}
    (hname : namedAs target.store item = some n) :
    decideItem target s item = decideNamed target s item.index n := by
  obtain ⟨e, hentry, hparams, hfor⟩ := namedAs_eq_some.mp hname
  simp [decideItem, hentry, hparams, hfor, hstore]

theorem decideItem_refused_molto (hstore : target.store = .molto2)
    (htitle : slotTitle item = none) : (decideItem target s item).Refuses s := by
  unfold slotTitle at htitle
  unfold decideItem
  cases hentry : item.entry with
  | error why => exact ⟨rfl, by simp, rfl⟩
  | ok e =>
      cases hparams : checkParams e .molto2 (limits .molto2) with
      | error why => simp [hstore, hparams, Decision.Refuses, Verdict.writes]
      | ok _ =>
          have hempty : (moltoTitle e.issuer e.account).isEmpty = true := by
            simpa [hentry, hparams] using htitle
          simp [hstore, hparams, decideMolto, hempty, Decision.Refuses, Verdict.writes]

/-- The row of an item that fills the next Molto2 slot. -/
theorem decideItem_slot (hstore : target.store = .molto2) {title : RustStr}
    (htitle : slotTitle item = some title) :
    decideItem target s item =
      if MOLTO_LAST_SLOT < s.nextSlot then
        { name := none, verdict := .skip .pastLastSlot, state := s }
      else
        { name := some (.molto2 s.nextSlot.toUInt8 title)
          verdict :=
            if slotOccupied target.existing s.nextSlot.toUInt8 then .replace else .add
          state := { s with nextSlot := s.nextSlot + 1 } } := by
  obtain ⟨e, hentry, hparams, rfl, hne⟩ := slotTitle_eq_some.mp htitle
  simp [decideItem, hentry, hstore, hparams, decideMolto, hne]

/-- A name planned before. -/
def PlanState.Seen (s : PlanState) (n : StoredName) : Prop := n ∈ s.seen.map (·.1)

/-- What naming an item can come to, a case for each way through the source's checks. A name is
remembered when it is on the key or is added; a repeated name and one that starts another are not.
-/
inductive Named (target : Target) (s : PlanState) (index : Nat) (n : StoredName) : Decision → Prop
  | repeated (first : Nat) (hseen : s.Seen n) :
      Named target s index n
        { name := some n, verdict := .skip (.sameNameInFile first), state := s }
  | there (hseen : ¬s.Seen n) (hkey : n ∈ target.existing.names) (hkeep : target.replace = false) :
      Named target s index n
        { name := some n, verdict := .exists_, state := { s with seen := s.seen ++ [(n, index)] } }
  | starts (hseen : ¬s.Seen n) (hwrite : n ∈ target.existing.names → target.replace = true)
      (hstarts : startsAnotherName target.store n target.existing s.seen = true) :
      Named target s index n { name := some n, verdict := .skip .startsAnotherName, state := s }
  | added (hseen : ¬s.Seen n) (hkey : n ∉ target.existing.names)
      (hstarts : startsAnotherName target.store n target.existing s.seen = false) :
      Named target s index n
        { name := some n, verdict := .add, state := { s with seen := s.seen ++ [(n, index)] } }
  | replaced (hseen : ¬s.Seen n) (hkey : n ∈ target.existing.names)
      (hreplace : target.replace = true)
      (hstarts : startsAnotherName target.store n target.existing s.seen = false) :
      Named target s index n
        { name := some n, verdict := .replace, state := { s with seen := s.seen ++ [(n, index)] } }

theorem named_decideNamed (target : Target) (s : PlanState) (index : Nat) (n : StoredName) :
    Named target s index n (decideNamed target s index n) := by
  unfold decideNamed
  cases hfind : s.seen.find? (·.1 = n) with
  | some found =>
      have hmem := List.mem_of_find?_eq_some hfind
      have hname : found.1 = n := by simpa using List.find?_some hfind
      exact .repeated found.2 (List.mem_map.mpr ⟨found, hmem, hname⟩)
  | none =>
      have hseen : ¬s.Seen n := by
        intro hmem
        obtain ⟨pair, hpair, hname⟩ := List.mem_map.mp hmem
        have hno := List.find?_eq_none.mp hfind pair hpair
        simp [hname] at hno
      by_cases hkey : n ∈ target.existing.names
      · cases hreplace : target.replace with
        | false => simpa [hkey] using Named.there hseen hkey hreplace
        | true =>
            cases hstarts : startsAnotherName target.store n target.existing s.seen with
            | true => simpa [hkey, hstarts] using Named.starts hseen (fun _ => hreplace) hstarts
            | false => simpa [hkey, hstarts] using Named.replaced hseen hkey hreplace hstarts
      · cases hstarts : startsAnotherName target.store n target.existing s.seen with
        | true => simpa [hkey, hstarts] using Named.starts hseen (fun h => absurd h hkey) hstarts
        | false => simpa [hkey, hstarts] using Named.added hseen hkey hstarts

/-- All that one turn of the first pass can do: refuse the item, give it the next slot of a Molto2,
or name it on another store. What the pass keeps is proved from these three cases. -/
inductive Turn (target : Target) (s : PlanState) (item : ImportItem) : Decision → Prop
  | refused {d : Decision} (hrefuses : d.Refuses s)
      (hname : target.store ≠ .molto2 → namedAs target.store item = none) : Turn target s item d
  | slot (hstore : target.store = .molto2) {title : RustStr} (htitle : slotTitle item = some title)
      (hlast : s.nextSlot ≤ MOLTO_LAST_SLOT) :
      Turn target s item
        { name := some (.molto2 s.nextSlot.toUInt8 title)
          verdict := if slotOccupied target.existing s.nextSlot.toUInt8 then .replace else .add
          state := { s with nextSlot := s.nextSlot + 1 } }
  | named (hstore : target.store ≠ .molto2) {n : StoredName}
      (hname : namedAs target.store item = some n) {d : Decision}
      (hd : Named target s item.index n d) : Turn target s item d

theorem refuses_skip (name : Option StoredName) (why : Skip) (s : PlanState) :
    Decision.Refuses { name, verdict := .skip why, state := s } s :=
  ⟨rfl, by simp, rfl⟩

theorem turn_decideItem (target : Target) (s : PlanState) (item : ImportItem) :
    Turn target s item (decideItem target s item) := by
  by_cases hstore : target.store = .molto2
  · cases htitle : slotTitle item with
    | none =>
        exact .refused (decideItem_refused_molto hstore htitle) (fun h => absurd hstore h)
    | some title =>
        rw [decideItem_slot hstore htitle]
        split
        · exact .refused (refuses_skip _ _ s) (fun h => absurd hstore h)
        · exact .slot hstore htitle (by omega)
  · cases hname : namedAs target.store item with
    | none => exact .refused (decideItem_refused_named hstore hname).1 (fun _ => hname)
    | some n =>
        rw [decideItem_named hstore hname]
        exact .named hstore hname (named_decideNamed target s item.index n)

/-! ### The first pass as a pass -/

/-- One turn of the first pass, as a step of a pass. -/
def planStep (target : Target) (s : PlanState) (item : ImportItem) : PlanRow × PlanState :=
  ((decideItem target s item).row item, (decideItem target s item).state)

theorem planItems_eq_pass (target : Target) (s : PlanState) (items : List ImportItem) :
    planItems target s items = Pass.pass (planStep target) s items := by
  induction items generalizing s with
  | nil => rfl
  | cons item items ih => simp only [planItems, Pass.pass_cons, planStep, ih]

/-! ### Names from checks -/

theorem checkNameLen_eq_ok {max : Option Nat} {part : RustStr} :
    checkNameLen max part = .ok () ↔ ∀ m ∈ max, part.len ≤ m := by
  cases max with
  | none => simp [checkNameLen]
  | some m => by_cases h : m < part.len <;> simp [checkNameLen, h, Nat.not_lt.mp]

theorem nameFor_oath_eq_ok {e : ImportEntry} {family : OathFamily} {lim : Limits}
    {n : StoredName} :
    nameFor e (.oath family) lim = .ok n ↔
      ∃ name, oathName e family = .ok name ∧ (∀ m ∈ lim.nameMax, name.len ≤ m) ∧
        oathPutFits name.len e.secret.val.length (sendsImf e.kind) = true ∧ .oath name = n := by
  simp [nameFor, checkNameLen_eq_ok]

theorem nameFor_token2_eq_ok {e : ImportEntry} {lim : Limits} {n : StoredName} :
    nameFor e .token2Otp lim = .ok n ↔
      ∃ app account, token2Name e = .ok (app, account) ∧
        (app.isAscii = true ∧ account.isAscii = true) ∧ (∀ m ∈ lim.nameMax, app.len ≤ m) ∧
        (∀ m ∈ lim.nameMax, account.len ≤ m) ∧ .token2 app account = n := by
  simp [nameFor, checkNameLen_eq_ok]

/-- A name that passes its checks is within the limits. -/
theorem nameFits_of_nameFor {e : ImportEntry} {store : Store} {n : StoredName}
    (hname : nameFor e store (limits store) = .ok n) : NameFits n (limits store) := by
  cases store with
  | molto2 => simp [nameFor] at hname
  | oath family =>
      obtain ⟨name, -, hlen, -, rfl⟩ := nameFor_oath_eq_ok.mp hname
      refine ⟨by simpa [StoredName.parts] using hlen, ?_⟩
      cases family <;> simp [limits]
  | token2Otp =>
      obtain ⟨app, account, -, ⟨happ, haccount⟩, hlenApp, hlenAccount, rfl⟩ :=
        nameFor_token2_eq_ok.mp hname
      exact ⟨by simpa [StoredName.parts] using ⟨hlenApp, hlenAccount⟩,
        by simp [StoredName.parts, happ, haccount]⟩

end Keyroost.Import
