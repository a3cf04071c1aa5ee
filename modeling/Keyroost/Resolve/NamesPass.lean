import Keyroost.Resolve.Names
import Keyroost.Keyring.Consistent

/-!
# What a naming pass asks for

It is a question about the rows in `list` order, the keyring and the names read from the keys: the
first carrier of a name that no record holds has it recorded, every row's stale records are dropped,
and the names that rows already show play no part.

The pass of `Names` is a fold that remembers what it has seen. Here its updates are found without
the fold: `passUpdates` is the list of them row by row, and `firstSeen_mem` and `dropStale_mem` say
which updates are in it by properties of the rows alone. `applyNames_congr` is about rows that
differ only in what they show.
-/

namespace Keyroost.Resolve

open Keyring Keyring.NameEdit Ring

variable {h : Hasher} {ring : Ring} {labels : Labels} {claimed : List (RustStr × RustStr)}
  {d : Device} {l s : RustStr}

/-! ### One row -/

theorem valid_of_present {text l : RustStr} (ht : KeyLabel.fromText text = .present l) :
    validateName l = .ok () := by
  rw [KeyLabel.fromText] at ht
  split at ht
  · rename_i hvalid
    cases ht
    exact hvalid
  · cases ht

theorem valid_onKey (hl : onKeyLabel labels d = .present l) : validateName l = .ok () := by
  rw [onKeyLabel] at hl
  split at hl
  · exact valid_of_present hl
  · rename_i hno _
    exact absurd hl (hno l)
  · cases hl

/-- The key has a record of another name than `l` under the serial `s`. -/
def Stale (h : Hasher) (ring : Ring) (l s : RustStr) : Prop :=
  ∃ r ∈ ring.keys, isOf r (ring.fingerprintOf h s) = true ∧ r.stored = .key ∧ r.name ≠ l

theorem any_recordsFor : ((ring.recordsFor h s).any fun r =>
    decide (r.stored = .key) && decide (r.name ≠ l)) = true ↔ Stale h ring l s := by
  rw [List.any_eq_true, Stale]
  constructor
  · rintro ⟨r, hr, hstale⟩
    rw [recordsFor, List.mem_filter] at hr
    rw [Bool.and_eq_true, decide_eq_true_iff, decide_eq_true_iff] at hstale
    exact ⟨r, hr.1, hr.2, hstale⟩
  · rintro ⟨r, hr, hof, hstale⟩
    refine ⟨r, List.mem_filter.mpr ⟨hr, hof⟩, ?_⟩
    rw [Bool.and_eq_true, decide_eq_true_iff, decide_eq_true_iff]
    exact hstale

theorem mem_staleUpdates {seen known : List RustStr} {u : NameUpdate}
    (hu : u ∈ staleUpdates h ring l seen known) :
    ∃ s ∈ known, u = .dropStale s l ∧ Stale h ring l s := by
  induction known generalizing seen with
  | nil => cases hu
  | cons s known ih =>
      rw [staleUpdates] at hu
      split at hu
      · obtain ⟨s', hs', hrest⟩ := ih hu
        exact ⟨s', List.mem_cons_of_mem s hs', hrest⟩
      · rcases List.mem_append.mp hu with hhead | htail
        · split at hhead
          · rename_i hstale
            exact ⟨s, List.mem_cons_self, List.mem_singleton.mp hhead, any_recordsFor.mp hstale⟩
          · cases hhead
        · obtain ⟨s', hs', hrest⟩ := ih htail
          exact ⟨s', List.mem_cons_of_mem s hs', hrest⟩

/-- A stale record is asked to be dropped, under the first serial of its canonical form. -/
theorem staleUpdates_complete {seen known : List RustStr} (hs : s ∈ known)
    (hseen : canonicalSerial h s ∉ seen) (hstale : ∀ s', canonicalSerial h s' =
      canonicalSerial h s → Stale h ring l s') :
    ∃ s', canonicalSerial h s' = canonicalSerial h s ∧
      .dropStale s' l ∈ staleUpdates h ring l seen known := by
  induction known generalizing seen with
  | nil => cases hs
  | cons s₀ known ih =>
      rw [staleUpdates]
      by_cases heq : canonicalSerial h s₀ = canonicalSerial h s
      · rw [if_neg (heq ▸ hseen), if_pos (any_recordsFor.mpr (hstale s₀ heq))]
        exact ⟨s₀, heq, List.mem_append_left _ (List.mem_singleton_self _)⟩
      · have hs' : s ∈ known := by
          rcases List.mem_cons.mp hs with rfl | htail
          · exact absurd rfl heq
          · exact htail
        split
        · exact ih hs' hseen
        · have hseen' : canonicalSerial h s ∉ seen ++ [canonicalSerial h s₀] := by
            rw [List.mem_append, List.mem_singleton, not_or]
            exact ⟨hseen, Ne.symm heq⟩
          obtain ⟨s', hcanon, hmem⟩ := ih hs' hseen'
          exact ⟨s', hcanon, List.mem_append_right _ hmem⟩

theorem firstSeen_not_stale {seen known : List RustStr} {s' l' : RustStr} :
    .firstSeen s' l' ∉ staleUpdates h ring l seen known := by
  intro hu
  obtain ⟨s, -, heq, -⟩ := mem_staleUpdates hu
  cases heq

theorem lookup_cons_of_ne {l l' : RustStr} (c : RustStr) (hne : l' ≠ l) :
    ((l, c) :: claimed).lookup l' = claimed.lookup l' := by
  have hbeq : (l' == l) = false := beq_eq_false_iff_ne.mpr hne
  rw [List.lookup_cons, hbeq]

/-- What a row asks for at the first sight of its name. -/
def firstSight (h : Hasher) (ring : Ring) (claimed : List (RustStr × RustStr)) (d : Device)
    (l : RustStr) : List NameUpdate :=
  if ring.holder l = none ∧ claimed.lookup l = none then
    if (canonicalSerial h d.serial).isEmpty then [.unrecordable l] else [.firstSeen d.serial l]
  else []

theorem nameFromKey_updates (h : Hasher) (ring : Ring) (claimed : List (RustStr × RustStr))
    (d : Device) (l : RustStr) : (nameFromKey h ring claimed d l).updates =
      firstSight h ring claimed d l ++ staleUpdates h ring l [] (d.known h) := by
  rw [nameFromKey, firstSight]
  dsimp only
  split
  · rename_i hfirst
    rw [Bool.and_eq_true, Option.isNone_iff_eq_none] at hfirst
    rcases hclaimed : claimed.lookup l with _ | claimant
    · simp [hfirst.1]
    · simp
  · rename_i hnot
    have hno : ¬ (ring.holder l = none ∧ claimed.lookup l = none) := by
      rintro ⟨hholder, hclaimed⟩
      apply hnot
      rw [hholder, firstHere, hclaimed]
      rfl
    rw [if_neg hno, List.nil_append]
    split
    · rfl
    · split <;> rfl

theorem nameFromKey_claimed (h : Hasher) (ring : Ring) (claimed : List (RustStr × RustStr))
    (d : Device) (l : RustStr) :
    (∀ l', l' ≠ l → (nameFromKey h ring claimed d l).claimed.lookup l' = claimed.lookup l') ∧
    (ring.holder l = none → (nameFromKey h ring claimed d l).claimed.lookup l ≠ none) := by
  rw [nameFromKey]
  dsimp only
  split
  · refine ⟨fun l' hne => lookup_cons_of_ne _ hne, fun _ => ?_⟩
    rw [List.lookup_cons_self]
    exact Option.some_ne_none _
  · rename_i hnot
    have hclaims : ring.holder l = none → claimed.lookup l ≠ none := by
      intro hholder hclaimed
      apply hnot
      rw [hholder, firstHere, hclaimed]
      rfl
    split
    · split
      · exact ⟨fun _ _ => rfl, hclaims⟩
      · refine ⟨fun l' hne => lookup_cons_of_ne _ hne, fun _ => ?_⟩
        rw [List.lookup_cons_self]
        exact Option.some_ne_none _
    · split
      · exact ⟨fun _ _ => rfl, hclaims⟩
      · exact ⟨fun _ _ => rfl, hclaims⟩

theorem nameRow_of_present (hl : onKeyLabel labels d = .present l) :
    nameRow h ring labels claimed d = nameFromKey h ring claimed d l := by
  rw [nameRow, hl]

theorem nameRow_of_not_present (hl : ∀ l, onKeyLabel labels d ≠ .present l) :
    (nameRow h ring labels claimed d).updates = [] ∧
    (nameRow h ring labels claimed d).claimed = claimed := by
  have heq : nameRow h ring labels claimed d =
      nameFromComputer h ring claimed d (onKeyLabel labels d) := by
    rw [nameRow]
    split
    · rename_i l hpresent
      exact absurd hpresent (hl l)
    · rfl
  rw [heq, nameFromComputer]
  dsimp only
  split <;> exact ⟨rfl, rfl⟩

/-! ### A whole pass -/

/-- What the rows ask for, in order. -/
def passUpdates (h : Hasher) (ring : Ring) (labels : Labels) :
    List (RustStr × RustStr) → List Device → List NameUpdate
  | _, [] => []
  | claimed, d :: rows =>
      (nameRow h ring labels claimed d).updates ++
        passUpdates h ring labels (nameRow h ring labels claimed d).claimed rows

/-- The first row that carries a name. -/
def FirstCarrier (labels : Labels) (rows : List Device) (l : RustStr) (d : Device) : Prop :=
  ∃ front back, rows = front ++ d :: back ∧ onKeyLabel labels d = .present l ∧
    ∀ e ∈ front, onKeyLabel labels e ≠ .present l

theorem firstCarrier_cons_self {rows : List Device} {e : Device}
    (hd : onKeyLabel labels d = .present l) : FirstCarrier labels (d :: rows) l e ↔ e = d := by
  constructor
  · rintro ⟨front, back, heq, -, hfront⟩
    cases front with
    | nil => exact (List.cons.inj heq).1.symm
    | cons f front =>
        rw [(List.cons.inj heq).1] at hd
        exact absurd hd (hfront f List.mem_cons_self)
  · rintro rfl
    exact ⟨[], rows, rfl, hd, fun f hf => nomatch hf⟩

theorem firstCarrier_cons_of_ne {rows : List Device} {e : Device}
    (hd : onKeyLabel labels d ≠ .present l) :
    FirstCarrier labels (d :: rows) l e ↔ FirstCarrier labels rows l e := by
  constructor
  · rintro ⟨front, back, heq, hl, hfront⟩
    cases front with
    | nil => exact absurd ((List.cons.inj heq).1 ▸ hl) hd
    | cons f front =>
        exact ⟨front, back, (List.cons.inj heq).2, hl,
          fun g hg => hfront g (List.mem_cons_of_mem f hg)⟩
  · rintro ⟨front, back, rfl, hl, hfront⟩
    refine ⟨d :: front, back, rfl, hl, ?_⟩
    intro f hf
    rcases List.mem_cons.mp hf with rfl | hf
    · exact hd
    · exact hfront f hf

/-- A name that is held, or claimed by an earlier row, is not recorded. -/
theorem firstSeen_not_mem {rows : List Device}
    (hblocked : ring.holder l = none → claimed.lookup l ≠ none) :
    .firstSeen s l ∉ passUpdates h ring labels claimed rows := by
  induction rows generalizing claimed with
  | nil => exact fun hu => nomatch hu
  | cons d rows ih =>
      rw [passUpdates, List.mem_append, not_or]
      by_cases hpresent : ∃ l', onKeyLabel labels d = .present l'
      · obtain ⟨l', hl'⟩ := hpresent
        rw [nameRow_of_present hl', nameFromKey_updates]
        obtain ⟨hothers, hclaims⟩ := nameFromKey_claimed h ring claimed d l'
        constructor
        · rw [List.mem_append, not_or]
          refine ⟨?_, firstSeen_not_stale⟩
          rw [firstSight]
          intro hu
          split at hu
          · rename_i hnone
            split at hu
            · cases List.mem_singleton.mp hu
            · cases List.mem_singleton.mp hu
              exact hblocked hnone.1 hnone.2
          · cases hu
        · refine ih fun hholder => ?_
          by_cases hll : l = l'
          · subst hll
            exact hclaims hholder
          · rw [hothers l hll]
            exact hblocked hholder
      · rw [not_exists] at hpresent
        obtain ⟨hupdates, hsame⟩ :=
          @nameRow_of_not_present h ring labels claimed d hpresent
        rw [hupdates, hsame]
        exact ⟨fun hu => (nomatch hu), ih hblocked⟩

/-- **A name is recorded at its first carrier**, if it is free and the carrier has a usable
serial. -/
theorem firstSeen_mem {rows : List Device} (hclaimed : claimed.lookup l = none) :
    .firstSeen s l ∈ passUpdates h ring labels claimed rows ↔ ring.holder l = none ∧
      ∃ d, FirstCarrier labels rows l d ∧ (canonicalSerial h d.serial).isEmpty = false ∧
        s = d.serial := by
  induction rows generalizing claimed with
  | nil =>
      constructor
      · exact fun hu => nomatch hu
      · rintro ⟨-, d, ⟨front, back, heq, -⟩, -⟩
        cases front <;> cases heq
  | cons d rows ih =>
      rw [passUpdates, List.mem_append]
      by_cases hpresent : ∃ l', onKeyLabel labels d = .present l'
      · obtain ⟨l', hl'⟩ := hpresent
        rw [nameRow_of_present hl', nameFromKey_updates]
        obtain ⟨hothers, hclaims⟩ := nameFromKey_claimed h ring claimed d l'
        have hrow : .firstSeen s l ∈ firstSight h ring claimed d l' ++
            staleUpdates h ring l' [] (d.known h) ↔ l = l' ∧ ring.holder l = none ∧
              (canonicalSerial h d.serial).isEmpty = false ∧ s = d.serial := by
          rw [List.mem_append, or_iff_left firstSeen_not_stale, firstSight]
          by_cases hll : l = l'
          · subst hll
            rcases hcanon : (canonicalSerial h d.serial).isEmpty with _ | _
            · simp [hclaimed]
            · simp
          · constructor
            · intro hu
              split at hu
              · split at hu
                · cases List.mem_singleton.mp hu
                · cases List.mem_singleton.mp hu
                  exact absurd rfl hll
              · cases hu
            · rintro ⟨heq, -⟩
              exact absurd heq hll
        rw [hrow]
        by_cases hll : l = l'
        · subst hll
          simp only [firstCarrier_cons_self hl', true_and, exists_eq_left]
          constructor
          · rintro (hu | hu)
            · exact hu
            · exact absurd hu (firstSeen_not_mem hclaims)
          · exact .inl
        · simp only [hll, false_and, false_or]
          rw [ih (hothers l hll ▸ hclaimed)]
          simp only [firstCarrier_cons_of_ne (fun heq => hll (KeyLabel.present.inj
            (heq.symm.trans hl'))) ]
      · rw [not_exists] at hpresent
        obtain ⟨hupdates, hsame⟩ :=
          @nameRow_of_not_present h ring labels claimed d hpresent
        rw [hupdates, hsame, ih hclaimed]
        simp only [firstCarrier_cons_of_ne (hpresent l), List.not_mem_nil, false_or]

theorem fingerprintOf_congr {s' : RustStr} (hcanon : canonicalSerial h s' = canonicalSerial h s) :
    ring.fingerprintOf h s' = ring.fingerprintOf h s := by
  have hsalt : ∀ salt, fingerprint h salt s' = fingerprint h salt s := fun salt => by
    rw [fingerprint, fingerprint, hcanon]
  rw [fingerprintOf, fingerprintOf, hcanon]
  simp only [hsalt]

/-- One of the rows carries the name and may be known by the serial. -/
def Carries (h : Hasher) (labels : Labels) (rows : List Device) (l s : RustStr) : Prop :=
  ∃ d ∈ rows, onKeyLabel labels d = .present l ∧ s ∈ d.known h

theorem Carries.cons {rows : List Device} (hc : Carries h labels rows l s) (d : Device) :
    Carries h labels (d :: rows) l s := by
  obtain ⟨e, he, hrest⟩ := hc
  exact ⟨e, List.mem_cons_of_mem d he, hrest⟩

theorem dropStale_mem {rows : List Device}
    (hu : .dropStale s l ∈ passUpdates h ring labels claimed rows) :
    Carries h labels rows l s ∧ Stale h ring l s := by
  induction rows generalizing claimed with
  | nil => cases hu
  | cons d rows ih =>
      rw [passUpdates] at hu
      rcases List.mem_append.mp hu with hhead | htail
      · by_cases hpresent : ∃ l', onKeyLabel labels d = .present l'
        · obtain ⟨l', hl'⟩ := hpresent
          rw [nameRow_of_present hl', nameFromKey_updates] at hhead
          rcases List.mem_append.mp hhead with hfirst | hstale
          · rw [firstSight] at hfirst
            split at hfirst
            · split at hfirst <;> cases List.mem_singleton.mp hfirst
            · cases hfirst
          · obtain ⟨s', hs', heq, hst⟩ := mem_staleUpdates hstale
            cases heq
            exact ⟨⟨d, List.mem_cons_self, hl', hs'⟩, hst⟩
        · rw [not_exists] at hpresent
          rw [(@nameRow_of_not_present h ring labels claimed d hpresent).1] at hhead
          cases hhead
      · obtain ⟨hc, hst⟩ := ih htail
        exact ⟨hc.cons d, hst⟩

theorem dropStale_complete {rows : List Device} (hc : Carries h labels rows l s)
    (hst : Stale h ring l s) : ∃ s', canonicalSerial h s' = canonicalSerial h s ∧
      .dropStale s' l ∈ passUpdates h ring labels claimed rows := by
  induction rows generalizing claimed with
  | nil =>
      obtain ⟨d, hd, -⟩ := hc
      cases hd
  | cons d rows ih =>
      obtain ⟨e, he, hl, hs⟩ := hc
      rw [passUpdates]
      rcases List.mem_cons.mp he with rfl | he
      · rw [nameRow_of_present hl, nameFromKey_updates]
        obtain ⟨s', hcanon, hmem⟩ := staleUpdates_complete (l := l) hs (List.not_mem_nil)
          (fun s' hcanon => by
            obtain ⟨r, hr, hof, hrest⟩ := hst
            exact ⟨r, hr, fingerprintOf_congr hcanon ▸ hof, hrest⟩)
        exact ⟨s', hcanon, List.mem_append_left _ (List.mem_append_right _ hmem)⟩
      · obtain ⟨s', hcanon, hmem⟩ := ih ⟨e, he, hl, hs⟩
        exact ⟨s', hcanon, List.mem_append_right _ hmem⟩

/-! ### Rows without their names -/

/-- The row before any pass has named it. -/
def Device.bare (d : Device) : Device := { d with name := none, naming := .unnamed }

theorem bare_named (n : Named) : (d.named n).bare = d.bare := rfl

theorem named_congr {e : Device} (n : Named) (hde : d.bare = e.bare) : d.named n = e.named n := by
  change (d.bare).named n = (e.bare).named n
  rw [hde]

theorem nameRow_bare : nameRow h ring labels claimed d.bare = nameRow h ring labels claimed d := rfl

/-- The same rows, but for how they are named. -/
def SameRows (devices devices' : List Device) : Prop :=
  devices.map Device.bare = devices'.map Device.bare

namespace SameRows

variable {devices devices' : List Device}

theorem length (hs : SameRows devices devices') : devices.length = devices'.length := by
  have hlen := congrArg List.length hs
  rwa [List.length_map, List.length_map] at hlen

theorem get (hs : SameRows devices devices') (i : Nat) :
    (devices[i]?).map Device.bare = (devices'[i]?).map Device.bare := by
  rw [← List.getElem?_map, ← List.getElem?_map, hs]

theorem set (hs : SameRows devices devices') (i : Nat) {d e : Device} (hde : d.bare = e.bare) :
    SameRows (devices.set i d) (devices'.set i e) := by
  rw [SameRows, List.map_set, List.map_set, hs, hde]

/-- Naming a row anew leaves the rows the same. -/
theorem rename {i : Nat} (hd : devices[i]? = some d) {e : Device} (hde : e.bare = d.bare) :
    SameRows (devices.set i e) devices := by
  rw [SameRows, List.map_set, hde]
  apply List.ext_getElem?
  intro j
  rw [List.getElem?_set]
  split
  · rename_i hij
    subst hij
    rw [List.getElem?_map, hd, List.length_map, if_pos (List.getElem?_eq_some_iff.mp hd).1]
    rfl
  · rfl

theorem listOrder (hs : SameRows devices devices') : listOrder devices = listOrder devices' := by
  have hbefore : listBefore devices = listBefore devices' := by
    funext a b
    have ha := hs.get a
    have hb := hs.get b
    rw [listBefore, listBefore]
    rcases hda : devices[a]? with _ | x <;> rcases hda' : devices'[a]? with _ | x' <;>
      rcases hdb : devices[b]? with _ | y <;> rcases hdb' : devices'[b]? with _ | y' <;>
      rw [hda, hda'] at ha <;> rw [hdb, hdb'] at hb <;> first | rfl | cases ha | cases hb | skip
    have hx : x.bare = x'.bare := Option.some.inj ha
    have hy : y.bare = y'.bare := Option.some.inj hb
    change (x.bare.cmpList y.bare).isLE = (x'.bare.cmpList y'.bare).isLE
    rw [hx, hy]
  rw [Resolve.listOrder, Resolve.listOrder, hbefore, hs.length]

end SameRows

/-- The rows a pass goes through, in its order. -/
def rowsOf (devices : List Device) : List Device :=
  (listOrder devices).filterMap fun i => (devices[i]?).map Device.bare

theorem SameRows.rowsOf {devices devices' : List Device} (hs : SameRows devices devices') :
    rowsOf devices = rowsOf devices' := by
  rw [Resolve.rowsOf, Resolve.rowsOf, hs.listOrder]
  congr 1
  funext i
  exact hs.get i

theorem foldl_turn_updates (order : List Nat) (st : NamePass) :
    (order.foldl (NamePass.turn h ring labels) st).updates = st.updates ++
      passUpdates h ring labels st.claimed
        (order.filterMap fun i => (st.devices[i]?).map Device.bare) ∧
    SameRows (order.foldl (NamePass.turn h ring labels) st).devices st.devices := by
  induction order generalizing st with
  | nil => exact ⟨(List.append_nil _).symm, rfl⟩
  | cons i order ih =>
      rw [List.foldl_cons, List.filterMap_cons, NamePass.turn]
      rcases hd : st.devices[i]? with _ | d
      · exact ih st
      · have hrow : SameRows (st.devices.set i
            (d.named (nameRow h ring labels st.claimed d))) st.devices :=
          SameRows.rename hd (bare_named _)
        obtain ⟨hupdates, hsame⟩ := ih
          { devices := st.devices.set i (d.named (nameRow h ring labels st.claimed d))
            updates := st.updates ++ (nameRow h ring labels st.claimed d).updates
            claimed := (nameRow h ring labels st.claimed d).claimed }
        refine ⟨?_, hsame.trans hrow⟩
        dsimp only [Option.map_some]
        rw [hupdates, passUpdates, nameRow_bare, List.append_assoc]
        simp only [hrow.get]

theorem applyNames_updates (devices : List Device) :
    (applyNames h devices ring labels).updates = passUpdates h ring labels [] (rowsOf devices) :=
  (foldl_turn_updates (listOrder devices) { devices, updates := [], claimed := [] }).1

theorem applyNames_same (devices : List Device) :
    SameRows (applyNames h devices ring labels).devices devices :=
  (foldl_turn_updates (listOrder devices) { devices, updates := [], claimed := [] }).2

/-- Two passes from the same rows agree on the rows they have named. -/
theorem foldl_turn_congr (order : List Nat) {st st' : NamePass}
    (hs : SameRows st.devices st'.devices) (hclaimed : st.claimed = st'.claimed) (j : Nat)
    (hj : j ∈ order ∨ st.devices[j]? = st'.devices[j]?) :
    (order.foldl (NamePass.turn h ring labels) st).devices[j]? =
      (order.foldl (NamePass.turn h ring labels) st').devices[j]? := by
  induction order generalizing st st' with
  | nil => exact hj.resolve_left (List.not_mem_nil)
  | cons i order ih =>
      rw [List.foldl_cons, List.foldl_cons, NamePass.turn, NamePass.turn]
      have hi := hs.get i
      rcases hd : st.devices[i]? with _ | d <;> rcases hd' : st'.devices[i]? with _ | d' <;>
        rw [hd, hd'] at hi
      · refine ih hs hclaimed ?_
        rcases hj with hj | hj
        · rcases List.mem_cons.mp hj with rfl | hj
          · exact .inr (hd.trans hd'.symm)
          · exact .inl hj
        · exact .inr hj
      · cases hi
      · cases hi
      · have hbare : d.bare = d'.bare := Option.some.inj hi
        have hnamed : nameRow h ring labels st.claimed d =
            nameRow h ring labels st'.claimed d' := by
          rw [← nameRow_bare, hbare, nameRow_bare, hclaimed]
        have hrow : d.named (nameRow h ring labels st.claimed d) =
            d'.named (nameRow h ring labels st'.claimed d') := by
          rw [hnamed, named_congr _ hbare]
        refine ih (hs.set i (congrArg Device.bare hrow)) (congrArg Named.claimed hnamed) ?_
        rcases hj with hj | hj
        · rcases List.mem_cons.mp hj with rfl | hj
          · right
            dsimp only
            rw [List.getElem?_set_self (List.getElem?_eq_some_iff.mp hd).1,
              List.getElem?_set_self (List.getElem?_eq_some_iff.mp hd').1, hrow]
          · exact .inl hj
        · right
          dsimp only
          rw [List.getElem?_set, List.getElem?_set, hj, hs.length, hrow]

/-- **The names that rows show before a pass play no part in it.** -/
theorem applyNames_congr {devices devices' : List Device} (hs : SameRows devices devices') :
    (applyNames h devices ring labels).devices = (applyNames h devices' ring labels).devices := by
  apply List.ext_getElem?
  intro j
  rw [applyNames, applyNames, ← hs.listOrder]
  have hstart : SameRows (NamePass.mk devices [] []).devices (NamePass.mk devices' [] []).devices :=
    hs
  refine foldl_turn_congr _ hstart rfl j ?_
  by_cases hj : j < devices.length
  · exact .inl (mem_listOrder.mpr hj)
  · right
    rw [List.getElem?_eq_none (Nat.not_lt.mp hj),
      List.getElem?_eq_none (hs.length ▸ Nat.not_lt.mp hj)]

end Keyroost.Resolve
