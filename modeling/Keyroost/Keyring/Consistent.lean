import Keyroost.Keyring.Ring
import Keyroost.Library.Replace

/-!
# Names stay consistent

Over any sequence of edits of a ring: names stay unique, a key keeps at most one name of this
computer's own, other keys' records stay as they are, and a refused edit changes no record. The
edits are the operations of `Ring`, translated from `keyroost-keyring/src/lib.rs`, as the
constructors of one type.

Each operation has one lemma that says everything it can do (`setName_cases`,
`recordFirstSeen_cases`, `remove_cases`). The invariants are then read off these cases, one lemma
for each invariant, and carried over a list of edits by induction (`run_names`,
`run_computerNames`). `names_consistent` collects them; `twoNames_kept` is a ring, which can be
loaded, whose key has two names and keeps them.
-/

namespace Keyroost.Keyring

/-! ### Edits -/

inductive NameEdit where
  | setName (fresh : Except KeyringError Salt) (serial name : RustStr) (store : NameStore)
      (info : RecordMeta)
  | recordFirstSeen (fresh : Except KeyringError Salt) (serial name : RustStr)
  | dropStaleKeyRecords (serial current : RustStr)
  | clearKey (serial : RustStr)
  | remove (name : RustStr)
deriving DecidableEq, Repr

namespace NameEdit

variable (h : Hasher)

def apply (ring : Ring) : NameEdit → Ring
  | setName fresh serial name store info => (ring.setName h fresh serial name store info).2
  | recordFirstSeen fresh serial name => (ring.recordFirstSeen h fresh serial name).2
  | dropStaleKeyRecords serial current => (ring.dropStaleKeyRecords h serial current).2
  | clearKey serial => (ring.clearKey h serial).2
  | remove name => (ring.remove name).2

/-- Whether the edit says that it changed nothing. -/
def refused (ring : Ring) : NameEdit → Bool
  | setName fresh serial name store info =>
      (ring.setName h fresh serial name store info).1.toOption.isNone
  | recordFirstSeen fresh serial name => !(ring.recordFirstSeen h fresh serial name).1
  | dropStaleKeyRecords serial current => (ring.dropStaleKeyRecords h serial current).1 == 0
  | clearKey serial => (ring.clearKey h serial).1.isEmpty
  | remove name => (ring.remove name).1.isNone

/-- Whether `r` is a record of the key that the edit is about; a removal is about the
record with its name. -/
def about (ring : Ring) (r : KeyRecord) : NameEdit → Bool
  | setName fresh serial _ _ _ =>
      Ring.isOf r ((ring.ensureSalt fresh).2.fingerprintOf h serial)
  | recordFirstSeen fresh serial _ =>
      Ring.isOf r ((ring.ensureSalt fresh).2.fingerprintOf h serial)
  | dropStaleKeyRecords serial _ => Ring.isOf r (ring.fingerprintOf h serial)
  | clearKey serial => Ring.isOf r (ring.fingerprintOf h serial)
  | remove name => decide (r.name = name)

/-- The records of other keys. -/
def others (ring : Ring) (edit : NameEdit) (keys : List KeyRecord) : List KeyRecord :=
  keys.filter fun r => !edit.about h ring r

def run : List NameEdit → Ring → Ring
  | [], ring => ring
  | edit :: edits, ring => run edits (edit.apply h ring)

end NameEdit

namespace Ring

def names (ring : Ring) : List RustStr := ring.keys.map (·.name)

/-- The number of names that this computer alone has for the key of `fp`. -/
def computerNames (ring : Ring) (fp : Fingerprint) : Nat :=
  ring.keys.countP fun r => decide (r.stored = .computer) && isOf r (some fp)

variable {h : Hasher} {fresh : Except KeyringError Salt} {ring : Ring}
  {serial name current : RustStr} {store : NameStore} {info : RecordMeta}

/-! ### What each edit does -/

theorem isOf_iff {r : KeyRecord} {fp : Fingerprint} :
    isOf r (some fp) = true ↔ r.fingerprint = some fp := by
  rw [isOf, Option.isSome_some, Bool.true_and, decide_eq_true_iff]

theorem ensureSalt_keys (fresh : Except KeyringError Salt) (ring : Ring) :
    (ring.ensureSalt fresh).2.keys = ring.keys := by
  unfold ensureSalt
  split
  · rfl
  · split <;> rfl

/-- With its salt, a ring knows the fingerprint of every serial that is not empty. -/
theorem fingerprintOf_ensured {salt : Salt} {ring' : Ring}
    (hensure : ring.ensureSalt fresh = (.ok salt, ring'))
    (hserial : (canonicalSerial h serial).isEmpty = false) :
    ring'.fingerprintOf h serial = some (fingerprint h salt serial) := by
  have hsalt : ring'.salt = some salt := by
    unfold ensureSalt at hensure
    split at hensure
    · rename_i hhas
      cases hensure
      exact hhas
    · split at hensure
      · cases hensure
      · cases hensure
        rfl
  rw [fingerprintOf, hserial, hsalt]
  rfl

theorem holder_mem {r : KeyRecord} (hr : ring.holder name = some r) :
    r ∈ ring.keys ∧ r.name = name :=
  ⟨List.mem_of_find?_eq_some hr, of_decide_eq_true (List.find?_some hr :)⟩

theorem holder_none_iff : ring.holder name = none ↔ name ∉ ring.names := by
  rw [holder, List.find?_eq_none, names, List.mem_map]
  constructor
  · rintro hnone ⟨r, hr, hname⟩
    exact hnone r hr (decide_eq_true hname)
  · intro hnone r hr hname
    exact hnone ⟨r, hr, of_decide_eq_true hname⟩

/-- A name that is set: it was free or this key's, and its record stands among the records
it does not replace. -/
structure NameSet (ring ring' : Ring) (fp : Fingerprint) (name : RustStr) (store : NameStore)
    (record : KeyRecord) (front back : List KeyRecord) : Prop where
  holder : ∀ r, ring.holder name = some r → r.fingerprint = some fp
  hname : record.name = name
  hstored : record.stored = store
  hfingerprint : record.fingerprint = some fp
  keys : ring'.keys = front ++ record :: back
  kept : front ++ back = ring.keys.filter fun r => !replaced (some fp) name store r

theorem setName_cases (h : Hasher) (fresh : Except KeyringError Salt) (ring : Ring)
    (serial name : RustStr) (store : NameStore) (info : RecordMeta) :
    (∃ e, (ring.setName h fresh serial name store info).1 = .error e ∧
      (ring.setName h fresh serial name store info).2.keys = ring.keys) ∨
    (∃ fp record front back, (ring.setName h fresh serial name store info).1 = .ok () ∧
      (ring.ensureSalt fresh).2.fingerprintOf h serial = some fp ∧
      NameSet ring (ring.setName h fresh serial name store info).2 fp name store record front
        back) := by
  rw [setName]
  cases hvalid : validateName name with
  | error e => exact .inl ⟨e, rfl, rfl⟩
  | ok u =>
      by_cases hserial : (canonicalSerial h serial).isEmpty = true
      · dsimp only
        rw [if_pos hserial]
        exact .inl ⟨_, rfl, rfl⟩
      · dsimp only
        rw [if_neg hserial]
        have hkeys := ensureSalt_keys fresh ring
        rcases hensure : ring.ensureSalt fresh with ⟨salt | salt, ring'⟩
        · rw [hensure] at hkeys
          exact .inl ⟨salt, rfl, hkeys⟩
        · rw [hensure] at hkeys
          dsimp only at hkeys ⊢
          by_cases hheld : (ring'.holder name).any
              (fun r => !isOf r (some (fingerprint h salt serial))) = true
          · rw [if_pos hheld]
            exact .inl ⟨_, rfl, hkeys⟩
          · rw [if_neg hheld]
            have hfree : ∀ r, ring.holder name = some r →
                r.fingerprint = some (fingerprint h salt serial) := by
              intro r hr
              rw [holder, hkeys, ← holder, hr, Option.any_some, Bool.not_eq_true',
                Bool.not_eq_false, isOf_iff] at hheld
              exact hheld
            have hclean := stripControlChars_of_valid hvalid
            have hfp := fingerprintOf_ensured hensure (eq_false_of_ne_true hserial)
            right
            rw [hkeys]
            cases hindex : ring.keys.findIdx?
                (replaced (some (fingerprint h salt serial)) name store) with
            | none =>
                exact ⟨_, _, _, [], rfl, hfp, hfree, hclean, rfl, rfl, rfl, List.append_nil _⟩
            | some i =>
                obtain ⟨front, back, hinsert, hkept⟩ := Replace.insertIdx_findIdx _ _ hindex
                exact ⟨_, _, front, back, rfl, hfp, hfree, hclean, rfl, rfl, hinsert, hkept⟩

theorem recordFirstSeen_cases (h : Hasher) (fresh : Except KeyringError Salt) (ring : Ring)
    (serial name : RustStr) :
    ((ring.recordFirstSeen h fresh serial name).1 = false ∧
      (ring.recordFirstSeen h fresh serial name).2.keys = ring.keys) ∨
    (∃ fp record, (ring.recordFirstSeen h fresh serial name).1 = true ∧
      (ring.ensureSalt fresh).2.fingerprintOf h serial = some fp ∧
      ring.holder name = none ∧ record.name = name ∧ record.stored = .key ∧
      record.fingerprint = some fp ∧
      (ring.recordFirstSeen h fresh serial name).2.keys = ring.keys ++ [record]) := by
  rw [recordFirstSeen]
  cases validateName name with
  | error e => exact .inl ⟨rfl, rfl⟩
  | ok u =>
      dsimp only
      by_cases hskip : (canonicalSerial h serial).isEmpty = true ∨ (ring.holder name).isSome = true
      · rw [if_pos hskip]
        exact .inl ⟨rfl, rfl⟩
      · rw [if_neg hskip]
        rw [not_or, Option.not_isSome_iff_eq_none] at hskip
        have hkeys := ensureSalt_keys fresh ring
        rcases hensure : ring.ensureSalt fresh with ⟨salt | salt, ring'⟩
        · rw [hensure] at hkeys
          exact .inl ⟨rfl, hkeys⟩
        · rw [hensure] at hkeys
          have hfp := fingerprintOf_ensured hensure (eq_false_of_ne_true hskip.1)
          exact .inr ⟨_, _, rfl, hfp, hskip.2, rfl, rfl, rfl, congrArg (· ++ _) hkeys⟩

theorem remove_cases (ring : Ring) (name : RustStr) :
    ((ring.remove name).1 = none ∧ (ring.remove name).2.keys = ring.keys) ∨
    (∃ front record back, (ring.remove name).1 = some record ∧
      ring.keys = front ++ record :: back ∧ record.name = name ∧
      (ring.remove name).2.keys = front ++ back) := by
  rw [remove]
  cases hindex : ring.keys.findIdx? fun r => decide (r.name = name) with
  | none => exact .inl ⟨rfl, rfl⟩
  | some i =>
      obtain ⟨front, record, back, hkeys, hget, hname, herase⟩ :=
        Replace.eraseIdx_findIdx _ hindex
      exact .inr ⟨front, record, back, hget, hkeys, of_decide_eq_true hname, herase⟩

/-! ### Unique names -/

theorem nodup_of_sublist {keys keys' : List KeyRecord} (hsub : keys'.Sublist keys)
    (h : (keys.map (·.name)).Nodup) : (keys'.map (·.name)).Nodup :=
  (hsub.map _).nodup h

/-- No record kept beside a name that is set holds that name. -/
theorem NameSet.nodup {ring' : Ring} {fp : Fingerprint} {record : KeyRecord}
    {front back : List KeyRecord} (hset : NameSet ring ring' fp name store record front back)
    (hnames : ring.names.Nodup) : ring'.names.Nodup := by
  rw [names, hset.keys, List.map_append, List.map_cons, List.nodup_middle, ← List.map_append,
    hset.kept, hset.hname, List.nodup_cons]
  refine ⟨?_, nodup_of_sublist List.filter_sublist hnames⟩
  intro hmem
  obtain ⟨r, hr, hrname⟩ := List.mem_map.mp hmem
  obtain ⟨hr, hkept⟩ := List.mem_filter.mp hr
  have hheld : ring.holder name = some r := by
    cases hholder : ring.holder name with
    | none => exact absurd (List.mem_map.mpr ⟨r, hr, hrname⟩) (holder_none_iff.mp hholder)
    | some r' =>
        obtain ⟨hr', hname'⟩ := holder_mem hholder
        rw [Replace.eq_of_map_eq hnames hr' hr (hname'.trans hrname.symm)]
  rw [replaced, isOf_iff.mpr (hset.holder r hheld), decide_eq_true hrname, Bool.or_true,
    Bool.and_true] at hkept
  exact absurd hkept Bool.false_ne_true

/-- A key has at most the one name that was set for it on this computer. -/
theorem NameSet.computerNames_le {ring' : Ring} {fp fp' : Fingerprint} {record : KeyRecord}
    {front back : List KeyRecord} (hset : NameSet ring ring' fp name store record front back)
    (hone : ring.computerNames fp' ≤ 1) : ring'.computerNames fp' ≤ 1 := by
  have hrest : (front ++ back).countP
      (fun r => decide (r.stored = .computer) && isOf r (some fp')) ≤ ring.computerNames fp' := by
    rw [hset.kept]
    exact List.filter_sublist.countP_le
  rw [computerNames, hset.keys, List.countP_append, List.countP_cons, ← Nat.add_assoc,
    ← List.countP_append]
  by_cases hits : (decide (record.stored = .computer) && isOf record (some fp')) = true
  · obtain ⟨hcomputer, hof⟩ := Bool.and_eq_true_iff.mp hits
    rw [decide_eq_true_iff, hset.hstored] at hcomputer
    rw [isOf_iff, hset.hfingerprint, Option.some.injEq] at hof
    have hnone : (front ++ back).countP
        (fun r => decide (r.stored = .computer) && isOf r (some fp')) = 0 := by
      rw [hset.kept, List.countP_eq_zero]
      intro r hr hmatches
      obtain ⟨hrcomputer, hrof⟩ := Bool.and_eq_true_iff.mp hmatches
      have hkept := (List.mem_filter.mp hr).2
      rw [replaced, hof, hrof, hrcomputer, Bool.or_true, Bool.true_or, Bool.and_true] at hkept
      exact absurd hkept Bool.false_ne_true
    rw [hnone, if_pos hits]
  · rw [if_neg hits]
    omega

end Ring

namespace NameEdit

variable {h : Hasher}

theorem apply_names (edit : NameEdit) (ring : Ring) (hnames : ring.names.Nodup) :
    (edit.apply h ring).names.Nodup := by
  cases edit with
  | setName fresh serial name store info =>
      rcases Ring.setName_cases h fresh ring serial name store info with
        ⟨e, -, hkeys⟩ | ⟨fp, record, front, back, -, -, hset⟩
      · rw [apply, Ring.names, hkeys]
        exact hnames
      · exact hset.nodup hnames
  | recordFirstSeen fresh serial name =>
      rcases Ring.recordFirstSeen_cases h fresh ring serial name with
        ⟨-, hkeys⟩ | ⟨fp, record, -, -, hholder, hname, -, -, hkeys⟩
      · rw [apply, Ring.names, hkeys]
        exact hnames
      · rw [apply, Ring.names, hkeys, List.map_append, List.map_singleton, hname,
          List.nodup_append_comm, List.singleton_append, List.nodup_cons]
        exact ⟨Ring.holder_none_iff.mp hholder, hnames⟩
  | dropStaleKeyRecords serial current =>
      exact Ring.nodup_of_sublist List.filter_sublist hnames
  | clearKey serial => exact Ring.nodup_of_sublist List.filter_sublist hnames
  | remove name =>
      rcases Ring.remove_cases ring name with ⟨-, hkeys⟩ | ⟨front, record, back, -, hold, -, hkeys⟩
      · rw [apply, Ring.names, hkeys]
        exact hnames
      · rw [Ring.names, hold] at hnames
        rw [apply, Ring.names, hkeys]
        exact Ring.nodup_of_sublist (List.Sublist.append_left (List.sublist_cons_self _ _) _) hnames

theorem apply_computerNames (edit : NameEdit) {ring : Ring} {fp : Fingerprint}
    (hone : ring.computerNames fp ≤ 1) : (edit.apply h ring).computerNames fp ≤ 1 := by
  cases edit with
  | setName fresh serial name store info =>
      rcases Ring.setName_cases h fresh ring serial name store info with
        ⟨e, -, hkeys⟩ | ⟨fp', record, front, back, -, -, hset⟩
      · rw [apply, Ring.computerNames, hkeys]
        exact hone
      · exact hset.computerNames_le hone
  | recordFirstSeen fresh serial name =>
      rcases Ring.recordFirstSeen_cases h fresh ring serial name with
        ⟨-, hkeys⟩ | ⟨fp', record, -, -, -, -, hstored, -, hkeys⟩
      · rw [apply, Ring.computerNames, hkeys]
        exact hone
      · rw [apply, Ring.computerNames, hkeys, List.countP_append, List.countP_singleton, hstored]
        exact hone
  | dropStaleKeyRecords serial current => exact List.filter_sublist.countP_le.trans hone
  | clearKey serial => exact List.filter_sublist.countP_le.trans hone
  | remove name =>
      rcases Ring.remove_cases ring name with ⟨-, hkeys⟩ | ⟨front, record, back, -, hold, -, hkeys⟩
      · rw [apply, Ring.computerNames, hkeys]
        exact hone
      · rw [Ring.computerNames, hold] at hone
        rw [apply, Ring.computerNames, hkeys]
        exact (List.Sublist.append_left (List.sublist_cons_self _ _) _).countP_le.trans hone

theorem filter_filter_of_imp {p q : KeyRecord → Bool} (keys : List KeyRecord)
    (himp : ∀ r, p r = true → q r = true) : (keys.filter q).filter p = keys.filter p := by
  rw [List.filter_filter]
  refine List.filter_congr ?_
  intro r _
  cases hp : p r with
  | false => rfl
  | true => exact himp r hp

theorem apply_others (edit : NameEdit) (ring : Ring) :
    edit.others h ring (edit.apply h ring).keys = edit.others h ring ring.keys := by
  cases edit with
  | setName fresh serial name store info =>
      rcases Ring.setName_cases h fresh ring serial name store info with
        ⟨e, -, hkeys⟩ | ⟨fp, record, front, back, -, hfp, hset⟩
      · rw [apply, hkeys]
      · have hrecord : Ring.isOf record (some fp) = true := Ring.isOf_iff.mpr hset.hfingerprint
        simp only [apply, others, about, hfp]
        rw [hset.keys, List.filter_append, List.filter_cons_of_neg (by rw [hrecord]; decide),
          ← List.filter_append, hset.kept]
        refine filter_filter_of_imp ring.keys ?_
        intro r hr
        rw [Bool.not_eq_true'] at hr
        rw [Ring.replaced, hr]
        rfl
  | recordFirstSeen fresh serial name =>
      rcases Ring.recordFirstSeen_cases h fresh ring serial name with
        ⟨-, hkeys⟩ | ⟨fp, record, -, hfp, -, -, -, hrecord, hkeys⟩
      · rw [apply, hkeys]
      · simp only [apply, others, about, hfp]
        rw [hkeys, List.filter_append, List.filter_singleton, Ring.isOf_iff.mpr hrecord]
        exact List.append_nil _
  | dropStaleKeyRecords serial current =>
      refine filter_filter_of_imp ring.keys ?_
      intro r hr
      rw [about, Bool.not_eq_true'] at hr
      rw [hr]
      rfl
  | clearKey serial => exact filter_filter_of_imp ring.keys fun r hr => hr
  | remove name =>
      rcases Ring.remove_cases ring name with
        ⟨-, hkeys⟩ | ⟨front, record, back, -, hold, hname, hkeys⟩
      · rw [apply, hkeys]
      · simp only [apply, others, about]
        rw [hkeys, hold, List.filter_append, List.filter_append,
          List.filter_cons_of_neg (by rw [decide_eq_true hname]; decide)]

theorem apply_refused (edit : NameEdit) (ring : Ring) (hrefused : edit.refused h ring = true) :
    (edit.apply h ring).keys = ring.keys := by
  cases edit with
  | setName fresh serial name store info =>
      rcases Ring.setName_cases h fresh ring serial name store info with
        ⟨e, -, hkeys⟩ | ⟨fp, record, front, back, hok, -, hset⟩
      · exact hkeys
      · rw [refused, hok] at hrefused
        cases hrefused
  | recordFirstSeen fresh serial name =>
      rcases Ring.recordFirstSeen_cases h fresh ring serial name with
        ⟨-, hkeys⟩ | ⟨fp, record, hadded, -⟩
      · exact hkeys
      · rw [refused, hadded] at hrefused
        cases hrefused
  | dropStaleKeyRecords serial current =>
      rw [refused, beq_iff_eq] at hrefused
      refine List.filter_eq_self.mpr (List.length_filter_eq_length_iff.mp ?_)
      exact Nat.le_antisymm (List.length_filter_le _ _) (Nat.sub_eq_zero_iff_le.mp hrefused)
  | clearKey serial =>
      rw [refused, List.isEmpty_iff] at hrefused
      refine List.filter_eq_self.mpr ?_
      intro r hr
      rw [Bool.not_eq_true']
      exact eq_false_of_ne_true (List.filter_eq_nil_iff.mp hrefused r hr)
  | remove name =>
      rcases Ring.remove_cases ring name with ⟨-, hkeys⟩ | ⟨front, record, back, hsome, -⟩
      · exact hkeys
      · rw [refused, hsome] at hrefused
        cases hrefused

theorem run_names (edits : List NameEdit) (ring : Ring) (hnames : ring.names.Nodup) :
    (run h edits ring).names.Nodup := by
  induction edits generalizing ring with
  | nil => exact hnames
  | cons edit edits ih => exact ih _ (apply_names edit ring hnames)

theorem run_computerNames (edits : List NameEdit) {ring : Ring} {fp : Fingerprint}
    (hone : ring.computerNames fp ≤ 1) : (run h edits ring).computerNames fp ≤ 1 := by
  induction edits generalizing ring with
  | nil => exact hone
  | cons edit edits ih => exact ih (apply_computerNames edit hone)

/-- **Names stay consistent.** Over every sequence of edits names stay unique, a key with
at most one name of this computer's own keeps at most one, and each edit leaves the other
keys' records as they are and, where it is refused, all of them. -/
theorem names_consistent (h : Hasher) (ring : Ring) (edits : List NameEdit)
    (hnames : ring.names.Nodup) :
    (run h edits ring).names.Nodup ∧
    (∀ fp, ring.computerNames fp ≤ 1 → (run h edits ring).computerNames fp ≤ 1) ∧
    (∀ before edit after, edits = before ++ edit :: after →
      edit.others h (run h before ring) (edit.apply h (run h before ring)).keys =
        edit.others h (run h before ring) (run h before ring).keys ∧
      (edit.refused h (run h before ring) = true →
        (edit.apply h (run h before ring)).keys = (run h before ring).keys)) :=
  ⟨run_names edits ring hnames, fun _ hone => run_computerNames edits hone,
    fun _ edit _ _ => ⟨apply_others edit _, apply_refused edit _⟩⟩

/-! ### A key with two names -/

def sampleHasher : Hasher := { toLowercase := fun s => s, hmacSha256 := fun _ message => message }

def sampleSalt : Salt := ⟨List.replicate 32 7, List.length_replicate⟩

/-- A name of this computer's own for the key with serial `serial`. -/
def sampleRecord (name serial : RustStr) : KeyRecord :=
  { name, fingerprint := some (fingerprint sampleHasher sampleSalt serial), stored := .computer,
    source := .usb, vendor := none, aaguid := none, note := none }

def sampleRing (keys : List KeyRecord) : Ring :=
  { keys, salt := some sampleSalt, saltPersisted := true, origin := .v2, report := none }

/-- Three keys, each with a name of this computer's own. -/
def threeKeys : Ring :=
  sampleRing [sampleRecord ['a'] ['7'], sampleRecord ['b'] ['8'], sampleRecord ['c'] ['9']]

/-- The first key gets another name, which the second one may then not have; a fourth is seen for
the first time, the third is forgotten, and the second one's name is removed. -/
def sampleNameEdits : List NameEdit :=
  [.setName (.error .noSerial) ['7'] ['d'] .computer ⟨.usb, none⟩,
    .setName (.error .noSerial) ['8'] ['d'] .computer ⟨.usb, none⟩,
    .recordFirstSeen (.error .noSerial) ['5'] ['e'], .clearKey ['9'], .remove ['b']]

theorem sampleRing_consistent :
    (run sampleHasher sampleNameEdits threeKeys).names.Nodup ∧
    (run sampleHasher sampleNameEdits threeKeys).computerNames
      (fingerprint sampleHasher sampleSalt ['7']) ≤ 1 ∧
    ((sampleNameEdits[1]).apply sampleHasher
        (run sampleHasher (sampleNameEdits.take 1) threeKeys)).keys =
      (run sampleHasher (sampleNameEdits.take 1) threeKeys).keys ∧
    (run sampleHasher sampleNameEdits threeKeys).names = [['d'], ['e']] := by
  have hconsistent := names_consistent sampleHasher threeKeys sampleNameEdits (by decide)
  have hsplit : sampleNameEdits =
      sampleNameEdits.take 1 ++ sampleNameEdits[1] :: sampleNameEdits.drop 2 := rfl
  exact ⟨hconsistent.1, hconsistent.2.1 _ (by decide),
    (hconsistent.2.2 _ _ _ hsplit).2 (by decide), by decide⟩

/-- Two names of this computer's own for one key, as two entries of a version 1 file give
them, are both left by an edit of another key. -/
theorem twoNames_kept :
    (sampleRing [sampleRecord ['a'] ['7'], sampleRecord ['b'] ['7']]).names.Nodup ∧
    (run sampleHasher [.clearKey ['8']]
      (sampleRing [sampleRecord ['a'] ['7'], sampleRecord ['b'] ['7']])).computerNames
        (fingerprint sampleHasher sampleSalt ['7']) = 2 := by
  decide

end NameEdit

end Keyroost.Keyring
