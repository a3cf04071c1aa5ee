import Keyroost.Keyring.Consistent

/-!
# Naming a key that has several serials

A key that shows up under more than one serial is named under the first, after the records that the
name replaces under the others are dropped. When a refused rename leaves the records as they were,
and what a granted one leaves. Modelled from `keyroost-resolve/src/names.rs`, over the operations of
`Ring`.

Since the drops come first, a rename that is then refused has changed the ring. `AllOrNothing` is
what is asked of a rename, and `setKeyName_allOrNothing_iff` says for which rings and serials it
holds, by what is dropped and by whether the name is to be had, both of them conditions on the ring
before. `refused_rename_drops` is one for which it fails.
-/

namespace Keyroost.Resolve

open Keyring Ring

variable (h : Hasher)

/-! ### The rename -/

/-- The fingerprints of the key's other serials. -/
def otherFingerprints (ring : Ring) (primary : RustStr) (rest : List RustStr) :
    List Fingerprint :=
  let ours := ring.fingerprintOf h primary
  (rest.filterMap fun s => ring.fingerprintOf h s).filter fun fp => decide (some fp ≠ ours)

/-- The records under the other serials that a name in `store` replaces. -/
def replacedElsewhere (others : List Fingerprint) (name : RustStr) (store : NameStore)
    (r : KeyRecord) : Bool :=
  let other := r.fingerprint.any fun fp => decide (fp ∈ others)
  other && (decide (store = .key) || decide (r.stored = .computer) || decide (r.name = name))

/-- The ring without what the name replaces under the key's other serials. -/
def retained (ring : Ring) (primary : RustStr) (rest : List RustStr) (name : RustStr)
    (store : NameStore) : Ring :=
  let others := otherFingerprints h ring primary rest
  { ring with keys := ring.keys.filter fun r => !replacedElsewhere others name store r }

def setKeyName (fresh : Except KeyringError Salt) (ring : Ring) (serials : List RustStr)
    (name : RustStr) (store : NameStore) (info : RecordMeta) : Except KeyringError Unit × Ring :=
  match serials with
  | [] => (.error .noSerial, ring)
  | primary :: rest =>
      (retained h ring primary rest name store).setName h fresh primary name store info

/-! ### What a rename is to do -/

/-- A record of the key with these serials. -/
def ofKey (ring : Ring) (serials : List RustStr) (r : KeyRecord) : Bool :=
  serials.any fun s => isOf r (ring.fingerprintOf h s)

/-- The key has the new name, once, and no other key's record is touched. A key is known by several
serials: the name goes to the record of the primary one, and no name of this computer stays under
another. -/
structure Renamed (ring ring' : Ring) (primary : RustStr) (rest : List RustStr) (name : RustStr) :
    Prop where
  names : ring.names.Nodup → ring'.names.Nodup
  one : (ring'.keys.countP fun r =>
    decide (r.name = name) && ofKey h ring' (primary :: rest) r) = 1
  computer : ∀ serial ∈ rest, ring'.fingerprintOf h serial ≠ ring'.fingerprintOf h primary →
    ∀ r ∈ ring'.keys, isOf r (ring'.fingerprintOf h serial) = true → r.stored ≠ .computer
  others : (ring'.keys.filter fun r => !ofKey h ring' (primary :: rest) r) =
    ring.keys.filter fun r => !ofKey h ring' (primary :: rest) r

/-- A rename that is refused changes no record, and one that is granted names the key. -/
structure AllOrNothing (ring : Ring) (serials : List RustStr) (name : RustStr)
    (done : Except KeyringError Unit × Ring) : Prop where
  refused : ∀ e, done.1 = .error e → done.2.keys = ring.keys
  granted : done.1 = .ok () → ∃ primary rest, serials = primary :: rest ∧
    Renamed h ring done.2 primary rest name

/-- The name is one that the key may have: it is valid, the key has a serial, and the record
that holds it is the key's own. A record that is dropped first holds it no longer. -/
structure MayHave (ring : Ring) (primary : RustStr) (rest : List RustStr) (name : RustStr) :
    Prop where
  valid : validateName name = .ok ()
  serial : (canonicalSerial h primary).isEmpty = false
  free : ∀ r, (ring.keys.find? fun r => decide (r.name = name) &&
      !r.fingerprint.any fun fp => decide (fp ∈ otherFingerprints h ring primary rest)) = some r →
    isOf r (ring.fingerprintOf h primary) = true

/-- Nothing is to be dropped under another serial, or nothing is to be refused. -/
def Unforced (ring : Ring) (serials : List RustStr) (name : RustStr) (store : NameStore) : Prop :=
  ∀ primary rest, serials = primary :: rest →
    (∀ r ∈ ring.keys,
      replacedElsewhere (otherFingerprints h ring primary rest) name store r = false) ∨
    MayHave h ring primary rest name

/-- Before there is a salt no stored record matches any serial, and a random salt does not
make one match. -/
def NoMatchYet (fresh : Except KeyringError Salt) (ring : Ring) : Prop :=
  ∀ salt, ring.salt = none → fresh = .ok salt →
    ∀ r ∈ ring.keys, ∀ serial, r.fingerprint ≠ some (fingerprint h salt serial)

variable {h} {fresh : Except KeyringError Salt} {ring : Ring} {primary name : RustStr}
  {rest : List RustStr} {store : NameStore} {info : RecordMeta}

/-! ### When a name is granted -/

/-- A ring with a salt grants a name that is valid and not another key's. -/
theorem setName_granted {salt : Salt} (hsalt : ring.salt = some salt)
    (hvalid : validateName name = .ok ()) (hserial : (canonicalSerial h primary).isEmpty = false)
    (hfree : ∀ r, ring.holder name = some r → isOf r (ring.fingerprintOf h primary) = true) :
    (ring.setName h fresh primary name store info).1 = .ok () := by
  have hfp : ring.fingerprintOf h primary = some (fingerprint h salt primary) := by
    rw [fingerprintOf, hserial, hsalt]
    rfl
  have hensure : ring.ensureSalt fresh = (.ok salt, ring) := by
    unfold ensureSalt
    rw [hsalt]
  have hheld : (ring.holder name).any
      (fun r => !isOf r (some (fingerprint h salt primary))) = false := by
    cases hholder : ring.holder name with
    | none => rfl
    | some r => rw [Option.any_some, ← hfp, hfree r hholder, Bool.not_true]
  rw [setName, hvalid]
  dsimp only
  rw [hserial, if_neg Bool.false_ne_true, hensure]
  dsimp only
  rw [hheld, if_neg Bool.false_ne_true]
  split <;> rfl

/-- What a granted name says of the name, and the salt of the ring after it. -/
theorem granted_of_setName (hok : (ring.setName h fresh primary name store info).1 = .ok ()) :
    validateName name = .ok () ∧ (canonicalSerial h primary).isEmpty = false ∧
      (ring.setName h fresh primary name store info).2.salt = (ring.ensureSalt fresh).2.salt := by
  rw [setName] at hok ⊢
  cases hvalid : validateName name with
  | error e =>
      rw [hvalid] at hok
      cases hok
  | ok u =>
      rw [hvalid] at hok
      dsimp only at hok ⊢
      split at hok
      · cases hok
      · rename_i hserial
        rw [if_neg hserial]
        refine ⟨rfl, eq_false_of_ne_true hserial, ?_⟩
        rcases hensure : ring.ensureSalt fresh with ⟨e | salt, ring'⟩
        · rfl
        · rw [hensure] at hok
          dsimp only at hok ⊢
          split at hok
          · cases hok
          · rename_i hheld
            rw [if_neg hheld]
            split <;> rfl

/-! ### The records of the key -/

/-- Making a salt gives no stored record to any serial. -/
theorem isOf_ensured (hfresh : NoMatchYet h fresh ring) {r : KeyRecord} (hr : r ∈ ring.keys)
    (serial : RustStr) : isOf r ((ring.ensureSalt fresh).2.fingerprintOf h serial) =
      isOf r (ring.fingerprintOf h serial) := by
  unfold ensureSalt
  cases hsalt : ring.salt with
  | some salt => rfl
  | none =>
      cases hmade : fresh with
      | error e => rfl
      | ok salt =>
          have hnone : ring.fingerprintOf h serial = none := by
            rw [fingerprintOf, hsalt, Option.map_none, ite_self]
          rw [hnone, fingerprintOf]
          split
          · rfl
          · rw [Option.map_some, eq_false_of_ne_true (mt isOf_iff.mp (hfresh salt hsalt hmade r hr
              serial))]
            rfl

theorem isOf_eq_some {r : KeyRecord} {fp : Option Fingerprint} (hr : isOf r fp = true) :
    ∃ f, fp = some f ∧ r.fingerprint = some f := by
  obtain ⟨hsome, heq⟩ := Bool.and_eq_true_iff.mp hr
  obtain ⟨f, hf⟩ := Option.isSome_iff_exists.mp hsome
  exact ⟨f, hf, (of_decide_eq_true heq).trans hf⟩

variable (primary) in
/-- A record of the key is one of its first serial, or one under another fingerprint. -/
theorem isOf_or_other {r : KeyRecord} {serial : RustStr} (hserial : serial ∈ rest)
    (hr : isOf r (ring.fingerprintOf h serial) = true) :
    isOf r (ring.fingerprintOf h primary) = true ∨
      (r.fingerprint.any fun fp => decide (fp ∈ otherFingerprints h ring primary rest)) = true := by
  obtain ⟨f, hf, hrf⟩ := isOf_eq_some hr
  by_cases hours : some f = ring.fingerprintOf h primary
  · left
    rw [← hours, isOf_iff, hrf]
  · right
    rw [hrf, Option.any_some, decide_eq_true_iff, otherFingerprints]
    exact List.mem_filter.mpr ⟨List.mem_filterMap.mpr ⟨serial, hserial, hf⟩, decide_eq_true hours⟩

/-- Without a salt no other serial has a fingerprint. -/
theorem otherFingerprints_of_unsalted (hsalt : ring.salt = none) :
    otherFingerprints h ring primary rest = [] := by
  have hnone : ∀ serial, ring.fingerprintOf h serial = none := by
    intro serial
    rw [fingerprintOf, hsalt, Option.map_none, ite_self]
  have hmap : (rest.filterMap fun s => ring.fingerprintOf h s) = [] := by
    rw [List.filterMap_eq_nil_iff]
    exact fun s _ => hnone s
  rw [otherFingerprints, hmap, List.filter_nil]

/-! ### A granted rename -/

theorem ensureSalt_retained :
    ((retained h ring primary rest name store).ensureSalt fresh).2.salt =
      (ring.ensureSalt fresh).2.salt := by
  unfold ensureSalt
  rw [show (retained h ring primary rest name store).salt = ring.salt from rfl]
  cases ring.salt with
  | some salt => rfl
  | none => cases fresh <;> rfl

/-- A record that gives way to no new one is on the key under another name. -/
theorem left_of_no_clash {r : KeyRecord} (hkept : (decide (store = .key) ||
    decide (r.stored = .computer) || decide (r.name = name)) = false) :
    r.stored = .key ∧ r.name ≠ name := by
  rw [Bool.or_eq_false_iff, Bool.or_eq_false_iff, decide_eq_false_iff_not,
    decide_eq_false_iff_not, decide_eq_false_iff_not] at hkept
  refine ⟨?_, hkept.2⟩
  cases hplace : r.stored with
  | computer => exact absurd hplace hkept.1.2
  | key => rfl

/-- A record that the first serial's name leaves is on the key, under another name. -/
theorem left_of_not_replaced {r : KeyRecord} {fp : Fingerprint}
    (hkept : replaced (some fp) name store r = false) (hr : isOf r (some fp) = true) :
    r.stored = .key ∧ r.name ≠ name := by
  rw [replaced, hr, Bool.true_and] at hkept
  exact left_of_no_clash hkept

theorem left_of_not_replacedElsewhere {r : KeyRecord} {others : List Fingerprint}
    (hkept : replacedElsewhere others name store r = false)
    (hr : (r.fingerprint.any fun fp => decide (fp ∈ others)) = true) :
    r.stored = .key ∧ r.name ≠ name := by
  rw [replacedElsewhere, hr, Bool.true_and] at hkept
  exact left_of_no_clash hkept

/-- A record under one of the other fingerprints is of the key. -/
theorem isOf_of_other {r : KeyRecord} (hr : (r.fingerprint.any fun fp =>
      decide (fp ∈ otherFingerprints h ring primary rest)) = true) :
    ∃ serial ∈ rest, isOf r (ring.fingerprintOf h serial) = true := by
  obtain ⟨f, hf, hother⟩ := (Option.any_eq_true _ _).mp hr
  obtain ⟨hmap, -⟩ := List.mem_filter.mp (of_decide_eq_true hother)
  obtain ⟨serial, hserial, hfp⟩ := List.mem_filterMap.mp hmap
  refine ⟨serial, hserial, ?_⟩
  rw [hfp, isOf_iff, hf]

/-- What a granted rename leaves: the new record, and beside it records of the key that are
on the key under other names, and those of other keys. -/
structure RenameSet (h : Hasher) (ring ring' : Ring) (primary : RustStr) (rest : List RustStr)
    (name : RustStr) (record : KeyRecord) (front back : List KeyRecord) : Prop where
  hname : record.name = name
  hfingerprint : isOf record (ring'.fingerprintOf h primary) = true
  keys : ring'.keys = front ++ record :: back
  mine : ∀ r ∈ front ++ back, ofKey h ring' (primary :: rest) r = true →
    r.stored = .key ∧ r.name ≠ name
  strangers : ((front ++ back).filter fun r => !ofKey h ring' (primary :: rest) r) =
    ring.keys.filter fun r => !ofKey h ring' (primary :: rest) r

theorem NameSet.renameSet {ring' : Ring} {fp : Fingerprint} {record : KeyRecord}
    {front back : List KeyRecord}
    (hset : NameSet (retained h ring primary rest name store) ring' fp name store record front back)
    (hprimary : ring'.fingerprintOf h primary = some fp)
    (hof : ∀ r ∈ ring.keys, ∀ serial,
      isOf r (ring'.fingerprintOf h serial) = isOf r (ring.fingerprintOf h serial)) :
    RenameSet h ring ring' primary rest name record front back := by
  refine ⟨hset.hname, ?_, hset.keys, ?_, ?_⟩
  · rw [hprimary, isOf_iff, hset.hfingerprint]
  · intro r hr hkey
    rw [hset.kept] at hr
    obtain ⟨hretained, hnew⟩ := List.mem_filter.mp hr
    obtain ⟨hmem, hleft⟩ := List.mem_filter.mp hretained
    rw [Bool.not_eq_true'] at hnew hleft
    obtain ⟨serial, hserial, hrof⟩ := List.any_eq_true.mp hkey
    rcases List.mem_cons.mp hserial with rfl | hserial
    · exact left_of_not_replaced hnew (hprimary ▸ hrof)
    · rw [hof r hmem] at hrof
      rcases isOf_or_other primary hserial hrof with hours | hother
      · rw [← hof r hmem, hprimary] at hours
        exact left_of_not_replaced hnew hours
      · exact left_of_not_replacedElsewhere hleft hother
  · rw [hset.kept, retained, List.filter_filter, List.filter_filter]
    refine List.filter_congr ?_
    intro r hr
    cases hkey : ofKey h ring' (primary :: rest) r with
    | true => rfl
    | false =>
        have hnone := List.any_eq_false.mp hkey
        have hnew : replaced (some fp) name store r = false := by
          rw [replaced, ← hprimary, eq_false_of_ne_true (hnone primary List.mem_cons_self),
            Bool.false_and]
        have hleft : replacedElsewhere (otherFingerprints h ring primary rest) name store r =
            false := by
          rw [replacedElsewhere, Bool.and_eq_false_iff]
          left
          refine eq_false_of_ne_true ?_
          intro hother
          obtain ⟨serial, hserial, hrof⟩ := isOf_of_other hother
          rw [← hof r hr] at hrof
          exact hnone serial (List.mem_cons_of_mem _ hserial) hrof
        rw [hnew, hleft]
        rfl

theorem RenameSet.countP {ring' : Ring} {record : KeyRecord} {front back : List KeyRecord}
    (hset : RenameSet h ring ring' primary rest name record front back) :
    (ring'.keys.countP fun r => decide (r.name = name) && ofKey h ring' (primary :: rest) r) =
      1 := by
  have hrest : ((front ++ back).countP fun r =>
      decide (r.name = name) && ofKey h ring' (primary :: rest) r) = 0 := by
    rw [List.countP_eq_zero]
    intro r hr hcounted
    obtain ⟨hname, hkey⟩ := Bool.and_eq_true_iff.mp hcounted
    exact (hset.mine r hr hkey).2 (of_decide_eq_true hname)
  have hmine : ofKey h ring' (primary :: rest) record = true :=
    List.any_eq_true.mpr ⟨primary, List.mem_cons_self, hset.hfingerprint⟩
  rw [List.countP_append] at hrest
  rw [hset.keys, List.countP_append, List.countP_cons, hmine, hset.hname, decide_eq_true rfl,
    ← Nat.add_assoc, hrest]
  rfl

theorem RenameSet.computer {ring' : Ring} {record : KeyRecord} {front back : List KeyRecord}
    (hset : RenameSet h ring ring' primary rest name record front back) {serial : RustStr}
    (hserial : serial ∈ rest)
    (hne : ring'.fingerprintOf h serial ≠ ring'.fingerprintOf h primary) {r : KeyRecord}
    (hr : r ∈ ring'.keys) (hrof : isOf r (ring'.fingerprintOf h serial) = true) :
    r.stored ≠ .computer := by
  rw [hset.keys, List.mem_append, List.mem_cons, or_left_comm, ← List.mem_append] at hr
  rcases hr with rfl | hr
  · obtain ⟨f, hf, hrf⟩ := isOf_eq_some hrof
    obtain ⟨f', hf', hrf'⟩ := isOf_eq_some hset.hfingerprint
    rw [hf, hf', ← hrf, ← hrf'] at hne
    exact absurd rfl hne
  · have hkey : ofKey h ring' (primary :: rest) r = true :=
      List.any_eq_true.mpr ⟨serial, List.mem_cons_of_mem _ hserial, hrof⟩
    rw [(hset.mine r hr hkey).1]
    nofun

theorem RenameSet.others {ring' : Ring} {record : KeyRecord} {front back : List KeyRecord}
    (hset : RenameSet h ring ring' primary rest name record front back) :
    (ring'.keys.filter fun r => !ofKey h ring' (primary :: rest) r) =
      ring.keys.filter fun r => !ofKey h ring' (primary :: rest) r := by
  have hmine : ofKey h ring' (primary :: rest) record = true :=
    List.any_eq_true.mpr ⟨primary, List.mem_cons_self, hset.hfingerprint⟩
  rw [hset.keys, List.filter_append, List.filter_cons, hmine, if_neg (by decide),
    ← List.filter_append, hset.strangers]

theorem renamed_of_granted (hfresh : NoMatchYet h fresh ring)
    (hok : (setKeyName h fresh ring (primary :: rest) name store info).1 = .ok ()) :
    Renamed h ring (setKeyName h fresh ring (primary :: rest) name store info).2 primary rest
      name := by
  rw [setKeyName] at hok ⊢
  obtain ⟨-, -, hsalt⟩ := granted_of_setName hok
  rcases setName_cases h fresh (retained h ring primary rest name store) primary name store info
    with ⟨e, hrefused, -⟩ | ⟨fp, record, front, back, -, hfp, hset⟩
  · exact absurd (hok.symm.trans hrefused) nofun
  · have hprimary : ((retained h ring primary rest name store).setName h fresh primary name store
        info).2.fingerprintOf h primary = some fp := by
      rw [fingerprintOf, hsalt, ← fingerprintOf, hfp]
    have hrename := NameSet.renameSet hset hprimary fun r hr serial => by
      rw [fingerprintOf, hsalt, ensureSalt_retained, ← fingerprintOf, isOf_ensured hfresh hr]
    exact ⟨fun hnames => hset.nodup (nodup_of_sublist List.filter_sublist hnames), hrename.countP,
      fun serial hserial hne r => hrename.computer hserial hne, hrename.others⟩

/-! ### A refused rename -/

/-- The record that holds the name once the others are dropped. -/
theorem holder_retained : (retained h ring primary rest name store).holder name =
    ring.keys.find? fun r => decide (r.name = name) &&
      !r.fingerprint.any fun fp => decide (fp ∈ otherFingerprints h ring primary rest) := by
  rw [holder, retained, List.find?_filter]
  refine congrArg (List.find? · ring.keys) (funext fun r => ?_)
  by_cases hname : r.name = name
  · simp [replacedElsewhere, hname]
  · simp [hname]

theorem setKeyName_ok_iff {salt : Salt} (hsalt : ring.salt = some salt) :
    (setKeyName h fresh ring (primary :: rest) name store info).1 = .ok () ↔
      MayHave h ring primary rest name := by
  rw [setKeyName]
  have hretained : (retained h ring primary rest name store).salt = some salt := hsalt
  constructor
  · intro hok
    obtain ⟨hvalid, hserial, -⟩ := granted_of_setName hok
    refine ⟨hvalid, hserial, ?_⟩
    rcases setName_cases h fresh (retained h ring primary rest name store) primary name store info
      with ⟨e, hrefused, -⟩ | ⟨fp, record, front, back, -, hfp, hset⟩
    · exact absurd (hok.symm.trans hrefused) nofun
    · intro r hr
      have hours : ring.fingerprintOf h primary = some fp := by
        rw [← hfp, fingerprintOf, fingerprintOf, ensureSalt_retained, hsalt]
        unfold ensureSalt
        rw [hsalt]
        exact congrArg _ (congrArg _ hsalt.symm)
      rw [← holder_retained] at hr
      rw [hours, isOf_iff, hset.holder r hr]
  · rintro ⟨hvalid, hserial, hfree⟩
    refine setName_granted hretained hvalid hserial ?_
    intro r hr
    rw [holder_retained] at hr
    exact hfree r hr

theorem keys_of_refused {e : KeyringError}
    (hrefused : (setKeyName h fresh ring (primary :: rest) name store info).1 = .error e) :
    (setKeyName h fresh ring (primary :: rest) name store info).2.keys =
      (retained h ring primary rest name store).keys := by
  rw [setKeyName] at hrefused ⊢
  rcases setName_cases h fresh (retained h ring primary rest name store) primary name store info
    with ⟨e', -, hkeys⟩ | ⟨fp, record, front, back, hok, -, -⟩
  · exact hkeys
  · exact absurd (hok.symm.trans hrefused) nofun

theorem keys_retained_iff : (retained h ring primary rest name store).keys = ring.keys ↔
    ∀ r ∈ ring.keys,
      replacedElsewhere (otherFingerprints h ring primary rest) name store r = false := by
  rw [retained, List.filter_eq_self]
  refine forall_congr' fun r => forall_congr' fun _ => ?_
  rw [Bool.not_eq_true']

/-- **A rename is all or nothing exactly when nothing is dropped before a refusal.** The condition
is one on the ring, the serials and the name before the rename. A salt that is drawn for it is not
to make any fingerprint that is stored already, as a random one does not. -/
theorem setKeyName_allOrNothing_iff (h : Hasher) (fresh : Except KeyringError Salt) (ring : Ring)
    (serials : List RustStr) (name : RustStr) (store : NameStore) (info : RecordMeta)
    (hfresh : NoMatchYet h fresh ring) :
    AllOrNothing h ring serials name (setKeyName h fresh ring serials name store info) ↔
      Unforced h ring serials name store := by
  constructor
  · rintro ⟨hrefused, -⟩ primary rest rfl
    cases hresult : (setKeyName h fresh ring (primary :: rest) name store info).1 with
    | error e =>
        left
        rw [← keys_retained_iff, ← keys_of_refused hresult]
        exact hrefused e hresult
    | ok u =>
        cases hsalt : ring.salt with
        | some salt => exact .inr ((setKeyName_ok_iff hsalt).mp hresult)
        | none =>
            left
            intro r _
            rw [otherFingerprints_of_unsalted hsalt, replacedElsewhere]
            cases r.fingerprint <;> rfl
  · intro hunforced
    rcases serials with - | ⟨primary, rest⟩
    · exact ⟨fun e _ => rfl, fun hok => absurd hok nofun⟩
    · refine ⟨?_, fun hok => ⟨primary, rest, rfl, renamed_of_granted hfresh hok⟩⟩
      intro e hrefused
      rw [keys_of_refused hrefused, keys_retained_iff]
      rcases hunforced primary rest rfl with hnone | hmay
      · exact hnone
      · intro r hr
        cases hsalt : ring.salt with
        | some salt =>
            exact absurd (((setKeyName_ok_iff hsalt).mpr hmay).symm.trans hrefused) nofun
        | none =>
            rw [otherFingerprints_of_unsalted hsalt, replacedElsewhere]
            cases r.fingerprint <;> rfl

/-! ### A refused rename that drops a record -/

/-- The key with serials 7 and 8 has a name under 8; another key has the name `b`. -/
def twoSerials : Ring :=
  NameEdit.sampleRing [NameEdit.sampleRecord ['a'] ['8'], NameEdit.sampleRecord ['b'] ['9']]

theorem twoSerials_allOrNothing_iff :
    AllOrNothing NameEdit.sampleHasher twoSerials [['7'], ['8']] ['c']
        (setKeyName NameEdit.sampleHasher (.error .noSerial) twoSerials [['7'], ['8']] ['c']
          .computer ⟨.usb, none⟩) ↔
      Unforced NameEdit.sampleHasher twoSerials [['7'], ['8']] ['c'] .computer :=
  setKeyName_allOrNothing_iff NameEdit.sampleHasher (.error .noSerial) twoSerials
    [['7'], ['8']] ['c'] .computer ⟨.usb, none⟩ fun _ hsalt => absurd hsalt nofun

/-- The name is refused, and the key's own name is gone. -/
theorem refused_rename_drops :
    (setKeyName NameEdit.sampleHasher (.error .noSerial) twoSerials [['7'], ['8']] ['b']
        .computer ⟨.usb, none⟩).1 = .error (.duplicateName ['b']) ∧
      (setKeyName NameEdit.sampleHasher (.error .noSerial) twoSerials [['7'], ['8']] ['b']
        .computer ⟨.usb, none⟩).2.keys = [NameEdit.sampleRecord ['b'] ['9']] ∧
      ¬ AllOrNothing NameEdit.sampleHasher twoSerials [['7'], ['8']] ['b']
        (setKeyName NameEdit.sampleHasher (.error .noSerial) twoSerials [['7'], ['8']] ['b']
          .computer ⟨.usb, none⟩) := by
  have hrefused : (setKeyName NameEdit.sampleHasher (.error .noSerial) twoSerials [['7'], ['8']]
      ['b'] .computer ⟨.usb, none⟩).1 = .error (.duplicateName ['b']) := by decide +kernel
  have hkeys : (setKeyName NameEdit.sampleHasher (.error .noSerial) twoSerials [['7'], ['8']]
      ['b'] .computer ⟨.usb, none⟩).2.keys = [NameEdit.sampleRecord ['b'] ['9']] := by
    decide +kernel
  refine ⟨hrefused, hkeys, ?_⟩
  intro hall
  exact absurd ((hall.refused _ hrefused).symm.trans hkeys) (by decide)

end Keyroost.Resolve
