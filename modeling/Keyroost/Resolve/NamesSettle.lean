import Keyroost.Resolve.NamesPass

/-!
# The naming pass settles

A pass leaves no stale record behind, so the next one only adds records, and each name it adds is
then held: the third has nothing more to ask for.

The first half is about applying updates to a ring, what they do to its records
(`ringAfter_records`) and to its salt. The second goes from pass to pass: `no_stale_after`,
`rounds_no_drop`, `rounds_nothing`, each from what the pass before has left. Keys that the
fingerprints cannot tell apart would undo each other's records for ever, so `naming_settles` asks
that they can (`Distinguishable`); `unsettled` has two keys with one serial.
-/

namespace Keyroost.Resolve

open Keyring Keyring.NameEdit Ring

variable {h : Hasher} {ring : Ring} {labels : Labels} {l s : RustStr}

/-! ### The updates applied -/

/-- The ring after one update. -/
def ringUpdated (h : Hasher) (fresh : Except KeyringError Salt) (ring : Ring) : NameUpdate → Ring
  | .firstSeen serial name => (ring.recordFirstSeen h fresh serial name).2
  | .dropStale serial current => (ring.dropStaleKeyRecords h serial current).2
  | .unrecordable _ => ring

/-- The ring after some updates. -/
def ringAfter (h : Hasher) : (Nat → Except KeyringError Salt) → Ring → List NameUpdate → Ring
  | _, ring, [] => ring
  | fresh, ring, u :: updates =>
      ringAfter h (fun k => fresh (k + 1)) (ringUpdated h (fresh 0) ring u) updates

theorem applyUpdates_ring (fresh : Nat → Except KeyringError Salt) (ring : Ring)
    (updates : List NameUpdate) :
    (applyUpdates h fresh ring updates).ring = ringAfter h fresh ring updates := by
  have hfrom : ∀ (fresh : Nat → Except KeyringError Salt) (st : Updated),
      (applyUpdatesFrom h fresh st updates).ring = ringAfter h fresh st.ring updates := by
    induction updates with
    | nil => exact fun _ _ => rfl
    | cons u updates ih =>
        intro fresh st
        rw [applyUpdatesFrom, ringAfter, ih]
        congr 1
        cases u <;> rfl
  exact hfrom fresh _

/-- A name is recorded under this ring's salt, or the ring stays as it is. -/
theorem recordFirstSeen_ring (fresh : Except KeyringError Salt) (ring : Ring)
    (serial name : RustStr) :
    (ring.recordFirstSeen h fresh serial name).2 = ring ∨
    ∃ salt record, (ring.salt = some salt ∨ (ring.salt = none ∧ fresh = .ok salt)) ∧
      (ring.recordFirstSeen h fresh serial name).2.salt = some salt ∧
      record.name = name ∧ record.fingerprint = some (fingerprint h salt serial) ∧
      (ring.recordFirstSeen h fresh serial name).2.keys = ring.keys ++ [record] := by
  rw [Ring.recordFirstSeen]
  split
  · exact .inl rfl
  · split
    · exact .inl rfl
    · unfold ensureSalt
      rcases hsalt : ring.salt with _ | salt
      · rcases fresh with e | salt
        · exact .inl rfl
        · exact .inr ⟨salt, _, .inr ⟨rfl, rfl⟩, rfl, rfl, rfl, rfl⟩
      · exact .inr ⟨salt, _, .inl rfl, hsalt, rfl, rfl, rfl⟩

/-- A valid name is held after its first sight on a key with a usable serial. -/
theorem recordFirstSeen_holder {fresh : Except KeyringError Salt} {salt : Salt}
    {serial name : RustStr}
    (hvalid : validateName name = .ok ())
    (hserial : (canonicalSerial h serial).isEmpty = false) (hfresh : fresh = .ok salt) :
    (ring.recordFirstSeen h fresh serial name).2.holder name ≠ none := by
  rw [Ring.recordFirstSeen, hvalid]
  dsimp only
  split
  · rename_i hskip
    rw [hserial] at hskip
    intro hnone
    rw [hnone] at hskip
    rcases hskip with hskip | hskip <;> cases hskip
  · rw [Ne, holder_none_iff, not_not, hfresh]
    unfold ensureSalt names
    rcases ring.salt with _ | salt' <;> simp

section Apply

variable {fresh : Nat → Except KeyringError Salt} {updates : List NameUpdate} {salt : Salt}

theorem ringUpdated_salt (e : Except KeyringError Salt) (ring : Ring) (u : NameUpdate) :
    (∀ salt, ring.salt = some salt → (ringUpdated h e ring u).salt = some salt) ∧
    (∀ salt, (ringUpdated h e ring u).salt = some salt →
      ring.salt = some salt ∨ e = .ok salt) := by
  cases u with
  | firstSeen serial name =>
      rw [ringUpdated]
      rcases recordFirstSeen_ring e ring serial name with hsame | ⟨salt, -, hfrom, hsalt, -⟩
      · rw [hsame]
        exact ⟨fun _ hs => hs, fun _ hs => .inl hs⟩
      · rw [hsalt]
        constructor
        · intro salt' hs
          rcases hfrom with hfrom | ⟨hnone, -⟩
          · exact hfrom.symm.trans hs
          · rw [hnone] at hs
            cases hs
        · rintro salt' hs
          cases hs
          exact hfrom.imp_right And.right
  | dropStale serial current => exact ⟨fun _ hs => hs, fun _ hs => .inl hs⟩
  | unrecordable name => exact ⟨fun _ hs => hs, fun _ hs => .inl hs⟩

/-- Where a record comes from: the ring before, or the first sight of a name. -/
def Recorded (h : Hasher) (updates : List NameUpdate) (ring' : Ring) (r : KeyRecord) : Prop :=
  ∃ salt s, .firstSeen s r.name ∈ updates ∧ ring'.salt = some salt ∧
    r.fingerprint = some (fingerprint h salt s)

theorem ringUpdated_keys (e : Except KeyringError Salt) (ring : Ring) (u : NameUpdate)
    {r : KeyRecord} (hr : r ∈ (ringUpdated h e ring u).keys) :
    r ∈ ring.keys ∨ Recorded h [u] (ringUpdated h e ring u) r := by
  cases u with
  | firstSeen serial name =>
      rw [ringUpdated] at hr ⊢
      rcases recordFirstSeen_ring e ring serial name with
        hsame | ⟨salt, record, -, hsalt, hname, hfp, hkeys⟩
      · rw [hsame] at hr
        exact .inl hr
      · rw [hkeys] at hr
        rcases List.mem_append.mp hr with hr | hr
        · exact .inl hr
        · obtain rfl := List.mem_singleton.mp hr
          exact .inr ⟨salt, serial, hname ▸ List.mem_singleton_self _, hsalt, hfp⟩
  | dropStale serial current => exact .inl (List.mem_filter.mp hr).1
  | unrecordable name => exact .inl hr

theorem ringAfter_salt (hsalt : ring.salt = some salt) :
    (ringAfter h fresh ring updates).salt = some salt := by
  induction updates generalizing fresh ring with
  | nil => exact hsalt
  | cons u updates ih => exact ih ((ringUpdated_salt (fresh 0) ring u).1 salt hsalt)

theorem ringAfter_salt_from (hsalt : (ringAfter h fresh ring updates).salt = some salt) :
    ring.salt = some salt ∨ ∃ k, fresh k = .ok salt := by
  induction updates generalizing fresh ring with
  | nil => exact .inl hsalt
  | cons u updates ih =>
      rcases ih hsalt with hring | ⟨k, hk⟩
      · rcases (ringUpdated_salt (fresh 0) ring u).2 salt hring with hold | hfresh
        · exact .inl hold
        · exact .inr ⟨0, hfresh⟩
      · exact .inr ⟨k + 1, hk⟩

theorem ringAfter_keys {r : KeyRecord} (hr : r ∈ (ringAfter h fresh ring updates).keys) :
    r ∈ ring.keys ∨ Recorded h updates (ringAfter h fresh ring updates) r := by
  induction updates generalizing fresh ring with
  | nil => exact .inl hr
  | cons u updates ih =>
      rcases ih hr with hmid | ⟨salt, s, hmem, hsalt, hfp⟩
      · rcases ringUpdated_keys (fresh 0) ring u hmid with hold | ⟨salt, s, hmem, hsalt, hfp⟩
        · exact .inl hold
        · have hkept : (ringAfter h fresh ring (u :: updates)).salt = some salt := by
            rw [ringAfter]
            exact ringAfter_salt hsalt
          exact .inr ⟨salt, s, List.mem_cons.mpr (.inl (List.mem_singleton.mp hmem)), hkept, hfp⟩
      · exact .inr ⟨salt, s, List.mem_cons_of_mem u hmem, hsalt, hfp⟩

theorem ringAfter_append (more : List NameUpdate) :
    ringAfter h fresh ring (updates ++ more) =
      ringAfter h (fun k => fresh (k + updates.length)) (ringAfter h fresh ring updates) more := by
  induction updates generalizing fresh ring with
  | nil => rfl
  | cons u updates ih =>
      rw [List.cons_append, ringAfter, ringAfter, ih]
      rfl

/-- Where nothing is dropped, every record stays. -/
theorem ringAfter_keeps (hdrop : ∀ s l, .dropStale s l ∉ updates) {r : KeyRecord}
    (hr : r ∈ ring.keys) : r ∈ (ringAfter h fresh ring updates).keys := by
  induction updates generalizing fresh ring with
  | nil => exact hr
  | cons u updates ih =>
      refine ih (fun s l hmem => hdrop s l (List.mem_cons_of_mem u hmem)) ?_
      cases u with
      | firstSeen serial name =>
          rw [ringUpdated]
          rcases recordFirstSeen_ring (fresh 0) ring serial name with
            hsame | ⟨_, _, -, -, -, -, hkeys⟩
          · rw [hsame]
            exact hr
          · rw [hkeys]
            exact List.mem_append_left _ hr
      | dropStale serial current => exact absurd List.mem_cons_self (hdrop serial current)
      | unrecordable name => exact hr

theorem ringAfter_holder (hdrop : ∀ s l, .dropStale s l ∉ updates)
    (hholder : ring.holder l ≠ none) : (ringAfter h fresh ring updates).holder l ≠ none := by
  rw [Ne, holder_none_iff, not_not, names, List.mem_map] at hholder ⊢
  obtain ⟨r, hr, hname⟩ := hholder
  exact ⟨r, ringAfter_keeps hdrop hr, hname⟩

/-- A valid name that is asked to be recorded is held in the end, where nothing is
dropped. -/
theorem ringAfter_records (hdrop : ∀ s l, .dropStale s l ∉ updates)
    (hvalid : validateName l = .ok ()) (hserial : (canonicalSerial h s).isEmpty = false)
    (hfresh : ∀ k, ∃ salt, fresh k = .ok salt) (hu : .firstSeen s l ∈ updates) :
    (ringAfter h fresh ring updates).holder l ≠ none := by
  obtain ⟨front, back, rfl⟩ := List.append_of_mem hu
  obtain ⟨salt, hsalt⟩ := hfresh (0 + front.length)
  rw [ringAfter_append, ringAfter]
  refine ringAfter_holder (fun s' l' hmem => hdrop s' l'
    (List.mem_append_right _ (List.mem_cons_of_mem _ hmem))) ?_
  exact recordFirstSeen_holder hvalid hserial hsalt

end Apply

/-! ### After a pass -/

/-- As a load gives it: without a salt, no record is matched to a key. -/
def SaltFits (ring : Ring) : Prop := ring.salt = none → ∀ r ∈ ring.keys, r.fingerprint = none

/-- Rows that carry different names are different keys: no serial of one has the fingerprint
of a serial of the other. -/
def Distinguishable (h : Hasher) (labels : Labels) (salts : Salt → Prop) (rows : List Device) :
    Prop :=
  ∀ l s l' s', Carries h labels rows l s → Carries h labels rows l' s' → l ≠ l' →
    ∀ salt, salts salt → fingerprint h salt s ≠ fingerprint h salt s'

theorem isOf_fingerprintOf {r : KeyRecord} :
    isOf r (ring.fingerprintOf h s) = true ↔ (canonicalSerial h s).isEmpty = false ∧
      ∃ salt, ring.salt = some salt ∧ r.fingerprint = some (fingerprint h salt s) := by
  rw [fingerprintOf]
  rcases hcanon : (canonicalSerial h s).isEmpty with _ | _
  · rcases ring.salt with _ | salt
    · simp [isOf]
    · rw [if_neg Bool.false_ne_true, Option.map_some, isOf_iff]
      simp
  · simp [isOf]

theorem FirstCarrier.carries {rows : List Device} {d : Device} (hd : FirstCarrier labels rows l d)
    (hserial : (canonicalSerial h d.serial).isEmpty = false) :
    Carries h labels rows l d.serial := by
  obtain ⟨front, back, rfl, hl, -⟩ := hd
  refine ⟨d, by simp, hl, ?_⟩
  rw [Device.known, knownSerials, List.mem_filter, hserial]
  exact ⟨by simp, rfl⟩

section OnePass

variable {rows : List Device} {salts : Salt → Prop} {fresh : Nat → Except KeyringError Salt}

/-- **A pass leaves no stale record behind.** -/
theorem no_stale_after (hfits : SaltFits ring) (hdist : Distinguishable h labels salts rows)
    (hring : ∀ salt, ring.salt = some salt → salts salt)
    (hfresh : ∀ k salt, fresh k = .ok salt → salts salt) (hc : Carries h labels rows l s) :
    ¬ Stale h (ringAfter h fresh ring (passUpdates h ring labels [] rows)) l s := by
  rintro ⟨r, hr, hof, hkey, hne⟩
  obtain ⟨-, salt, hsalt, hfp⟩ := isOf_fingerprintOf.mp hof
  have hused : salts salt := by
    rcases ringAfter_salt_from hsalt with hold | ⟨k, hk⟩
    · exact hring salt hold
    · exact hfresh k salt hk
  -- A record made by this pass is of a key that carries the record's name.
  have hnew : ¬ Recorded h (passUpdates h ring labels [] rows)
      (ringAfter h fresh ring (passUpdates h ring labels [] rows)) r := by
    rintro ⟨salt', s', hmem, hsalt', hfp'⟩
    obtain rfl : salt = salt' := Option.some.inj (hsalt.symm.trans hsalt')
    obtain ⟨-, d, hd, hserial, rfl⟩ := (firstSeen_mem rfl).mp hmem
    exact hdist _ _ _ _ (hd.carries hserial) hc hne salt hused
      (Option.some.inj (hfp'.symm.trans hfp))
  rcases ringAfter_keys hr with hold | hrecorded
  · rcases hbefore : ring.salt with _ | salt'
    · rw [hfits hbefore r hold] at hfp
      cases hfp
    · obtain rfl : salt' = salt :=
        Option.some.inj ((ringAfter_salt hbefore).symm.trans hsalt)
      have hstale : Stale h ring l s :=
        ⟨r, hold, isOf_fingerprintOf.mpr ⟨(isOf_fingerprintOf.mp hof).1, salt', hbefore, hfp⟩,
          hkey, hne⟩
      obtain ⟨s', hcanon, hdrop⟩ := @dropStale_complete h ring labels [] l s rows hc hstale
      obtain ⟨front, back, hsplit⟩ := List.append_of_mem hdrop
      rw [hsplit, ringAfter_append, ringAfter] at hr
      rcases ringAfter_keys hr with hmid | ⟨salt₂, s₂, hmem, hsalt₂, hfp₂⟩
      · rw [ringUpdated, Ring.dropStaleKeyRecords, List.mem_filter] at hmid
        have hofMid : isOf r ((ringAfter h fresh ring front).fingerprintOf h s') = true := by
          rw [fingerprintOf_congr hcanon]
          exact isOf_fingerprintOf.mpr
            ⟨(isOf_fingerprintOf.mp hof).1, salt', ringAfter_salt hbefore, hfp⟩
        have hkept := hmid.2
        rw [hofMid, hkey] at hkept
        simp [hne] at hkept
      · refine hnew ⟨salt₂, s₂, ?_, ?_, hfp₂⟩
        · rw [hsplit]
          exact List.mem_append_right _ (List.mem_cons_of_mem _ hmem)
        · rw [hsplit, ringAfter_append, ringAfter]
          exact hsalt₂
  · exact hnew hrecorded

/-- A pass that drops nothing leaves nothing to record. -/
theorem nothing_to_record (hdrop : ∀ s l, .dropStale s l ∉ passUpdates h ring labels [] rows)
    (hfresh : ∀ k, ∃ salt, fresh k = .ok salt) (s l : RustStr) :
    .firstSeen s l ∉ passUpdates h
      (ringAfter h fresh ring (passUpdates h ring labels [] rows)) labels [] rows := by
  intro hu
  obtain ⟨hholder, d, hd, hserial, rfl⟩ := (firstSeen_mem rfl).mp hu
  by_cases hbefore : ring.holder l = none
  · have hasked : .firstSeen d.serial l ∈ passUpdates h ring labels [] rows :=
      (firstSeen_mem rfl).mpr ⟨hbefore, d, hd, hserial, rfl⟩
    obtain ⟨-, -, -, hl, -⟩ := hd
    exact ringAfter_records hdrop (valid_onKey hl) hserial hfresh hasked hholder
  · exact ringAfter_holder hdrop hbefore hholder

theorem saltFits_after {updates : List NameUpdate} (hfits : SaltFits ring) :
    SaltFits (ringAfter h fresh ring updates) := by
  intro hnone r hr
  have hbefore : ring.salt = none := by
    rcases hsalt : ring.salt with _ | salt
    · rfl
    · rw [ringAfter_salt hsalt] at hnone
      cases hnone
  rcases ringAfter_keys hr with hold | ⟨salt, s, -, hsalt, -⟩
  · exact hfits hbefore r hold
  · rw [hnone] at hsalt
    cases hsalt

theorem ringAfter_nothing {updates : List NameUpdate} (hfirst : ∀ s l, .firstSeen s l ∉ updates)
    (hdrop : ∀ s l, .dropStale s l ∉ updates) : ringAfter h fresh ring updates = ring := by
  induction updates generalizing fresh with
  | nil => rfl
  | cons u updates ih =>
      have hrest : ringAfter h (fun k => fresh (k + 1)) ring updates = ring := ih
        (fun s l hmem => hfirst s l (List.mem_cons_of_mem u hmem))
        (fun s l hmem => hdrop s l (List.mem_cons_of_mem u hmem))
      cases u with
      | firstSeen serial name => exact absurd List.mem_cons_self (hfirst serial name)
      | dropStale serial current => exact absurd List.mem_cons_self (hdrop serial current)
      | unrecordable name => exact hrest

end OnePass

/-! ### Passes after each other -/

section Rounds

variable {devices : List Device} {random : Nat → Nat → Except KeyringError Salt}

theorem rounds_same (n : Nat) (ring : Ring) :
    SameRows (namingRounds h labels random n (devices, ring)).1 devices := by
  induction n with
  | zero => rfl
  | succ n ih =>
      rw [namingRounds]
      exact (applyNames_same _).trans ih

/-- What a pass asks for after some rounds. -/
theorem rounds_updates (n : Nat) (ring : Ring) :
    askedAfter h labels random n (devices, ring) =
      passUpdates h (namingRounds h labels random n (devices, ring)).2 labels []
        (rowsOf devices) := by
  rw [askedAfter, applyNames_updates, (rounds_same n ring).rowsOf]

theorem rounds_ring (n : Nat) (ring : Ring) :
    (namingRounds h labels random (n + 1) (devices, ring)).2 =
      ringAfter h (random n) (namingRounds h labels random n (devices, ring)).2
        (passUpdates h (namingRounds h labels random n (devices, ring)).2 labels []
          (rowsOf devices)) := by
  rw [← rounds_updates]
  exact applyUpdates_ring _ _ _

/-- The salts that may come into use. -/
def Offered (ring : Ring) (random : Nat → Nat → Except KeyringError Salt) (salt : Salt) : Prop :=
  ring.salt = some salt ∨ ∃ n k, random n k = .ok salt

theorem rounds_offered (n : Nat) {ring : Ring} {salt : Salt}
    (hsalt : (namingRounds h labels random n (devices, ring)).2.salt = some salt) :
    Offered ring random salt := by
  induction n with
  | zero => exact .inl hsalt
  | succ n ih =>
      rw [rounds_ring] at hsalt
      rcases ringAfter_salt_from hsalt with hold | ⟨k, hk⟩
      · exact ih hold
      · exact .inr ⟨n, k, hk⟩

theorem rounds_saltFits (n : Nat) {ring : Ring} (hfits : SaltFits ring) :
    SaltFits (namingRounds h labels random n (devices, ring)).2 := by
  induction n with
  | zero => exact hfits
  | succ n ih =>
      rw [rounds_ring]
      exact saltFits_after ih

theorem carries_rowsOf (hc : Carries h labels (rowsOf devices) l s) :
    Carries h labels devices l s := by
  obtain ⟨d, hd, hrest⟩ := hc
  obtain ⟨i, -, hi⟩ := List.mem_filterMap.mp hd
  obtain ⟨e, he, rfl⟩ := Option.map_eq_some_iff.mp hi
  exact ⟨e, List.mem_of_getElem? he, hrest⟩

variable (hfits : SaltFits ring) (hrandom : ∀ n k, ∃ salt, random n k = .ok salt)
  (hdist : Distinguishable h labels (Offered ring random) devices)

include hfits hdist in
theorem rounds_no_drop (n : Nat) (s l : RustStr) :
    .dropStale s l ∉ passUpdates h (namingRounds h labels random (n + 1) (devices, ring)).2
      labels [] (rowsOf devices) := by
  intro hu
  obtain ⟨hc, hstale⟩ := dropStale_mem hu
  rw [rounds_ring] at hstale
  have hrows : Distinguishable h labels (Offered ring random) (rowsOf devices) :=
    fun l s l' s' hs hs' => hdist l s l' s' (carries_rowsOf hs) (carries_rowsOf hs')
  exact no_stale_after (rounds_saltFits n hfits) hrows (fun salt => rounds_offered n)
    (fun k salt hk => .inr ⟨n, k, hk⟩) hc hstale

include hfits hrandom hdist in
theorem rounds_nothing (n : Nat) (s l : RustStr) :
    .firstSeen s l ∉ passUpdates h (namingRounds h labels random (n + 2) (devices, ring)).2
      labels [] (rowsOf devices) := by
  rw [rounds_ring (n + 1)]
  exact nothing_to_record (rounds_no_drop hfits hdist n) (hrandom (n + 1)) s l

include hfits hrandom hdist in
theorem rounds_settled (n : Nat) :
    (namingRounds h labels random (n + 3) (devices, ring)).2 =
      (namingRounds h labels random (n + 2) (devices, ring)).2 := by
  rw [rounds_ring (n + 2)]
  exact ringAfter_nothing (rounds_nothing hfits hrandom hdist n)
    (rounds_no_drop hfits hdist (n + 1))

end Rounds

/-- **The naming pass settles**: after two passes, each followed by its updates, a further
pass asks for no record to be added or dropped, and from then on neither the keyring nor
what the rows show changes. -/
theorem naming_settles (h : Hasher) (devices : List Device) (ring : Ring) (labels : Labels)
    (random : Nat → Nat → Except KeyringError Salt) (hfits : SaltFits ring)
    (hrandom : ∀ n k, ∃ salt, random n k = .ok salt)
    (hdist : Distinguishable h labels (Offered ring random) devices) :
    (∀ s l, .firstSeen s l ∉ askedAfter h labels random 2 (devices, ring) ∧
      .dropStale s l ∉ askedAfter h labels random 2 (devices, ring)) ∧
    (∀ n, (namingRounds h labels random (n + 2) (devices, ring)).2 =
      (namingRounds h labels random 2 (devices, ring)).2) ∧
    ∀ n, (namingRounds h labels random (n + 3) (devices, ring)).1 =
      (namingRounds h labels random 3 (devices, ring)).1 := by
  have hring : ∀ n, (namingRounds h labels random (n + 2) (devices, ring)).2 =
      (namingRounds h labels random 2 (devices, ring)).2 := by
    intro n
    induction n with
    | zero => rfl
    | succ n ih => exact (rounds_settled hfits hrandom hdist n).trans ih
  refine ⟨?_, hring, ?_⟩
  · intro s l
    rw [rounds_updates]
    exact ⟨rounds_nothing hfits hrandom hdist 0 s l, rounds_no_drop hfits hdist 1 s l⟩
  · intro n
    change (applyNames h (namingRounds h labels random (n + 2) (devices, ring)).1
        (namingRounds h labels random (n + 2) (devices, ring)).2 labels).devices =
      (applyNames h (namingRounds h labels random 2 (devices, ring)).1
        (namingRounds h labels random 2 (devices, ring)).2 labels).devices
    rw [hring n]
    exact applyNames_congr ((rounds_same (n + 2) ring).trans (rounds_same 2 ring).symm)

/-! ### One serial for two keys -/

/-- A row of a FIDO key with this serial. -/
def sampleRow (id serial : RustStr) : Device :=
  { id, name := none, serial, kind := .key, hidPath := none, reader := none, hidSerial := none,
    formerSerial := none, naming := .unnamed }

/-- Two keys in use, and the names that they carry. -/
def twoRows : List Device := [sampleRow ['a'] ['7'], sampleRow ['b'] ['8']]

def twoLabels : Labels := [(['a'], .present ['A']), (['b'], .present ['B'])]

/-- A ring that remembers the first key under a name which it no longer carries. -/
def staleRing : Ring := sampleRing [{ sampleRecord ['O'] ['7'] with stored := .key }]

/-- The old name is dropped in the first round and both new ones are recorded; the second round is
the last that could change anything. -/
theorem sampleRows_settle :
    NameUpdate.dropStale ['7'] ['A'] ∈ askedAfter sampleHasher twoLabels
      (fun _ _ => .ok sampleSalt) 0 (twoRows, staleRing) ∧
    (namingRounds sampleHasher twoLabels (fun _ _ => .ok sampleSalt) 7 (twoRows, staleRing)).2 =
      (namingRounds sampleHasher twoLabels (fun _ _ => .ok sampleSalt) 2 (twoRows, staleRing)).2 ∧
    (namingRounds sampleHasher twoLabels (fun _ _ => .ok sampleSalt) 2
      (twoRows, staleRing)).2.names = [['A'], ['B']] := by
  have hcarries : ∀ l s, Carries sampleHasher twoLabels twoRows l s →
      l = ['A'] ∧ s = ['7'] ∨ l = ['B'] ∧ s = ['8'] := by
    rintro l s ⟨d, hd, hl, hs⟩
    rcases List.mem_cons.mp hd with rfl | hd
    · exact .inl ⟨(KeyLabel.present.inj hl).symm, List.mem_singleton.mp hs⟩
    · obtain rfl := List.mem_singleton.mp hd
      exact .inr ⟨(KeyLabel.present.inj hl).symm, List.mem_singleton.mp hs⟩
  have hsalts : ∀ salt, Offered staleRing (fun _ _ => .ok sampleSalt) salt → salt = sampleSalt := by
    rintro salt (hring | ⟨n, k, hk⟩)
    · exact (Option.some.inj hring).symm
    · exact (Except.ok.inj hk).symm
  have hsettles := naming_settles sampleHasher twoRows staleRing twoLabels
    (fun _ _ => .ok sampleSalt) nofun (fun _ _ => ⟨sampleSalt, rfl⟩) ?_
  · exact ⟨by decide, hsettles.2.1 5, by decide⟩
  · intro l s l' s' hc hc' hne salt hsalt
    obtain rfl := hsalts salt hsalt
    rcases hcarries l s hc with ⟨rfl, rfl⟩ | ⟨rfl, rfl⟩ <;>
      rcases hcarries l' s' hc' with ⟨rfl, rfl⟩ | ⟨rfl, rfl⟩
    · exact absurd rfl hne
    · decide
    · decide
    · exact absurd rfl hne

/-- Two keys of one serial that carry different names have their records made and dropped in
turn; without a random source nothing is ever recorded; and a ring that holds a fingerprint
without its salt may meet that fingerprint again under the salt it makes. -/
theorem unsettled :
    (∀ n < 3, NameUpdate.firstSeen ['7'] ['A'] ∈ askedAfter sampleHasher
        [(['a'], .present ['A']), (['b'], .present ['B'])] (fun _ _ => .ok sampleSalt) n
        ([sampleRow ['a'] ['7'], sampleRow ['b'] ['7']], sampleRing []) ∨
      NameUpdate.dropStale ['7'] ['A'] ∈ askedAfter sampleHasher
        [(['a'], .present ['A']), (['b'], .present ['B'])] (fun _ _ => .ok sampleSalt) n
        ([sampleRow ['a'] ['7'], sampleRow ['b'] ['7']], sampleRing [])) ∧
    (∀ n < 3, NameUpdate.firstSeen ['7'] ['A'] ∈ askedAfter sampleHasher
      [(['a'], .present ['A'])] (fun _ _ => .error .noSerial) n
      ([sampleRow ['a'] ['7']], Ring.empty)) ∧
    NameUpdate.firstSeen ['8'] ['B'] ∈ askedAfter sampleHasher
      [(['a'], .present ['A']), (['b'], .present ['B'])] (fun _ _ => .ok sampleSalt) 2
      ([sampleRow ['a'] ['7'], sampleRow ['b'] ['8']],
        { Ring.empty with keys := [{ sampleRecord ['B'] ['7'] with stored := .key }] }) := by
  decide

end Keyroost.Resolve
