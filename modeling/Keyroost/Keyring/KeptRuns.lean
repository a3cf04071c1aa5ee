import Keyroost.Keyring.Kept

/-!
# Runs of loads, edits and saves

What a load and a save keep of the files carries over to every run: the rings in memory never hold
more than the disk can answer for, and so what any of them saves can be trusted.

There is one lemma for each kind of action (`load_preserved`, `save_preserved`, and
`SessionOk.edit` for the operations of `Ring`, which touch no file), put together by
`act_preserved`; `run_inv` is the induction over the actions. `keyring_kept` adds the action in
progress, at every point of which the files still answer. `not_literally_kept` is the run that
shows why its statement has to speak of the backup.
-/

namespace Keyroost.Keyring

open Crash

section Proof

variable {serde : Serde} {h : Hasher} {start d e : Disk File} {owed : List RustStr}

/-! ### Rings in memory -/

theorem SessionOk.mono {session : Session} (hsession : SessionOk serde h start d session)
    (hsalt : d .salt ≠ none → e .salt = d .salt) : SessionOk serde h start e session := by
  refine ⟨hsession.fingerprints, ?_, hsession.pending⟩
  intro hpersisted
  obtain ⟨salt, hhas, hin⟩ := hsession.persisted hpersisted
  refine ⟨salt, hhas, ?_⟩
  rw [hsalt, hin]
  intro hnone
  rw [hnone] at hin
  cases hin

theorem Loaded.session {ring : Ring} (hloaded : Loaded serde h d ring e)
    (hd : Intact serde h start owed d) :
    SessionOk serde h start e { ring, readFrom := d .keys } := by
  refine ⟨?_, hloaded.persisted, ?_⟩
  · intro r hr fp hfp
    rcases hloaded.fingerprints r hr fp hfp with ⟨hin, hsalt⟩ | ⟨salt, serial, hsalt, hmade⟩
    · change Backed serde h start ring.salt fp
      rw [hsalt]
      exact hd.fingerprints fp hin
    · exact .inr ⟨salt, serial, hsalt, hmade⟩
  · intro horigin
    obtain ⟨file, hfile⟩ := hloaded.pending horigin
    rcases hd.form with hstart | ⟨file', hfile'⟩
    · exact hstart
    · rw [hfile] at hfile'
      cases hfile'

theorem Saved.session {session : Session} {out : Reply Unit × Ring}
    (hsaved : Saved serde session.ring out e) (hsession : SessionOk serde h start d session) :
    SessionOk serde h start e { session with ring := out.2 } := by
  refine ⟨?_, hsaved.persisted, fun horigin => hsession.pending (hsaved.origin horigin)⟩
  intro r hr fp hfp
  have hr' : r ∈ session.ring.keys := by
    rw [← hsaved.keys]
    exact hr
  rcases hsession.fingerprints r hr' fp hfp with hstart | ⟨salt, serial, hsalt, hmade⟩
  · exact .inl hstart
  · exact .inr ⟨salt, serial, hsaved.salt salt hsalt, hmade⟩

/-! ### Edits -/

theorem setName_ring (fresh : Except KeyringError Salt) (ring : Ring) (serial name : RustStr)
    (store : NameStore) (info : RecordMeta) :
    (ring.setName h fresh serial name store info).2 = ring ∨
      (ring.setName h fresh serial name store info).2 =
        { (ring.ensureSalt fresh).2 with
          keys := (ring.setName h fresh serial name store info).2.keys } := by
  rw [Ring.setName]
  split
  · exact .inl rfl
  split
  · exact .inl rfl
  right
  split
  · rename_i k ring' hensure
    rw [hensure]
  · rename_i salt ring' hensure
    dsimp only
    rw [hensure]
    split
    · rfl
    · split
      · rfl
      · rfl

theorem recordFirstSeen_ring (fresh : Except KeyringError Salt) (ring : Ring)
    (serial name : RustStr) :
    (ring.recordFirstSeen h fresh serial name).2 = ring ∨
      (ring.recordFirstSeen h fresh serial name).2 =
        { (ring.ensureSalt fresh).2 with
          keys := (ring.recordFirstSeen h fresh serial name).2.keys } := by
  rw [Ring.recordFirstSeen]
  split
  · exact .inl rfl
  split
  · exact .inl rfl
  right
  split
  · rename_i k ring' hensure
    rw [hensure]
  · rename_i salt ring' hensure
    rw [hensure]

/-- An edit works on the ring as it is, or with its salt ensured, and the records it adds
have that ring's fingerprints. -/
theorem apply_cases (edit : NameEdit) (ring : Ring) :
    ∃ mid keys, (mid = ring ∨ ∃ fresh, mid = (ring.ensureSalt fresh).2) ∧
      edit.apply h ring = { mid with keys } ∧
      ∀ r ∈ keys, r ∈ ring.keys ∨ ∃ serial, r.fingerprint = mid.fingerprintOf h serial := by
  cases edit with
  | setName fresh serial name store info =>
      rcases setName_ring (h := h) fresh ring serial name store info with hring | hring
      · exact ⟨ring, ring.keys, .inl rfl, hring, fun r hr => .inl hr⟩
      · refine ⟨_, _, .inr ⟨fresh, rfl⟩, hring, ?_⟩
        intro r hr
        rcases Ring.setName_cases h fresh ring serial name store info with
          ⟨e, -, hkeys⟩ | ⟨fp, record, front, back, -, hfp, hset⟩
        · exact .inl (hkeys ▸ hr)
        · rw [hset.keys, List.mem_append, List.mem_cons, or_left_comm, ← List.mem_append,
            hset.kept] at hr
          rcases hr with rfl | hr
          · exact .inr ⟨serial, hset.hfingerprint.trans hfp.symm⟩
          · exact .inl (List.mem_of_mem_filter hr)
  | recordFirstSeen fresh serial name =>
      rcases recordFirstSeen_ring (h := h) fresh ring serial name with hring | hring
      · exact ⟨ring, ring.keys, .inl rfl, hring, fun r hr => .inl hr⟩
      · refine ⟨_, _, .inr ⟨fresh, rfl⟩, hring, ?_⟩
        intro r hr
        rcases Ring.recordFirstSeen_cases h fresh ring serial name with
          ⟨-, hkeys⟩ | ⟨fp, record, -, hfp, -, -, -, hrecord, hkeys⟩
        · exact .inl (hkeys ▸ hr)
        · rw [hkeys, List.mem_append, List.mem_singleton] at hr
          rcases hr with hr | rfl
          · exact .inl hr
          · exact .inr ⟨serial, hrecord.trans hfp.symm⟩
  | dropStaleKeyRecords serial current =>
      exact ⟨ring, _, .inl rfl, rfl, fun r hr => .inl (List.mem_of_mem_filter hr)⟩
  | clearKey serial =>
      exact ⟨ring, _, .inl rfl, rfl, fun r hr => .inl (List.mem_of_mem_filter hr)⟩
  | remove name =>
      rw [NameEdit.apply, Ring.remove]
      split
      · exact ⟨ring, ring.keys, .inl rfl, rfl, fun r hr => .inl hr⟩
      · exact ⟨ring, _, .inl rfl, rfl, fun r hr => .inl (List.mem_of_mem_eraseIdx hr)⟩

theorem SessionOk.edit {session : Session} (hsession : SessionOk serde h start d session)
    (edit : NameEdit) :
    SessionOk serde h start d { session with ring := edit.apply h session.ring } := by
  obtain ⟨mid, keys, hmid, hring, hkeys⟩ := apply_cases (h := h) edit session.ring
  have hkept : SaltKept session.ring { mid with keys := session.ring.keys } ∧
      Persisted mid (d .salt) := by
    rcases hmid with rfl | ⟨fresh, rfl⟩
    · exact ⟨⟨rfl, rfl, fun _ => id⟩, hsession.persisted⟩
    · rcases hensure : session.ring.ensureSalt fresh with ⟨r, mid⟩
      obtain ⟨hkept, hpersisted, -⟩ := ensureSalt_kept hensure hsession.persisted
      exact ⟨⟨rfl, hkept.origin, hkept.salt⟩, hpersisted⟩
  obtain ⟨hkept, hpersisted⟩ := hkept
  refine ⟨?_, ?_, ?_⟩
  · intro r hr fp hfp
    dsimp only at hr ⊢
    rw [hring] at hr ⊢
    rcases hkeys r hr with hold | ⟨serial, hserial⟩
    · rcases hsession.fingerprints r hold fp hfp with hstart | ⟨salt, serial, hsalt, hmade⟩
      · exact .inl hstart
      · exact .inr ⟨salt, serial, hkept.salt salt hsalt, hmade⟩
    · rw [hserial, Ring.fingerprintOf] at hfp
      split at hfp
      · cases hfp
      · obtain ⟨salt, hsalt, hmade⟩ := Option.map_eq_some_iff.mp hfp
        exact .inr ⟨salt, serial, hsalt, hmade.symm⟩
  · intro hsaved
    change (edit.apply h session.ring).saltPersisted = true at hsaved
    change ∃ salt, (edit.apply h session.ring).salt = some salt ∧ _
    rw [hring] at hsaved ⊢
    exact hpersisted hsaved
  · intro horigin
    change (edit.apply h session.ring).origin = _ at horigin
    rw [hring] at horigin
    exact hsession.pending (hkept.origin ▸ horigin)

/-! ### Actions -/

/-- What one action does to the invariant, and to the files on the way: the invariant holds when it
ends, each step of the files is a careful one, and at each of them the names are kept that were owed
before or that are owed afterwards. -/
structure Preserved (serde : Serde) (h : Hasher) (start : Disk File) (σ : System)
    (action : Action) : Prop where
  inv : Inv serde h start (σ.act serde h action).1
  careful : (σ.disk :: (σ.act serde h action).2).IsChain (Careful serde h σ action)
  kept : ∀ d ∈ σ.disk :: (σ.act serde h action).2,
    Kept serde h start σ.owed d ∨ Kept serde h start (σ.act serde h action).1.owed d

/-- An action that works on no file. -/
theorem preserved_of_memory {σ : System} {action : Action} {sessions : List Session}
    (hσ : Inv serde h start σ) (hact : σ.act serde h action = ({ σ with sessions }, []))
    (hsessions : ∀ session ∈ sessions, SessionOk serde h start σ.disk session) :
    Preserved serde h start σ action := by
  refine ⟨?_, ?_, ?_⟩
  · rw [hact]
    exact ⟨hσ.files, hsessions⟩
  · rw [hact]
    exact .singleton σ.disk
  · rw [hact]
    intro d hd
    obtain rfl := List.mem_singleton.mp hd
    exact .inl hσ.files.kept

theorem load_preserved (hserde : serde.Lawful) {σ : System} (hσ : Inv serde h start σ)
    (fresh : Except KeyringError Salt) (fates : List Fate) :
    Preserved serde h start σ (.load fresh fates) := by
  obtain ⟨hchain, hout⟩ := loadFrom_proceeds serde h σ.disk fresh fates
  have hwithin := forall_of_isChain hchain (fun _ _ hmove => Within.step hmove)
    (Within.start (loadLaw serde h σ.disk))
  have hlast : Within (loadLaw serde h σ.disk)
      ((loadFrom serde h fresh fates σ.disk).last σ.disk) :=
    hwithin _ List.getLastD_mem_cons
  have hsessions : ∀ session ∈ σ.sessions, SessionOk serde h start
      ((loadFrom serde h fresh fates σ.disk).last σ.disk) session :=
    fun session hsession => (hσ.sessions session hsession).mono hlast.salt
  refine ⟨?_, hchain.imp fun _ _ hmove => load_careful hmove, ?_⟩
  · have hfiles := hσ.files.load hserde hlast
    rw [System.act]
    rcases hrun : (loadFrom serde h fresh fates σ.disk).out with _ | ⟨k | ring, rest⟩
    · exact ⟨hfiles, fun _ hmem => nomatch hmem⟩
    · exact ⟨hfiles, hsessions⟩
    · refine ⟨hfiles, ?_⟩
      intro session hmem
      rcases List.mem_append.mp hmem with hmem | hmem
      · exact hsessions session hmem
      · obtain rfl := List.mem_singleton.mp hmem
        exact (hout _ rest hrun ring rfl).session hσ.files
  · intro d hd
    exact .inl (hσ.files.load hserde (hwithin d hd)).kept

/-- Once the file of a save is in place, it stays there. -/
theorem placed_step {ring : Ring} {σ : System} (hmove : Moves (saveLaw serde ring σ.disk) d e)
    (hplaced : System.placed serde d ring = true) : System.placed serde e ring = true := by
  obtain ⟨bytes, hbytes, hfile⟩ := placed_iff.mp hplaced
  refine placed_iff.mpr ?_
  cases hmove with
  | scratch honly => exact ⟨bytes, (honly .keys (by decide)).trans hbytes, hfile⟩
  | salt honly _ _ => exact ⟨bytes, (honly .keys (by decide)).trans hbytes, hfile⟩
  | backup honly _ => exact ⟨bytes, (honly .keys (by decide)).trans hbytes, hfile⟩
  | place bytes' hplaced' _ _ _ hlaw => exact ⟨bytes', hplaced', hlaw.2.1⟩

theorem saved_disk (σ : System) (disk : Disk File) (i : Nat) (session : Session)
    (out : Option ((Reply Unit × Ring) × List Fate)) :
    (σ.saved serde disk i session out).disk = disk := by
  rcases out with _ | ⟨⟨r, ring⟩, rest⟩
  · rfl
  · rfl

/-- A save that completed has put its file in place. -/
theorem saved_owed {σ : System} {disk : Disk File} {i : Nat} {session : Session}
    {out : Option ((Reply Unit × Ring) × List Fate)}
    (hout : ∀ a rest, out = some (a, rest) → Saved serde session.ring a disk) :
    (σ.saved serde disk i session out).owed =
      if System.placed serde disk session.ring then session.ring.names else σ.owed := by
  rcases out with _ | ⟨⟨r, ring⟩, rest⟩
  · rfl
  · change (if r = .ok () ∨ System.placed serde disk session.ring = true then _ else _) = _
    by_cases hplaced : System.placed serde disk session.ring = true
    · rw [if_pos (.inr hplaced), if_pos hplaced]
    · rw [if_neg, if_neg hplaced]
      rintro (hr | hr)
      · exact hplaced (placed_iff.mpr ((hout _ rest rfl).placed hr))
      · exact hplaced hr

theorem save_preserved (hserde : serde.Lawful) {σ : System} (hσ : Inv serde h start σ)
    {i : Nat} {session : Session} (hi : σ.sessions[i]? = some session)
    (fresh : Except KeyringError Salt) (fates : List Fate) :
    Preserved serde h start σ (.save i fresh fates) := by
  have hsession := hσ.sessions session (List.mem_of_getElem? hi)
  obtain ⟨hchain, hout⟩ := saveTo_proceeds serde fresh hsession.persisted fates
  have hwithin := forall_of_isChain hchain (fun _ _ hmove => Within.step hmove)
    (Within.start (saveLaw serde session.ring σ.disk))
  have hsaved := fun d hd => hσ.files.save hserde hsession (hwithin d hd)
  have hact : σ.act serde h (.save i fresh fates) =
      (σ.saved serde ((session.ring.saveTo serde fresh fates σ.disk).last σ.disk) i session
        (session.ring.saveTo serde fresh fates σ.disk).out,
        (session.ring.saveTo serde fresh fates σ.disk).trace) := by
    rw [System.act, hi]
  have hlast : (session.ring.saveTo serde fresh fates σ.disk).last σ.disk ∈
      σ.disk :: (session.ring.saveTo serde fresh fates σ.disk).trace := List.getLastD_mem_cons
  have hsessions : ∀ s ∈ σ.sessions, SessionOk serde h start
      ((session.ring.saveTo serde fresh fates σ.disk).last σ.disk) s :=
    fun s hs => (hσ.sessions s hs).mono (hwithin _ hlast).salt
  have howed := saved_owed (σ := σ) (i := i) hout
  refine ⟨⟨?_, ?_⟩, ?_, ?_⟩
  · rw [hact, saved_disk, howed]
    exact hsaved _ hlast
  · rw [hact, saved_disk]
    rcases hrun : (session.ring.saveTo serde fresh fates σ.disk).out with _ | ⟨out, rest⟩
    · exact fun _ hmem => nomatch hmem
    · intro s hs
      rcases List.mem_or_eq_of_mem_set hs with hs | rfl
      · exact hsessions s hs
      · exact (hout out rest hrun).session hsession
  · rw [hact]
    exact hchain.imp fun _ _ hmove => save_careful hi hσ.files hsession hmove
  · rw [hact, howed]
    intro d hd
    have hd' := (hsaved d hd).kept
    by_cases hplaced : System.placed serde d session.ring = true
    · have hend := last_of_isChain hchain (fun _ _ hmove => placed_step hmove) hd hplaced
      rw [if_pos hplaced] at hd'
      rw [Run.last, if_pos hend]
      exact .inr hd'
    · rw [if_neg hplaced] at hd'
      exact .inl hd'

theorem act_preserved (hserde : serde.Lawful) {σ : System} (hσ : Inv serde h start σ)
    (action : Action) : Preserved serde h start σ action := by
  cases action with
  | load fresh fates => exact load_preserved hserde hσ fresh fates
  | new =>
      refine preserved_of_memory hσ rfl ?_
      intro session hmem
      rcases List.mem_append.mp hmem with hmem | hmem
      · exact hσ.sessions session hmem
      · obtain rfl := List.mem_singleton.mp hmem
        exact ⟨(fun _ hr => nomatch hr), (fun hsaved => nomatch hsaved),
          fun horigin => nomatch horigin⟩
  | edit i edit =>
      rcases hi : σ.sessions[i]? with _ | session
      · have hact : σ.act serde h (.edit i edit) = (σ, []) := by rw [System.act, hi]
        exact preserved_of_memory hσ hact hσ.sessions
      · refine preserved_of_memory hσ (by rw [System.act, hi]) ?_
        intro s hs
        rcases List.mem_or_eq_of_mem_set hs with hs | rfl
        · exact hσ.sessions s hs
        · exact (hσ.sessions session (List.mem_of_getElem? hi)).edit edit
  | save i fresh fates =>
      rcases hi : σ.sessions[i]? with _ | session
      · have hact : σ.act serde h (.save i fresh fates) = (σ, []) := by rw [System.act, hi]
        exact preserved_of_memory hσ hact hσ.sessions
      · exact save_preserved hserde hσ hi fresh fates
  | exit => exact preserved_of_memory hσ rfl fun _ hmem => nomatch hmem

theorem run_inv (hserde : serde.Lawful) (actions : List Action) {σ : System}
    (hσ : Inv serde h start σ) : Inv serde h start (σ.run serde h actions) := by
  induction actions generalizing σ with
  | nil => exact hσ
  | cons action actions ih => exact ih (act_preserved hserde hσ action).inv

theorem start_inv : Inv serde h start (System.start serde start) := by
  refine ⟨⟨fun _ => id, fun _ hfp => .inl hfp, fun _ => rfl, .inl rfl⟩, ?_⟩
  exact fun _ hmem => nomatch hmem

end Proof

/-- **The keyring is never lost.** After any actions the names last put in place are in
`keys.json`, or its backup, with the salt of every fingerprint that was not there from the
start; at every point of one more action they still are, or those that this action puts in
place; and each file operation of it replaces only what it may and removes the backup only
where it may. -/
theorem keyring_kept (serde : Serde) (hserde : serde.Lawful) (h : Hasher) (start : Disk File)
    (actions : List Action) (action : Action) :
    let σ := (System.start serde start).run serde h actions
    Kept serde h start σ.owed σ.disk ∧
    (∀ d ∈ (σ.act serde h action).2, Kept serde h start σ.owed d ∨
      Kept serde h start (σ.act serde h action).1.owed d) ∧
    (σ.disk :: (σ.act serde h action).2).IsChain (Careful serde h σ action) := by
  intro σ
  have hσ : Inv serde h start σ := run_inv hserde actions start_inv
  have hact := act_preserved hserde hσ action
  exact ⟨hσ.files.kept, fun d hd => hact.kept d (List.mem_cons_of_mem _ hd), hact.careful⟩

/-! ### A converted ring whose save is cut off -/

def sampleV1 : RustStr := "\x7b\"keys\":[\x7b\"name\":\"a\",\"serial\":\"\"\x7d]\x7d".toList

/-- A name with a bell in it. -/
def sampleBell : RustStr :=
  "\x7b\"keys\":[\x7b\"name\":\"a\\u0007\",\"serial\":\"\"\x7d]\x7d".toList

/-- A fingerprint, in a directory that may hold no salt. -/
def sampleForeign : RustStr :=
  ("\x7b\"version\":2,\"keys\":[\x7b\"name\":\"a\",\"fingerprint\":\"x\"," ++
    "\"stored\":\"key\"\x7d]\x7d").toList

def sampleEmpty : RustStr := "\x7b\n  \"version\": 2,\n  \"keys\": []\n\x7d".toList

def sampleOne : RustStr :=
  ("\x7b\n  \"version\": 2,\n  \"keys\": [\n    \x7b\n      \"name\": \"a\",\n" ++
    "      \"fingerprint\": null,\n      \"stored\": \"computer\",\n" ++
    "      \"source\": \"usb\"\n    \x7d\n  ]\n\x7d").toList

def sampleFields (fields : List (String × Value)) : Value :=
  .object (fields.map fun field => (field.1.toList, field.2))

def sampleEntry (name : RustStr) : Value :=
  sampleFields [("name", .string name), ("serial", .string [])]

def sampleStored (fp : Value) (stored : String) : Value :=
  sampleFields [("fingerprint", fp), ("name", .string ['a']), ("stored", .string stored.toList)]

def sampleFile (records : List Value) : Value :=
  sampleFields [("keys", .array records), ("version", .number (some 2))]

def sampleTexts : List RustStr :=
  [sampleV1, sampleBell, sampleForeign, sampleEmpty ++ ['\n'], sampleOne ++ ['\n']]

def sampleValues : List Value :=
  [sampleFields [("keys", .array [sampleEntry ['a']])],
    sampleFields [("keys", .array [sampleEntry ['a', '\x07']])],
    sampleFile [sampleStored (.string ['x']) "key"], sampleFile [],
    sampleFile [sampleStored .null "computer"]]

def sampleError : JsonError := { category := .data, line := 1, column := 1 }

def readRecord (value : Value) : Except JsonError KeyRecord :=
  match value.get "name".toList, value.get "fingerprint".toList, value.get "stored".toList with
  | some (.string name), some fp, some (.string stored) =>
      .ok { name
            fingerprint := match fp with
              | .string text => some ⟨text⟩
              | _ => none
            stored := if stored = "key".toList then .key else .computer
            source := .usb, vendor := none, aaguid := none, note := none }
  | _, _, _ => .error sampleError

def readEntry (value : Value) : Except JsonError EntryV1 :=
  match value.get "name".toList, value.get "serial".toList with
  | some (.string name), some (.string serial) =>
      .ok { name, serial, source := .usb, vendor := none, aaguid := none, note := none }
  | _, _ => .error sampleError

/-- The texts of this example, each with what it stands for. -/
def sampleSerde : Serde where
  fromStr text :=
    match sampleValues[sampleTexts.idxOf text]? with
    | some value => .ok value
    | none => .error sampleError
  toStringPretty file :=
    if file = ⟨2, []⟩ then .ok sampleEmpty
    else if file = ⟨2, [⟨['a'], none, .computer, .usb, none, none, none⟩]⟩ then .ok sampleOne
    else .error sampleError
  fileIn value :=
    match value.get "keys".toList with
    | some (.array items) => (items.mapM readRecord).map FileIn.mk
    | _ => .error sampleError
  fileV1 value :=
    match value.get "keys".toList with
    | some (.array items) => (items.mapM readEntry).map FileV1.mk
    | _ => .error sampleError

theorem sampleSerde_fromStr {text : RustStr} {i : Nat} {value : Value}
    (hindex : sampleTexts.idxOf text = i) (hvalue : sampleValues[i]? = some value) :
    sampleSerde.fromStr text = .ok value := by
  change (match sampleValues[sampleTexts.idxOf text]? with
    | some value => Except.ok value
    | none => .error sampleError) = _
  rw [hindex, hvalue]

theorem toList_append_of {s t : String} {l m : List Char} (hs : s.toList = l)
    (ht : t.toList = m) : (s ++ t).toList = l ++ m := by
  rw [String.toList_append, hs, ht]

-- The characters of a literal are found by unification; evaluating `toList` takes far longer.
theorem sampleTexts_idxOf : sampleTexts.idxOf (sampleEmpty ++ ['\n']) = 3 ∧
    sampleTexts.idxOf (sampleOne ++ ['\n']) = 4 := by
  have hV1 : sampleV1 = _ := String.toList_ofList
  have hBell : sampleBell = _ := String.toList_ofList
  have hForeign : sampleForeign = _ :=
    toList_append_of String.toList_ofList String.toList_ofList
  have hEmpty : sampleEmpty = _ := String.toList_ofList
  have hOne : sampleOne = _ := toList_append_of
    (toList_append_of String.toList_ofList String.toList_ofList) String.toList_ofList
  rw [sampleTexts, hV1, hBell, hForeign, hEmpty, hOne]
  decide

theorem sampleSerde_lawful : sampleSerde.Lawful := by
  refine ⟨?_⟩
  intro file text hwritten
  change (if _ then _ else if _ then _ else _) = _ at hwritten
  split at hwritten
  · rename_i hfile
    rw [hfile, ← Except.ok.inj hwritten]
    exact ⟨sampleFile [], sampleSerde_fromStr sampleTexts_idxOf.1 rfl, rfl, rfl⟩
  · split at hwritten
    · rename_i hfile
      rw [hfile, ← Except.ok.inj hwritten]
      exact ⟨sampleFile [sampleStored .null "computer"],
        sampleSerde_fromStr sampleTexts_idxOf.2 rfl, rfl, rfl⟩
    · cases hwritten

def sampleDisk (text : RustStr) : Disk File
  | .keys => some (RustStr.asBytes text)
  | _ => none

/-- Convert the file, remove its name and save, cut off right after the rename. -/
def sampleCut : List Action :=
  [.load (.ok NameEdit.sampleSalt) [], .edit 0 (.remove ['a']),
    .save 0 (.ok NameEdit.sampleSalt) (List.replicate 6 .done ++ [.crashed 1])]

theorem sample_keyring_kept :
    Kept sampleSerde NameEdit.sampleHasher (sampleDisk sampleV1)
      ((System.start sampleSerde (sampleDisk sampleV1)).run sampleSerde NameEdit.sampleHasher
        sampleCut).owed
      ((System.start sampleSerde (sampleDisk sampleV1)).run sampleSerde NameEdit.sampleHasher
        sampleCut).disk :=
  (keyring_kept sampleSerde sampleSerde_lawful NameEdit.sampleHasher (sampleDisk sampleV1)
    sampleCut .exit).1

/-- The state after a load of the file. -/
def sampleLoaded (text : RustStr) (fates : List Fate) : System × List (Disk File) :=
  (System.start sampleSerde (sampleDisk text)).act sampleSerde NameEdit.sampleHasher
    (.load (.ok NameEdit.sampleSalt) fates)

/-- The only name of a version 1 file is gone after a save that did not complete; a name with
a bell is cleaned when it is converted; a fingerprint can be there from the start without a
salt; and a conversion that cannot write the new file removes the backup while `keys.json`
holds the version 1 file. -/
theorem not_literally_kept :
    (['a'] ∈ namesIn sampleSerde (sampleDisk sampleV1 .keys) ∧
      ['a'] ∉ namesIn sampleSerde (((System.start sampleSerde (sampleDisk sampleV1)).run
        sampleSerde NameEdit.sampleHasher sampleCut).disk .keys) ∧
      ['a'] ∉ namesIn sampleSerde (((System.start sampleSerde (sampleDisk sampleV1)).run
        sampleSerde NameEdit.sampleHasher sampleCut).disk .backup)) ∧
    (contents sampleSerde (sampleDisk sampleBell .keys) =
        some (.v1 ⟨[⟨['a', '\x07'], [], .usb, none, none, none⟩]⟩) ∧
      ((sampleLoaded sampleBell []).1.disk .keys = some (fileBytes sampleOne) ∧
        (sampleLoaded sampleBell []).1.disk .backup = none)) ∧
    (fingerprintsIn sampleSerde (sampleDisk sampleForeign .keys) = [⟨['x']⟩] ∧
      sampleDisk sampleForeign .salt = none) ∧
    ((sampleLoaded sampleV1 (List.replicate 11 .done ++ [.failed 0])).2[12]?.map fun d =>
        (d .keys, d .backup)) =
      some (some (RustStr.asBytes sampleV1), some (RustStr.asBytes sampleV1)) ∧
    ((sampleLoaded sampleV1 (List.replicate 11 .done ++ [.failed 0])).2[13]?.map fun d =>
        (d .keys, d .backup)) =
      some (some (RustStr.asBytes sampleV1), none) := by
  have hV1 : sampleV1 = _ := String.toList_ofList
  have hBell : sampleBell = _ := String.toList_ofList
  have hForeign : sampleForeign = _ :=
    toList_append_of String.toList_ofList String.toList_ofList
  have hEmpty : sampleEmpty = _ := String.toList_ofList
  have hOne : sampleOne = _ := toList_append_of
    (toList_append_of String.toList_ofList String.toList_ofList) String.toList_ofList
  simp only [sampleLoaded, sampleSerde, sampleTexts, hV1, hBell, hForeign, hEmpty, hOne]
  decide +kernel

end Keyroost.Keyring
