import Keyroost.Keyring.Sessions

/-!
# Names and fingerprints are kept

Over every sequence of loads, edits and saves, with crashes and failures at any file operation: the
names last put in place are on disk, no fingerprint gets to the disk without its salt, and only
files that a ring has read are replaced.

`Kept` is what is promised of the files, and `Inv` the invariant that carries it: the files are
intact, and each ring in memory holds no more than they can answer for. The laws of `StoreLaws` say
what one load or save may do at each point; `Intact.load` and `Intact.save` show that the invariant
survives all of it, `load_careful` and `save_careful` that nothing is replaced or dropped without a
reason.
-/

namespace Keyroost.Keyring

open Crash

section Kept

variable (serde : Serde) (h : Hasher) (start : Disk File)

/-! ### What is kept -/

/-- A fingerprint that was on disk from the start, or is made with this salt. -/
def Backed (salt : Option Salt) (fp : Fingerprint) : Prop :=
  fp ∈ fingerprintsIn serde (start .keys) ∨
    ∃ s serial, salt = some s ∧ fp = fingerprint h s serial

/-- What the files `d` keep: every name of `owed`, the salt of every fingerprint, and the
salt that was there from the start. -/
structure Kept (owed : List RustStr) (d : Disk File) : Prop where
  names : (∀ name ∈ owed, name ∈ namesIn serde (d .keys)) ∨
    ∀ name ∈ owed, name ∈ namesIn serde (d .backup)
  fingerprints : ∀ fp ∈ fingerprintsIn serde (d .keys),
    Backed serde h start (saltIn (d .salt)) fp
  salt : start .salt ≠ none → d .salt = start .salt

/-- The action replaces version 1 bytes only as their conversion: a load those that it reads,
a save those that its ring was loaded from. -/
def Action.converts (σ : System) (content : Option (List UInt8)) : Action → Prop
  | .load _ _ => σ.disk .keys = content
  | .save i _ _ => ∃ session, σ.sessions[i]? = some session ∧
      session.ring.origin = .convertedFromV1 true ∧ session.readFrom = content
  | _ => False

/-- What an action may put another file in the place of: no file, one that it could read, or a file
of the old version where it converts that one. -/
inductive MayReplace (σ : System) (action : Action) (content : Option (List UInt8)) : Prop
  | absent (hnone : content = none)
  | v2 (file : FileIn) (hfile : contents serde content = some (.v2 file))
  | v1 (file : FileV1) (hfile : contents serde content = some (.v1 file))
      (hconverts : action.converts σ content)

/-- What `keys.json` holds when an action removes the backup: what it held before the action,
if that is no newer or damaged file, or the converted file. A save that removes it before the
converted file is in place is of a version 1 file. -/
def Action.mayDrop (σ : System) (keys : Option (List UInt8)) : Action → Prop
  | .load _ _ =>
      (keys = σ.disk .keys ∧ (keys = none ∨ ∃ format,
        contents serde keys = some format ∧ ∀ v, format ≠ .newer v)) ∨
      ∃ old salt bytes, contents serde (σ.disk .keys) = some (.v1 old) ∧ keys = some bytes ∧
        fileOf serde (convertV1 h salt old) = some bytes
  | .save i _ _ => ∃ session, σ.sessions[i]? = some session ∧
      ((keys = σ.disk .keys ∧ ∃ file, contents serde keys = some (.v1 file)) ∨
        ∃ bytes, keys = some bytes ∧ fileOf serde session.ring.keys = some bytes)
  | _ => False

/-- One file operation of an action. It replaces `keys.json` only as the action may, and it removes
a backup only when the action may drop it. -/
structure Careful (σ : System) (action : Action) (d e : Disk File) : Prop where
  keys : e .keys ≠ d .keys → MayReplace serde σ action (d .keys)
  backup : d .backup ≠ none → e .backup = none → action.mayDrop serde h σ (d .keys)

/-! ### Invariants -/

structure Intact (owed : List RustStr) (d : Disk File) : Prop where
  names : ∀ name ∈ owed, name ∈ namesIn serde (d .keys)
  fingerprints : ∀ fp ∈ fingerprintsIn serde (d .keys),
    Backed serde h start (saltIn (d .salt)) fp
  salt : start .salt ≠ none → d .salt = start .salt
  form : d .keys = start .keys ∨ ∃ file, contents serde (d .keys) = some (.v2 file)

structure SessionOk (d : Disk File) (session : Session) : Prop where
  fingerprints : ∀ r ∈ session.ring.keys, ∀ fp, r.fingerprint = some fp →
    Backed serde h start session.ring.salt fp
  persisted : Persisted session.ring (d .salt)
  pending : session.ring.origin = .convertedFromV1 true → session.readFrom = start .keys

structure Inv (σ : System) : Prop where
  files : Intact serde h start σ.owed σ.disk
  sessions : ∀ session ∈ σ.sessions, SessionOk serde h start σ.disk session

end Kept

section Proof

variable {serde : Serde} {h : Hasher} {start d e : Disk File} {owed : List RustStr}

theorem Intact.kept (hd : Intact serde h start owed d) : Kept serde h start owed d :=
  ⟨.inl hd.names, hd.fingerprints, hd.salt⟩

theorem Backed.mono {fp : Fingerprint} (hsalt : d .salt ≠ none → e .salt = d .salt)
    (hfp : Backed serde h start (saltIn (d .salt)) fp) :
    Backed serde h start (saltIn (e .salt)) fp := by
  rcases hfp with hstart | ⟨s, serial, hs, hfp⟩
  · exact .inl hstart
  · refine .inr ⟨s, serial, ?_, hfp⟩
    rw [hsalt, hs]
    intro hnone
    rw [hnone] at hs
    cases hs

/-- The files at a point of an action where `keys.json` is as before the action. -/
theorem Intact.same (hd : Intact serde h start owed d) (hkeys : e .keys = d .keys)
    (hsalt : d .salt ≠ none → e .salt = d .salt) : Intact serde h start owed e := by
  refine ⟨?_, ?_, ?_, ?_⟩
  · rw [hkeys]
    exact hd.names
  · rw [hkeys]
    intro fp hfp
    exact (hd.fingerprints fp hfp).mono hsalt
  · intro hstart
    have hdsalt := hd.salt hstart
    rw [hsalt (hdsalt ▸ hstart), hdsalt]
  · rw [hkeys]
    exact hd.form

/-- The files at a point of an action where a new file is in place. -/
theorem Intact.placed (hserde : serde.Lawful) (hd : Intact serde h start owed d)
    {keys : List KeyRecord} {bytes : List UInt8} (hkeys : e .keys = some bytes)
    (hfile : fileOf serde keys = some bytes) (hsalt : d .salt ≠ none → e .salt = d .salt)
    (hfps : ∀ r ∈ keys, ∀ fp, r.fingerprint = some fp →
      Backed serde h start (saltIn (e .salt)) fp) :
    Intact serde h start (keys.map (·.name)) e := by
  have hcontents : contents serde (e .keys) = some (.v2 { keys }) := by
    rw [hkeys]
    exact contents_fileOf hserde hfile
  refine ⟨?_, ?_, ?_, .inr ⟨_, hcontents⟩⟩
  · rw [namesIn, hcontents]
    exact fun _ => id
  · rw [fingerprintsIn, hcontents]
    intro fp hfp
    obtain ⟨r, hr, hrfp⟩ := List.mem_filterMap.mp hfp
    exact hfps r hr fp hrfp
  · intro hstart
    have hdsalt := hd.salt hstart
    rw [hsalt (hdsalt ▸ hstart), hdsalt]

theorem Intact.imp {owed' : List RustStr} (hd : Intact serde h start owed d)
    (hnames : ∀ name ∈ owed', name ∈ owed) : Intact serde h start owed' d :=
  ⟨fun name hname => hd.names name (hnames name hname), hd.fingerprints, hd.salt, hd.form⟩

/-! ### Load -/

theorem names_convertV1 (h : Hasher) (salt : Salt) (old : FileV1) :
    (convertV1 h salt old).map (·.name) = old.keys.map fun e => stripControlChars e.name := by
  rw [convertV1, List.map_map]
  rfl

theorem Intact.load (hserde : serde.Lawful) (hd : Intact serde h start owed d)
    (he : Within (loadLaw serde h d) e) : Intact serde h start owed e := by
  rcases he.keys with hkeys | ⟨bytes, hkeys, old, salt, hold, hin, hfile⟩
  · exact hd.same hkeys he.salt
  · have hplaced := hd.placed hserde hkeys hfile he.salt (by
      intro r hr fp hfp
      obtain ⟨serial, hserial⟩ := fingerprint_of_mem_convertV1 hr hfp
      exact .inr ⟨salt, serial, hin, hserial⟩)
    refine hplaced.imp ?_
    intro name hname
    have hheld := hd.names name hname
    rw [namesIn, hold] at hheld
    rw [names_convertV1]
    exact hheld

theorem load_careful {σ : System} {fresh : Except KeyringError Salt} {fates : List Fate}
    (hmove : Moves (loadLaw serde h σ.disk) d e) :
    Careful serde h σ (.load fresh fates) d e := by
  cases hmove with
  | scratch honly =>
      refine ⟨fun hkeys => absurd (honly .keys (by decide)) hkeys, ?_⟩
      intro hsome hnone
      rw [honly .backup (by decide)] at hnone
      exact absurd hnone hsome
  | salt honly hnew hkeys =>
      refine ⟨fun hkeys => absurd (honly .keys (by decide)) hkeys, ?_⟩
      intro hsome hnone
      rw [honly .backup (by decide)] at hnone
      exact absurd hnone hsome
  | backup honly hdrop =>
      refine ⟨fun hkeys => absurd (honly .keys (by decide)) hkeys, ?_⟩
      intro hsome hnone
      rcases hdrop hsome hnone with ⟨hkeys, hread⟩ | hconverted
      · exact .inl ⟨hkeys, hkeys ▸ hread⟩
      · exact .inr hconverted
  | place bytes hplaced hsalt hbackup hkeys hlaw =>
      obtain ⟨old, salt, hold, -, -⟩ := hlaw
      refine ⟨?_, ?_⟩
      · intro _
        have hkeys' : d .keys = σ.disk .keys := hkeys
        exact .v1 old (hkeys' ▸ hold) hkeys'.symm
      · intro hsome hnone
        rw [hbackup] at hnone
        exact absurd hnone hsome

/-! ### Save -/

theorem placed_iff {ring : Ring} : System.placed serde d ring = true ↔
    ∃ bytes, d .keys = some bytes ∧ fileOf serde ring.keys = some bytes := by
  rw [System.placed, Bool.and_eq_true, decide_eq_true_iff, Option.isSome_iff_exists]
  constructor
  · rintro ⟨⟨bytes, hbytes⟩, hfile⟩
    exact ⟨bytes, hbytes, hfile ▸ hbytes⟩
  · rintro ⟨bytes, hbytes, hfile⟩
    exact ⟨⟨bytes, hbytes⟩, hbytes.trans hfile.symm⟩

theorem Intact.save (hserde : serde.Lawful) {session : Session}
    (hd : Intact serde h start owed d) (hsession : SessionOk serde h start d session)
    (he : Within (saveLaw serde session.ring d) e) :
    Intact serde h start
      (if System.placed serde e session.ring then session.ring.names else owed) e := by
  split
  · rename_i hplaced
    obtain ⟨bytes, hbytes, hfile⟩ := placed_iff.mp hplaced
    rcases he.keys with hkeys | ⟨bytes', hkeys, -, -, salt, hin, hsalt⟩
    · have hsame := hd.same hkeys he.salt
      refine ⟨?_, hsame.fingerprints, hsame.salt, hsame.form⟩
      rw [namesIn, hbytes, contents_fileOf hserde hfile]
      exact fun _ => id
    · refine hd.placed hserde hbytes hfile he.salt ?_
      intro r hr fp hfp
      rcases hsession.fingerprints r hr fp hfp with hstart | ⟨s, serial, hs, hmade⟩
      · exact .inl hstart
      · exact .inr ⟨s, serial, hsalt s hs ▸ hin, hmade⟩
  · rename_i hplaced
    rcases he.keys with hkeys | ⟨bytes, hkeys, -, hfile, -⟩
    · exact hd.same hkeys he.salt
    · exact absurd (placed_iff.mpr ⟨bytes, hkeys, hfile⟩) hplaced

theorem save_careful {σ : System} {i : Nat} {fresh : Except KeyringError Salt}
    {fates : List Fate} {session : Session} (hi : σ.sessions[i]? = some session)
    (hfiles : Intact serde h start σ.owed σ.disk)
    (hsession : SessionOk serde h start σ.disk session)
    (hmove : Moves (saveLaw serde session.ring σ.disk) d e) :
    Careful serde h σ (.save i fresh fates) d e := by
  cases hmove with
  | scratch honly =>
      refine ⟨fun hkeys => absurd (honly .keys (by decide)) hkeys, ?_⟩
      intro hsome hnone
      rw [honly .backup (by decide)] at hnone
      exact absurd hnone hsome
  | salt honly hnew hkeys =>
      refine ⟨fun hkeys => absurd (honly .keys (by decide)) hkeys, ?_⟩
      intro hsome hnone
      rw [honly .backup (by decide)] at hnone
      exact absurd hnone hsome
  | backup honly hdrop =>
      refine ⟨fun hkeys => absurd (honly .keys (by decide)) hkeys, ?_⟩
      intro hsome hnone
      rcases hdrop hsome hnone with ⟨hkeys, -, hv1⟩ | hconverted
      · exact ⟨session, hi, .inl ⟨hkeys, hkeys ▸ hv1⟩⟩
      · exact ⟨session, hi, .inr hconverted⟩
  | place bytes hplaced hsalt hbackup hkeys hlaw =>
      have hkeys' : d .keys = σ.disk .keys := hkeys
      refine ⟨?_, ?_⟩
      · intro _
        rw [hkeys']
        cases hlaw.1 with
        | absent hnone => exact .absent hnone
        | v2 file hfile => exact .v2 file hfile
        | v1 file hfile horigin =>
            refine .v1 file hfile ⟨session, hi, horigin, ?_⟩
            rcases hfiles.form with hstart | ⟨file', hfile'⟩
            · rw [hsession.pending horigin, hstart]
            · change contents serde (σ.disk .keys) = _ at hfile
              rw [hfile'] at hfile
              cases hfile
      · intro hsome hnone
        rw [hbackup] at hnone
        exact absurd hnone hsome

end Proof

end Keyroost.Keyring
