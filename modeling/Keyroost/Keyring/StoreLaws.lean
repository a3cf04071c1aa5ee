import Keyroost.Keyring.StoreMoves

/-!
# What one load or save may do

The law of a load and the law of a save, and that the programs of `Store` keep them: when they may
put a file in the place of `keys.json`, what that file is, and when they may remove the backup.

A law speaks of every file operation and not only of the end, so it also covers a program that is
cut off. `loadFrom_proceeds` and `saveTo_proceeds` are proved with the rules of `Crash` from the
lemmas on the functions they call, in the order of the source. Their results (`Loaded`, `Saved`)
say what the ring knows of the files when they come to an end.
-/

namespace Keyroost.Keyring

open Crash

section Laws

variable {serde : Serde} {h : Hasher}

/-! ### What the files hold -/

/-- The content of `keys.json` or its backup, as far as it is understood. -/
def contents (serde : Serde) (content : Option (List UInt8)) : Option Format :=
  content.bind fun bytes => (Utf8.fromUtf8 bytes).bind fun text => (parse serde text).toOption

def fingerprintsIn (serde : Serde) (content : Option (List UInt8)) : List Fingerprint :=
  match contents serde content with
  | some (.v2 file) => file.keys.filterMap (·.fingerprint)
  | _ => []

/-- The file that these records are written as. -/
def fileOf (serde : Serde) (keys : List KeyRecord) : Option (List UInt8) :=
  (serde.toStringPretty { version := FORMAT_VERSION, keys }).toOption.map fileBytes

theorem contents_of_parse {content : Option (List UInt8)} {bytes : List UInt8} {text : RustStr}
    {format : Format} (hbytes : content = some bytes) (htext : Utf8.fromUtf8 bytes = some text)
    (hparse : parse serde text = .ok format) : contents serde content = some format := by
  rw [contents, hbytes, Option.bind_some, htext, Option.bind_some, hparse]
  rfl

theorem fileOf_of_toJson {ring : Ring} {json : RustStr} (hjson : ring.toJson serde = .ok json) :
    fileOf serde ring.keys = some (fileBytes json) := by
  rw [Ring.toJson] at hjson
  rw [fileOf]
  split at hjson
  · cases hjson
  · rename_i text htext
    cases hjson
    rw [htext]
    rfl

/-- What is written reads back as version 2. -/
theorem contents_fileOf (hserde : serde.Lawful) {keys : List KeyRecord} {bytes : List UInt8}
    (hfile : fileOf serde keys = some bytes) :
    contents serde (some bytes) = some (.v2 { keys }) := by
  rw [fileOf, Option.map_eq_some_iff] at hfile
  obtain ⟨text, htext, rfl⟩ := hfile
  have hwritten : serde.toStringPretty { version := FORMAT_VERSION, keys } = .ok text := by
    cases hout : serde.toStringPretty { version := FORMAT_VERSION, keys } with
    | error e =>
        rw [hout] at htext
        cases htext
    | ok t =>
        rw [hout] at htext
        exact congrArg Except.ok (Option.some.inj htext)
  obtain ⟨value, hvalue, hversion, hin⟩ := hserde.reads _ text hwritten
  have hbytes : fileBytes text = RustStr.asBytes (text ++ ['\n']) := by
    rw [fileBytes, RustStr.asBytes, RustStr.asBytes, List.flatMap_append]
    rfl
  have htext' : Utf8.fromUtf8 (fileBytes text) = some (text ++ ['\n']) := by
    rw [hbytes, Utf8.fromUtf8_asBytes]
  refine contents_of_parse rfl htext' ?_
  rw [parse, hvalue]
  dsimp only
  rw [hversion]
  change (if FORMAT_VERSION = FORMAT_VERSION then _ else _) = _
  rw [if_pos rfl, hin]

/-! ### Laws -/

/-- What a ring may be saved over. A file of the old version is one only for the ring that was
converted from it. -/
inductive Replaceable (serde : Serde) (ring : Ring) (content : Option (List UInt8)) : Prop
  | absent (hnone : content = none)
  | v2 (file : FileIn) (hfile : contents serde content = some (.v2 file))
  | v1 (file : FileV1) (hfile : contents serde content = some (.v1 file))
      (horigin : ring.origin = .convertedFromV1 true)

def saveLaw (serde : Serde) (ring : Ring) (start : Disk File) : Law where
  start := start
  placing salt bytes := Replaceable serde ring (start .keys) ∧
    fileOf serde ring.keys = some bytes ∧
    ∃ s, saltIn salt = some s ∧ ∀ s', ring.salt = some s' → s' = s
  dropping keys :=
    (keys = start .keys ∧ ring.origin = .convertedFromV1 true ∧
      ∃ file, contents serde (start .keys) = some (.v1 file)) ∨
    ∃ bytes, keys = some bytes ∧ fileOf serde ring.keys = some bytes

def loadLaw (serde : Serde) (h : Hasher) (start : Disk File) : Law where
  start := start
  placing salt bytes := ∃ old s, contents serde (start .keys) = some (.v1 old) ∧
    saltIn salt = some s ∧ fileOf serde (convertV1 h s old) = some bytes
  dropping keys :=
    (keys = start .keys ∧ (start .keys = none ∨ ∃ format,
      contents serde (start .keys) = some format ∧ ∀ v, format ≠ .newer v)) ∨
    ∃ old s bytes, contents serde (start .keys) = some (.v1 old) ∧ keys = some bytes ∧
      fileOf serde (convertV1 h s old) = some bytes

/-! ### Conversion -/

variable {d : Disk File} {law : Law} {ring : Ring}

theorem removeBackup_proceeds {Q : Reply Unit → Disk File → Prop}
    (hdrop : law.dropping (d .keys)) (hQ : ∀ r e, Only .backup d e → Q r e) :
    Proceeds (Moves law) d (removeFile .backup) Q :=
  removeFile_proceeds (fun _ honly => .backup honly fun _ _ => hdrop) hQ

theorem finishConversion_proceeds {original : List UInt8}
    {Q : Reply Unit × Ring → Disk File → Prop} (hkeys : d .keys = law.start .keys)
    (hdrop : law.dropping (law.start .keys))
    (hlaw : ∀ bytes, fileOf serde ring.keys = some bytes →
      law.placing (d .salt) bytes ∧ law.dropping (some bytes))
    (hQ : ∀ r origin e, e .salt = d .salt →
      (origin = .convertedFromV1 true → ring.origin = .convertedFromV1 true) →
      (r = .ok () → ∃ bytes, e .keys = some bytes ∧ fileOf serde ring.keys = some bytes) →
      Q (r, { ring with origin }) e) :
    Proceeds (Moves law) d (ring.finishConversion serde original) Q := by
  have herror : ∀ k e, e .salt = d .salt → Q (.error k, ring) e :=
    fun k e hsalt => hQ (.error k) ring.origin e hsalt id fun hr => nomatch hr
  apply Proceeds.bind
  refine removeBackup_proceeds (hkeys ▸ hdrop) ?_
  intro _ c hcleared
  apply Proceeds.bind
  apply writeNewPrivate_proceeds
  · intro x y honly hkept
    exact .backup honly fun hsome hnone => absurd hnone (hkept hsome)
  · intro k e honly
    exact Proceeds.pure (herror k e ((hcleared.trans honly) .salt (by decide)))
  intro e honly _
  have he := hcleared.trans honly
  have hsalt : e .salt = d .salt := he .salt (by decide)
  have hsame : e .keys = law.start .keys := (he .keys (by decide)).trans hkeys
  dsimp only
  split
  · exact Proceeds.pure (herror _ e hsalt)
  rename_i json hjson
  have hfile := fileOf_of_toJson hjson
  obtain ⟨hplacing, hdropping⟩ := hlaw _ hfile
  apply Proceeds.bind
  apply writeAtomic_proceeds hsame (hsalt ▸ hplacing)
  · intro k f hfsalt hfkeys
    have hfdrop : law.dropping (f .keys) := by
      rcases hfkeys with hfkeys | hfkeys
      · rw [hfkeys, hsame]
        exact hdrop
      · rw [hfkeys]
        exact hdropping
    apply Proceeds.bind
    apply read_proceeds (Moves.refl law f)
    · intro _
      exact Proceeds.pure (herror k f (hfsalt.trans hsalt))
    · intro bytes _
      split
      · apply Proceeds.bind
        refine removeBackup_proceeds hfdrop ?_
        intro _ g hg
        exact Proceeds.pure (herror k g ((hg .salt (by decide)).trans (hfsalt.trans hsalt)))
      · exact Proceeds.pure (herror k f (hfsalt.trans hsalt))
  · intro f hfsalt hfkeys
    have hconverted : ∀ k g, g .salt = d .salt →
        Q (.error k, { ring with origin := .convertedFromV1 false }) g := by
      intro k g hgsalt
      exact hQ (.error k) _ g hgsalt (fun horigin => nomatch horigin) fun hr => nomatch hr
    have hfsalt' := hfsalt.trans hsalt
    apply Proceeds.bind
    apply read_proceeds (Moves.refl law f)
    · intro _
      exact Proceeds.pure (hconverted _ f hfsalt')
    · intro bytes _
      split
      · exact Proceeds.pure (hconverted _ f hfsalt')
      · apply Proceeds.bind
        refine removeBackup_proceeds (hfkeys ▸ hdropping) ?_
        intro r g hg
        have hgsalt : g .salt = d .salt := (hg .salt (by decide)).trans hfsalt'
        cases r with
        | error k => exact Proceeds.pure (hconverted k g hgsalt)
        | ok _ =>
            refine Proceeds.pure (hQ _ .v2 g hgsalt (fun horigin => nomatch horigin) ?_)
            intro _
            exact ⟨_, (hg .keys (by decide)).trans hfkeys, hfile⟩

/-! ### Save -/

theorem replaceFile_proceeds {Q : Reply Unit × Ring → Disk File → Prop}
    (hkeys : d .keys = law.start .keys)
    (hlaw : ∀ bytes, fileOf serde ring.keys = some bytes →
      law.placing (d .salt) bytes ∧ law.dropping (some bytes))
    (hQ : ∀ r origin e, e .salt = d .salt →
      (origin = .convertedFromV1 true → ring.origin = .convertedFromV1 true) →
      (r = .ok () → ∃ bytes, e .keys = some bytes ∧ fileOf serde ring.keys = some bytes) →
      Q (r, { ring with origin }) e) :
    Proceeds (Moves law) d (ring.replaceFile serde) Q := by
  have herror : ∀ k e, e .salt = d .salt → Q (.error k, ring) e :=
    fun k e hsalt => hQ (.error k) ring.origin e hsalt id fun hr => nomatch hr
  rw [Ring.replaceFile]
  split
  · exact Proceeds.pure (herror _ d rfl)
  rename_i json hjson
  have hfile := fileOf_of_toJson hjson
  obtain ⟨hplacing, hdropping⟩ := hlaw _ hfile
  apply Proceeds.bind
  apply writeAtomic_proceeds hkeys hplacing
  · intro k e hsalt _
    exact Proceeds.pure (herror k e hsalt)
  intro e hsalt hplaced
  dsimp only
  split
  · apply Proceeds.bind
    refine removeBackup_proceeds (hplaced ▸ hdropping) ?_
    intro r f hf
    have hfsalt : f .salt = d .salt := (hf .salt (by decide)).trans hsalt
    have hdone : Q (.ok (), { ring with origin := .v2 }) f := by
      refine hQ _ .v2 f hfsalt (fun horigin => nomatch horigin) ?_
      intro _
      exact ⟨_, (hf .keys (by decide)).trans hplaced, hfile⟩
    split
    · exact Proceeds.pure hdone
    · exact Proceeds.pure hdone
    · exact Proceeds.pure (herror _ f hfsalt)
  · refine Proceeds.pure (hQ _ ring.origin e hsalt id ?_)
    intro _
    exact ⟨_, hplaced, hfile⟩

/-- What a save leaves of the ring that was saved. Its records are as they were, and its salt if it
had one; after a save that went through the file has those records. -/
structure Saved (serde : Serde) (ring : Ring) (out : Reply Unit × Ring) (e : Disk File) :
    Prop where
  keys : out.2.keys = ring.keys
  salt : ∀ salt, ring.salt = some salt → out.2.salt = some salt
  persisted : Persisted out.2 (e .salt)
  origin : out.2.origin = .convertedFromV1 true → ring.origin = .convertedFromV1 true
  placed : out.1 = .ok () → ∃ bytes, e .keys = some bytes ∧ fileOf serde ring.keys = some bytes

theorem mayReplace_ok {r : Reply RustStr} {v1OnDisk : Option RustStr}
    (hmay : ring.mayReplace serde r = .ok v1OnDisk) :
    (∃ message, r = .error (.io .notFound message) ∧ v1OnDisk = none) ∨
    ∃ text, r = .ok text ∧
      ((∃ file, parse serde text = .ok (.v2 file) ∧ v1OnDisk = none) ∨
        (∃ file, parse serde text = .ok (.v1 file)) ∧
          ring.origin = .convertedFromV1 true ∧ v1OnDisk = some text) := by
  rw [Ring.mayReplace.eq_def] at hmay
  split at hmay
  · rename_i text
    refine .inr ⟨text, rfl, ?_⟩
    split at hmay
    · cases hmay
    · cases hmay
    · rename_i file hparse
      split at hmay
      · rename_i horigin
        cases hmay
        exact .inr ⟨⟨file, hparse⟩, horigin, rfl⟩
      · cases hmay
    · rename_i file hparse
      cases hmay
      exact .inl ⟨file, hparse, rfl⟩
  · rename_i message
    cases hmay
    exact .inl ⟨message, rfl, rfl⟩
  · cases hmay
  · cases hmay

theorem saveOver_proceeds {fresh : Except KeyringError Salt} {v1OnDisk : Option RustStr}
    (hring : Persisted ring (d .salt)) (hreplaceable : Replaceable serde ring (d .keys))
    (hv1 : v1OnDisk ≠ none → ring.origin = .convertedFromV1 true ∧
      ∃ file, contents serde (d .keys) = some (.v1 file)) :
    Proceeds (Moves (saveLaw serde ring d)) d (ring.saveOver serde fresh v1OnDisk)
      (Saved serde ring) := by
  apply Proceeds.bind
  apply Proceeds.settle (Moves.refl _ d)
  · exact Proceeds.pure ⟨rfl, fun _ => id, hring, id, fun hr => nomatch hr⟩
  apply Proceeds.bind
  apply persistSaltIfNeeded_proceeds rfl id hring
  intro r ring' e honly hsame hkept hring' hpersisted
  have hkeys : e .keys = d .keys := honly .keys (by decide)
  cases r with
  | error k =>
      exact Proceeds.pure ⟨hkept.keys, hkept.salt, hring', fun horigin => hkept.origin ▸ horigin,
        fun hr => nomatch hr⟩
  | ok _ =>
      obtain ⟨salt, hsalt, hin⟩ := hring' (hpersisted rfl)
      have hlaw : ∀ bytes, fileOf serde ring'.keys = some bytes →
          (saveLaw serde ring d).placing (e .salt) bytes ∧
            (saveLaw serde ring d).dropping (some bytes) := by
        intro bytes hfile
        rw [hkept.keys] at hfile
        refine ⟨⟨hreplaceable, hfile, salt, hin, ?_⟩, .inr ⟨bytes, rfl, hfile⟩⟩
        intro salt' hsalt'
        exact Option.some.inj ((hkept.salt salt' hsalt').symm.trans hsalt)
      have hQ : ∀ (r : Reply Unit) (origin : Origin) (f : Disk File), f .salt = e .salt →
          (origin = .convertedFromV1 true → ring'.origin = .convertedFromV1 true) →
          (r = .ok () → ∃ bytes, f .keys = some bytes ∧
            fileOf serde ring'.keys = some bytes) →
          Saved serde ring (r, { ring' with origin }) f := by
        intro r origin f hfsalt horigin hplaced
        refine ⟨hkept.keys, hkept.salt, ?_, ?_, ?_⟩
        · intro hsaved
          rw [hfsalt]
          exact hring' hsaved
        · intro hpending
          exact hkept.origin ▸ horigin hpending
        · intro hr
          obtain ⟨bytes, hbytes, hfile⟩ := hplaced hr
          exact ⟨bytes, hbytes, hkept.keys ▸ hfile⟩
      cases v1OnDisk with
      | some original =>
          obtain ⟨horigin, hfile⟩ := hv1 (Option.some_ne_none original)
          exact finishConversion_proceeds hkeys (.inl ⟨rfl, horigin, hfile⟩) hlaw hQ
      | none => exact replaceFile_proceeds hkeys hlaw hQ

theorem saveTo_proceeds (serde : Serde) (fresh : Except KeyringError Salt)
    (hring : Persisted ring (d .salt)) :
    Proceeds (Moves (saveLaw serde ring d)) d (ring.saveTo serde fresh) (Saved serde ring) := by
  have hrefused : ∀ k, Saved serde ring (.error k, ring) d :=
    fun k => ⟨rfl, fun _ => id, hring, id, fun hr => nomatch hr⟩
  apply Proceeds.bind
  apply readToString_proceeds (Moves.refl _ d)
  · intro k hk
    split
    · exact Proceeds.pure (hrefused _)
    · rename_i v1OnDisk hmay
      rcases mayReplace_ok hmay with ⟨message, hr, -⟩ | ⟨text, hr, -⟩
      · exact absurd (Except.error.inj hr) (hk message)
      · cases hr
  · intro hnone
    exact saveOver_proceeds hring (.absent hnone) fun hv => absurd rfl hv
  · intro bytes text hbytes htext
    split
    · exact Proceeds.pure (hrefused _)
    · rename_i v1OnDisk hmay
      rcases mayReplace_ok hmay with ⟨message, hr, -⟩ | ⟨text', hr, hcases⟩
      · cases hr
      · obtain rfl := Except.ok.inj hr
        rcases hcases with ⟨file, hparse, rfl⟩ | ⟨⟨file, hparse⟩, horigin, -⟩
        · exact saveOver_proceeds hring (.v2 file (contents_of_parse hbytes htext hparse))
            fun hv => absurd rfl hv
        · have hfile := contents_of_parse hbytes htext hparse
          exact saveOver_proceeds hring (.v1 file hfile horigin) fun _ => ⟨horigin, file, hfile⟩

/-! ### Load -/

/-- What a load gives: a ring whose fingerprints were in a version 2 file that was read with
its salt, or are made with the salt of the ring. -/
structure Loaded (serde : Serde) (h : Hasher) (start : Disk File) (ring : Ring)
    (e : Disk File) : Prop where
  persisted : Persisted ring (e .salt)
  pending : ring.origin = .convertedFromV1 true →
    ∃ file, contents serde (start .keys) = some (.v1 file)
  fingerprints : ∀ r ∈ ring.keys, ∀ fp, r.fingerprint = some fp →
    (fp ∈ fingerprintsIn serde (start .keys) ∧ ring.salt = saltIn (start .salt)) ∨
      ∃ salt serial, ring.salt = some salt ∧ fp = fingerprint h salt serial

theorem fingerprint_of_mem_convertV1 {salt : Salt} {old : FileV1} {r : KeyRecord}
    {fp : Fingerprint} (hr : r ∈ convertV1 h salt old) (hfp : r.fingerprint = some fp) :
    ∃ serial, fp = fingerprint h salt serial := by
  obtain ⟨entry, -, rfl⟩ := List.mem_map.mp hr
  change (if (canonicalSerial h entry.serial).isEmpty then none
    else some (fingerprint h salt entry.serial)) = some fp at hfp
  split at hfp
  · cases hfp
  · exact ⟨entry.serial, (Option.some.inj hfp).symm⟩

theorem convertRecords_proceeds {c : Disk File} {salt : Salt} {saltOnDisk : Bool}
    {text : RustStr} {old : FileV1} (hkeys : c .keys = d .keys)
    (hold : contents serde (d .keys) = some (.v1 old)) (hsalt : ring.salt = some salt)
    (hring : Persisted ring (c .salt))
    (hpersisted : saltOnDisk = true → ring.saltPersisted = true) :
    Proceeds (Moves (loadLaw serde h d)) c (ring.convertRecords serde h salt saltOnDisk text old)
      (Loaded serde h d) := by
  have hfingerprints : ∀ r ∈ convertV1 h salt old, ∀ fp, r.fingerprint = some fp →
      (fp ∈ fingerprintsIn serde (d .keys) ∧ ring.salt = saltIn (d .salt)) ∨
        ∃ salt serial, ring.salt = some salt ∧ fp = fingerprint h salt serial := by
    intro r hr fp hfp
    obtain ⟨serial, hserial⟩ := fingerprint_of_mem_convertV1 hr hfp
    exact .inr ⟨salt, serial, hsalt, hserial⟩
  rw [Ring.convertRecords]
  cases saltOnDisk with
  | false =>
      apply Proceeds.bind
      exact Proceeds.pure (Proceeds.pure ⟨hring, fun _ => ⟨old, hold⟩, hfingerprints⟩)
  | true =>
      obtain ⟨salt', hsalt', hin⟩ := hring (hpersisted rfl)
      obtain rfl : salt = salt' := Option.some.inj (hsalt.symm.trans hsalt')
      apply Proceeds.bind
      apply finishConversion_proceeds hkeys
      · exact .inl ⟨rfl, .inr ⟨.v1 old, hold, fun v hv => nomatch hv⟩⟩
      · intro bytes hfile
        exact ⟨⟨old, salt, hold, hin, hfile⟩, .inr ⟨old, salt, bytes, hold, rfl, hfile⟩⟩
      · intro r origin e hesalt _ _
        refine Proceeds.pure ⟨?_, fun _ => ⟨old, hold⟩, hfingerprints⟩
        intro hsaved
        rw [hesalt]
        exact hring hsaved

theorem convert_proceeds {fresh : Except KeyringError Salt} {text : RustStr} {old : FileV1}
    (hold : contents serde (d .keys) = some (.v1 old)) :
    Proceeds (Moves (loadLaw serde h d)) d (convert serde h fresh text old)
      fun r e => ∀ ring, r = .ok ring → Loaded serde h d ring e := by
  have hrefl := Moves.refl (loadLaw serde h d) d
  have hgive : ∀ (c : Disk File) (m : Prog File Ring),
      Proceeds (Moves (loadLaw serde h d)) c m (Loaded serde h d) →
      Proceeds (Moves (loadLaw serde h d)) c (do return Except.ok (← m))
        fun (r : Reply Ring) e => ∀ ring, r = .ok ring → Loaded serde h d ring e := by
    intro c m hm
    apply Proceeds.bind
    refine hm.imp ?_
    intro ring e hloaded
    apply Proceeds.pure
    rintro _ ⟨⟩
    exact hloaded
  apply Proceeds.andThen
  apply loadSalt_proceeds hrefl
  · exact fun k => ⟨(fun _ _ _ hr => nomatch hr), fun _ hr => nomatch hr⟩
  · intro _
    refine ⟨(fun _ hr => nomatch hr), ?_⟩
    rintro _ ⟨⟩
    cases fresh with
    | error k => exact Proceeds.pure fun _ hr => nomatch hr
    | ok salt =>
        apply Proceeds.bind
        apply persistSaltIfNeeded_proceeds rfl id
        · intro hpersisted
          cases hpersisted
        · intro r ring' e honly _ hkept hring' hpersisted
          apply hgive
          refine convertRecords_proceeds (honly .keys (by decide)) hold (hkept.salt salt rfl)
            hring' ?_
          intro hsome
          cases r with
          | error k => cases hsome
          | ok _ => exact hpersisted rfl
  · intro salt hin
    refine ⟨(fun _ hr => nomatch hr), ?_⟩
    rintro _ ⟨⟩
    apply hgive
    exact convertRecords_proceeds rfl hold rfl (fun _ => ⟨salt, rfl, hin⟩) fun _ => rfl

theorem loadFrom_proceeds (serde : Serde) (h : Hasher) (d : Disk File)
    (fresh : Except KeyringError Salt) :
    Proceeds (Moves (loadLaw serde h d)) d (loadFrom serde h fresh)
      fun r e => ∀ ring, r = .ok ring → Loaded serde h d ring e := by
  have hrefl := Moves.refl (loadLaw serde h d)
  apply Proceeds.bind
  apply readToString_proceeds (hrefl d)
  · intro k hk
    split
    · rename_i message heq
      exact absurd (Except.error.inj heq) (hk message)
    · exact Proceeds.pure fun _ hr => nomatch hr
    · exact Proceeds.pure fun _ hr => nomatch hr
    · rename_i heq
      cases heq
  · intro hnone
    apply Proceeds.bind
    apply Proceeds.bind
    refine removeBackup_proceeds (.inl ⟨rfl, .inl hnone⟩) ?_
    intro _ e honly
    apply Proceeds.pure
    apply Proceeds.andThen
    apply loadSalt_proceeds (hrefl e)
    · exact fun k => ⟨(fun _ _ _ hr => nomatch hr), fun _ hr => nomatch hr⟩
    · intro _
      refine ⟨(fun _ hr => nomatch hr), ?_⟩
      rintro _ ⟨⟩
      apply Proceeds.pure
      rintro _ ⟨⟩
      exact ⟨(fun hsaved => nomatch hsaved), (fun horigin => nomatch horigin),
        fun r hr => nomatch hr⟩
    · intro salt hin
      refine ⟨(fun _ hr => nomatch hr), ?_⟩
      rintro _ ⟨⟩
      apply Proceeds.pure
      rintro _ ⟨⟩
      exact ⟨(fun _ => ⟨salt, rfl, hin⟩), (fun horigin => nomatch horigin),
        fun r hr => nomatch hr⟩
  · intro bytes text hbytes htext
    dsimp only
    split
    · exact Proceeds.pure fun _ hr => nomatch hr
    · exact Proceeds.pure fun _ hr => nomatch hr
    · rename_i old hparse
      exact convert_proceeds (contents_of_parse hbytes htext hparse)
    · rename_i file hparse
      have hfile := contents_of_parse hbytes htext hparse
      apply Proceeds.bind
      apply Proceeds.bind
      refine removeBackup_proceeds (.inl ⟨rfl, .inr ⟨_, hfile, fun v hv => nomatch hv⟩⟩) ?_
      intro _ e honly
      have hesalt : e .salt = d .salt := honly .salt (by decide)
      apply Proceeds.pure
      apply Proceeds.andThen
      apply loadSalt_proceeds (hrefl e)
      · exact fun k => ⟨(fun _ _ _ hr => nomatch hr), fun _ hr => nomatch hr⟩
      · intro _
        refine ⟨(fun _ hr => nomatch hr), ?_⟩
        rintro _ ⟨⟩
        apply Proceeds.pure
        rintro _ ⟨⟩
        refine ⟨(fun hsaved => nomatch hsaved), (fun horigin => nomatch horigin), ?_⟩
        intro r hr fp hfp
        obtain ⟨r', -, rfl⟩ := List.mem_map.mp hr
        cases hfp
      · intro salt hin
        refine ⟨(fun _ hr => nomatch hr), ?_⟩
        rintro _ ⟨⟩
        apply Proceeds.pure
        rintro _ ⟨⟩
        refine ⟨(fun _ => ⟨salt, rfl, hin⟩), (fun horigin => nomatch horigin), ?_⟩
        intro r hr fp hfp
        obtain ⟨r', hr', rfl⟩ := List.mem_map.mp hr
        refine .inl ⟨?_, ?_⟩
        · rw [fingerprintsIn, hfile]
          exact List.mem_filterMap.mpr ⟨r', hr', hfp⟩
        · rw [← hesalt, hin]

end Laws

end Keyroost.Keyring
