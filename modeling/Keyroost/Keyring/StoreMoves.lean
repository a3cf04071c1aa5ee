import Keyroost.Keyring.Store

/-!
# What loading and saving do to the files

Each file operation of a load or a save is one of four moves: on the file written beside
`keys.json`, on a salt that was not there, on the backup, and the one that puts a file in the place
of `keys.json`.

`Moves` is parametrised by a `Law`, which says what may be put in place and when the backup may go,
so the helpers that both programs call, `writeNewPrivate`, `writeAtomic`, `persistSalt`, are proved
here once for any law. `Within` is what all files that can be reached by moves have in common.
-/

namespace Keyroost.Keyring

open Crash

/-! ### Moves -/

/-- What one load or save, started on the files `start`, may do: put `bytes` in the place of
`keys.json` while `keys.salt` holds `salt`, and remove the backup while `keys.json` holds
`keys`. -/
structure Law where
  start : Disk File
  placing : (salt : Option (List UInt8)) → (bytes : List UInt8) → Prop
  dropping : (keys : Option (List UInt8)) → Prop

inductive Moves (law : Law) (d e : Disk File) : Prop
  | scratch (honly : Only .tmp d e)
  | salt (honly : Only .salt d e) (hnew : law.start .salt = none)
      (hkeys : d .keys = law.start .keys)
  | backup (honly : Only .backup d e)
      (hdrop : d .backup ≠ none → e .backup = none → law.dropping (d .keys))
  | place (bytes : List UInt8) (hplaced : e .keys = some bytes) (hsalt : e .salt = d .salt)
      (hbackup : e .backup = d .backup) (hkeys : d .keys = law.start .keys)
      (hlaw : law.placing (d .salt) bytes)

theorem Moves.refl (law : Law) (d : Disk File) : Moves law d d := .scratch (Only.refl .tmp d)

/-- What holds of the files at every point of a load or a save: a salt that was there stays, and
`keys.json` is the old one or one that the law lets be placed. -/
structure Within (law : Law) (d : Disk File) : Prop where
  salt : law.start .salt ≠ none → d .salt = law.start .salt
  keys : d .keys = law.start .keys ∨ ∃ bytes, d .keys = some bytes ∧ law.placing (d .salt) bytes

theorem Within.start (law : Law) : Within law law.start := ⟨fun _ => rfl, .inl rfl⟩

theorem Within.step {law : Law} {d e : Disk File} (hmove : Moves law d e) (hd : Within law d) :
    Within law e := by
  cases hmove with
  | scratch honly =>
      have hkeys : e .keys = d .keys := honly .keys (by decide)
      have hsalt : e .salt = d .salt := honly .salt (by decide)
      refine ⟨?_, ?_⟩
      · rw [hsalt]
        exact hd.salt
      · rw [hkeys, hsalt]
        exact hd.keys
  | salt honly hnew hkeys =>
      refine ⟨fun hstart => absurd hnew hstart, .inl ?_⟩
      rw [honly .keys (by decide), hkeys]
  | backup honly hdrop =>
      have hkeys : e .keys = d .keys := honly .keys (by decide)
      have hsalt : e .salt = d .salt := honly .salt (by decide)
      refine ⟨?_, ?_⟩
      · rw [hsalt]
        exact hd.salt
      · rw [hkeys, hsalt]
        exact hd.keys
  | place bytes hplaced hsalt hbackup hkeys hlaw =>
      refine ⟨?_, .inr ⟨bytes, hplaced, ?_⟩⟩
      · rw [hsalt]
        exact hd.salt
      · rw [hsalt]
        exact hlaw

/-! ### Reading -/

section Programs

variable {G : Disk File → Disk File → Prop} {d : Disk File}

theorem read_proceeds {f : File} {Q : Reply (List UInt8) → Disk File → Prop} (hG : G d d)
    (hother : ∀ e, Q (.error e) d) (hbytes : ∀ bytes, d f = some bytes → Q (.ok bytes) d) :
    Proceeds G d (read f) Q :=
  Proceeds.readFile hG (hother _) (fun _ => hother _) hbytes

theorem readToString_proceeds {f : File} {Q : Reply RustStr → Disk File → Prop} (hG : G d d)
    (hother : ∀ e, (∀ message, e ≠ .io .notFound message) → Q (.error e) d)
    (hmissing : d f = none → Q (.error (sysError .notFound)) d)
    (htext : ∀ bytes text, d f = some bytes → Utf8.fromUtf8 bytes = some text →
      Q (.ok text) d) : Proceeds G d (readToString f) Q := by
  apply Proceeds.bind
  apply Proceeds.readFile hG
  · refine Proceeds.pure (hother _ ?_)
    intro message heq
    cases heq
  · intro hnone
    exact Proceeds.pure (hmissing hnone)
  · intro bytes hsome
    cases htxt : Utf8.fromUtf8 bytes with
    | none =>
        dsimp only
        rw [htxt]
        refine Proceeds.pure (hother _ ?_)
        intro message heq
        cases heq
    | some text =>
        dsimp only
        rw [htxt]
        exact Proceeds.pure (htext bytes text hsome htxt)

theorem loadSalt_proceeds {Q : Reply (Option Salt) → Disk File → Prop} (hG : G d d)
    (herror : ∀ e, Q (.error e) d) (hmissing : d .salt = none → Q (.ok none) d)
    (hsalt : ∀ salt, saltIn (d .salt) = some salt → Q (.ok (some salt)) d) :
    Proceeds G d loadSalt Q := by
  apply Proceeds.bind
  apply readToString_proceeds hG
  · intro e he
    split
    · rename_i message heq
      exact absurd (Except.error.inj heq) (he message)
    · exact Proceeds.pure (herror _)
    · exact Proceeds.pure (herror _)
    · rename_i heq
      cases heq
  · intro hnone
    exact Proceeds.pure (hmissing hnone)
  · intro bytes text hbytes htext
    dsimp only
    cases hof : saltOfText text with
    | none => exact Proceeds.pure (herror _)
    | some salt =>
        refine Proceeds.pure (hsalt salt ?_)
        rw [saltIn, hbytes, Option.bind_some, htext, Option.bind_some, hof]

/-! ### Writing -/

theorem removeFile_proceeds {f : File} {Q : Reply Unit → Disk File → Prop}
    (hG : ∀ e, Only f d e → G d e) (hQ : ∀ r e, Only f d e → Q r e) :
    Proceeds G d (removeFile f) Q :=
  Proceeds.removeFile (fun e honly => ⟨hG e honly, hQ _ e honly⟩)
    (fun _ => hQ _ d (Only.refl f d)) (fun e honly _ => hQ _ e honly)

theorem writeNewPrivate_proceeds {f : File} {bytes : List UInt8}
    {Q : Reply Unit → Disk File → Prop}
    (hG : ∀ c e, Only f c e → (c f ≠ none → e f ≠ none) → G c e)
    (herror : ∀ k e, Only f d e → Q (.error k) e)
    (hdone : ∀ e, Only f d e → e f = some bytes → Q (.ok ()) e) :
    Proceeds G d (writeNewPrivate f bytes) Q := by
  apply Proceeds.andThen
  apply Proceeds.createNew
  · intro c honly hsame
    refine ⟨hG d c honly fun hsome => ?_, ?_, fun _ hr => nomatch hr⟩
    · rw [hsame hsome]
      exact hsome
    · intro k _
      exact herror k c honly
  · intro _
    exact ⟨fun k _ => herror k d (Only.refl f d), fun _ hr => nomatch hr⟩
  · intro c honly hnone hnew
    refine ⟨(fun _ hr => nomatch hr), fun _ _ => ?_⟩
    apply Proceeds.andThen
    apply Proceeds.writeAll
    · intro e honly' hkept
      exact ⟨hG c e honly' hkept, fun k _ => herror k e (honly.trans honly'),
        fun _ hr => nomatch hr⟩
    · intro hgone
      rw [hnew] at hgone
      cases hgone
    · intro old e honly' hold hgrown
      refine ⟨(fun _ hr => nomatch hr), fun _ _ => ?_⟩
      rw [hnew] at hold
      obtain rfl := Option.some.inj hold
      exact Proceeds.settle (hG e e (Only.refl f e) id) (herror _ e (honly.trans honly'))
        (hdone e (honly.trans honly') hgrown)

/-! ### Putting a file in place -/

variable {law : Law}

theorem writeAtomic_proceeds {json : RustStr} {Q : Reply Unit → Disk File → Prop}
    (hkeys : d .keys = law.start .keys) (hlaw : law.placing (d .salt) (fileBytes json))
    (herror : ∀ k e, e .salt = d .salt →
      (e .keys = d .keys ∨ e .keys = some (fileBytes json)) → Q (.error k) e)
    (hdone : ∀ e, e .salt = d .salt → e .keys = some (fileBytes json) → Q (.ok ()) e) :
    Proceeds (Moves law) d (writeAtomic json) Q := by
  apply Proceeds.bind
  refine removeFile_proceeds (fun e honly => .scratch honly) ?_
  intro _ c hcleared
  apply Proceeds.andThen
  apply writeNewPrivate_proceeds
  · intro e e' honly _
    exact .scratch honly
  · intro k e honly
    have hc := hcleared.trans honly
    refine ⟨fun k' _ => ?_, fun _ hr => nomatch hr⟩
    exact herror k' e (hc .salt (by decide)) (.inl (hc .keys (by decide)))
  · intro e honly hwritten
    have hc := hcleared.trans honly
    have hsalt : e .salt = d .salt := hc .salt (by decide)
    have hsame : e .keys = d .keys := hc .keys (by decide)
    refine ⟨(fun _ hr => nomatch hr), fun _ _ => ?_⟩
    apply Proceeds.andThen
    apply Proceeds.rename
    · refine ⟨Moves.refl law e, ?_, fun _ hr => nomatch hr⟩
      intro k _
      exact herror k e hsalt (.inl hsame)
    · intro hgone
      rw [hwritten] at hgone
      cases hgone
    · intro content f hcontent hmoved hrest
      obtain rfl : fileBytes json = content :=
        Option.some.inj (hwritten.symm.trans hcontent)
      have hsalt' : f .salt = e .salt := hrest .salt (by decide) (by decide)
      have hplace : Moves law e f := by
        refine .place (fileBytes json) hmoved hsalt' (hrest .backup (by decide) (by decide))
          (hsame.trans hkeys) ?_
        rw [hsalt]
        exact hlaw
      refine ⟨⟨hplace, ?_, fun _ hr => nomatch hr⟩, (fun _ hr => nomatch hr), ?_⟩
      · intro k _
        exact herror k f (hsalt'.trans hsalt) (.inr hmoved)
      · intro _ _
        exact Proceeds.settle (Moves.refl law f) (herror _ f (hsalt'.trans hsalt) (.inr hmoved))
          (hdone f (hsalt'.trans hsalt) hmoved)

/-! ### The salt -/

theorem persistSalt_proceeds {salt : Salt} {Q : Reply Unit → Disk File → Prop}
    (hkeys : d .keys = law.start .keys) (hnew : d .salt = none → law.start .salt = none)
    (herror : ∀ k e, Only .salt d e → (d .salt ≠ none → e .salt = d .salt) → Q (.error k) e)
    (hdone : ∀ e, Only .salt d e → d .salt = none → saltIn (e .salt) = some salt →
      Q (.ok ()) e) :
    Proceeds (Moves law) d (persistSalt salt) Q := by
  have hstay : ∀ k, Q (.error k) d := fun k => herror k d (Only.refl .salt d) fun _ => rfl
  apply Proceeds.andThen
  apply Proceeds.settle (Moves.refl law d)
  · exact ⟨fun k _ => hstay k, fun _ hr => nomatch hr⟩
  refine ⟨(fun _ hr => nomatch hr), fun _ _ => ?_⟩
  apply Proceeds.andThen
  apply Proceeds.createNew
  · intro c honly hsame
    refine ⟨?_, ?_, fun _ hr => nomatch hr⟩
    · by_cases hnone : d .salt = none
      · exact .salt honly (hnew hnone) hkeys
      · rw [hsame hnone]
        exact Moves.refl law d
    · intro k _
      exact herror k c honly fun hsome => by rw [hsame hsome]
  · intro _
    exact ⟨fun k _ => hstay k, fun _ hr => nomatch hr⟩
  intro c honly hnone hempty
  refine ⟨(fun _ hr => nomatch hr), fun _ _ => ?_⟩
  -- From here on the file is this program's own.
  have hmine : ∀ x y, Only .salt d x → Only .salt x y → Moves law x y := by
    intro x y hx hxy
    exact .salt hxy (hnew hnone) ((hx .keys (by decide)).trans hkeys)
  have hfail : ∀ k e, Only .salt d e → Q (.error k) e := by
    intro k e he
    exact herror k e he fun hsome => absurd hnone hsome
  have hremove : ∀ k e, Only .salt d e → Proceeds (Moves law) e
      (do let _ ← removeFile .salt; return .error k) Q := by
    intro k e he
    apply Proceeds.bind
    refine removeFile_proceeds (fun f hf => hmine e f he hf) ?_
    intro _ f hf
    exact Proceeds.pure (hfail k f (he.trans hf))
  apply Proceeds.bind
  apply Proceeds.andThen
  apply Proceeds.writeAll
  · intro e honly' _
    refine ⟨hmine c e honly honly', ?_, fun _ hr => nomatch hr⟩
    intro k _
    exact hremove k e (honly.trans honly')
  · intro hgone
    rw [hempty] at hgone
    cases hgone
  · intro old e honly' hold hgrown
    rw [hempty] at hold
    obtain rfl := Option.some.inj hold
    have he := honly.trans honly'
    refine ⟨(fun _ hr => nomatch hr), fun _ _ => ?_⟩
    apply Proceeds.settle (Moves.refl law e)
    · exact hremove _ e he
    · refine Proceeds.pure (hdone e he hnone ?_)
      rw [hgrown]
      exact saltIn_saltText salt

/-- A salt that a ring takes to be in `keys.salt` is there. -/
def Persisted (ring : Ring) (content : Option (List UInt8)) : Prop :=
  ring.saltPersisted = true → ∃ salt, ring.salt = some salt ∧ saltIn content = some salt

/-- What giving a ring its salt leaves as it was: the records, where they came from, and a salt that
it had already. -/
structure SaltKept (ring ring' : Ring) : Prop where
  keys : ring'.keys = ring.keys
  origin : ring'.origin = ring.origin
  salt : ∀ salt, ring.salt = some salt → ring'.salt = some salt

theorem ensureSalt_kept {fresh : Except KeyringError Salt} {ring ring' : Ring}
    {r : Except KeyringError Salt} {content : Option (List UInt8)}
    (hensure : ring.ensureSalt fresh = (r, ring')) (hring : Persisted ring content) :
    SaltKept ring ring' ∧ Persisted ring' content ∧
      ∀ salt, r = .ok salt → ring'.salt = some salt := by
  rw [Ring.ensureSalt.eq_def] at hensure
  split at hensure
  · rename_i salt hsalt
    cases hensure
    refine ⟨⟨rfl, rfl, fun _ => id⟩, hring, ?_⟩
    rintro _ ⟨⟩
    exact hsalt
  · rename_i hnone
    split at hensure
    · cases hensure
      exact ⟨⟨rfl, rfl, fun _ => id⟩, hring, fun _ hr => nomatch hr⟩
    · cases hensure
      refine ⟨⟨rfl, rfl, ?_⟩, ?_, ?_⟩
      · intro salt hsalt
        rw [hnone] at hsalt
        cases hsalt
      · intro hpersisted
        cases hpersisted
      · rintro _ ⟨⟩
        rfl

theorem persistSaltIfNeeded_proceeds {fresh : Except KeyringError Salt} {ring : Ring}
    {Q : Reply Unit × Ring → Disk File → Prop} (hkeys : d .keys = law.start .keys)
    (hnew : d .salt = none → law.start .salt = none) (hring : Persisted ring (d .salt))
    (hQ : ∀ r ring' e, Only .salt d e → (d .salt ≠ none → e .salt = d .salt) →
      SaltKept ring ring' → Persisted ring' (e .salt) →
      (r = .ok () → ring'.saltPersisted = true) → Q (r, ring') e) :
    Proceeds (Moves law) d (ring.persistSaltIfNeeded fresh) Q := by
  rw [Ring.persistSaltIfNeeded]
  split
  · rename_i k ring' hensure
    obtain ⟨hkept, hring', -⟩ := ensureSalt_kept hensure hring
    exact Proceeds.pure (hQ _ ring' d (Only.refl .salt d) (fun _ => rfl) hkept hring'
      fun hr => nomatch hr)
  · rename_i salt ring' hensure
    obtain ⟨hkept, hring', hsalt⟩ := ensureSalt_kept hensure hring
    have hmine := hsalt salt rfl
    split
    · rename_i hpersisted
      exact Proceeds.pure (hQ _ ring' d (Only.refl .salt d) (fun _ => rfl) hkept hring'
        fun _ => hpersisted)
    · rename_i hunsaved
      -- What is on disk now is either this salt, or leaves the ring unsaved.
      have herror : ∀ k e, Only .salt d e → (d .salt ≠ none → e .salt = d .salt) →
          Q (.error k, ring') e := by
        intro k e honly hsame
        exact hQ _ ring' e honly hsame hkept (fun hpersisted => absurd hpersisted hunsaved)
          fun hr => nomatch hr
      have hsaved : ∀ e, Only .salt d e → (d .salt ≠ none → e .salt = d .salt) →
          saltIn (e .salt) = some salt →
          Q (.ok (), { ring' with saltPersisted := true }) e := by
        intro e honly hsame hin
        exact hQ _ _ e honly hsame ⟨hkept.keys, hkept.origin, hkept.salt⟩
          (fun _ => ⟨salt, hmine, hin⟩) fun _ => rfl
      apply Proceeds.bind
      apply persistSalt_proceeds hkeys hnew
      · intro k e honly hsame
        split
        · rename_i heq
          cases heq
        · apply Proceeds.bind
          apply loadSalt_proceeds (Moves.refl law e)
          · intro k'
            exact Proceeds.pure (herror k' e honly hsame)
          · intro _
            dsimp only
            rw [if_neg (by rintro ⟨⟩)]
            exact Proceeds.pure (herror _ e honly hsame)
          · intro held hheld
            dsimp only
            split
            · rename_i heq
              obtain rfl := Option.some.inj heq
              exact Proceeds.pure (hsaved e honly hsame hheld)
            · exact Proceeds.pure (herror _ e honly hsame)
        · rename_i heq
          obtain rfl := Except.error.inj heq
          exact Proceeds.pure (herror _ e honly hsame)
      · intro e honly hnone hin
        exact Proceeds.pure (hsaved e honly (fun hsome => absurd hnone hsome) hin)

end Programs

end Keyroost.Keyring
