import Keyroost.Import.Join
import Keyroost.Import.MigrationAgreement
import Keyroost.Import.Rerun
import Keyroost.Proto.Commands
import Keyroost.Transport.Error

/-!
# An import to a Molto2

A slot takes three writes: its seed, its title, its config. Each may be lost, with or without having
been carried out. Nothing is ever deleted, and which slots are in use is read off the token before
the import is planned. Modelled from `keyroost-transport/src/import.rs` and
`keyroost-proto/src/commands.rs`.

`MoltoToken` is the token with its slots. `Written` is one write, `Added` the three of a code with
the report that they lead to, and the write loop is that of the import itself, run over this store.
A plan names each slot once, so what one row does to its slot stays until the end (`runRows_told`).
`molto_import_tells_what_it_left` says what each report means for the token.
-/

namespace Keyroost.Transport

open Keyroost.Import Keyroost.Proto

/-! ### One slot -/

structure MoltoWrite where
  slot : UInt8
  title : RustStr
  config : ProfileConfig
deriving DecidableEq, Repr

def moltoUnsupported (what : RustStr) : StoreError :=
  .failed ("Molto2 doesn't take ".toList ++ what)

def moltoAlgorithm : HashAlg → Except StoreError HmacAlgo
  | .sha1 => .ok .sha1
  | .sha256 => .ok .sha256
  | .sha512 => .error (moltoUnsupported "SHA-512 codes".toList)

def moltoOtpDigits (d : UInt8) : Except StoreError OtpDigits :=
  if d = 4 then .ok .four
  else if d = 6 then .ok .six
  else if d = 8 then .ok .eight
  else if d = 10 then .ok .ten
  else .error (moltoUnsupported (RustStr.decimal d.toNat ++ "-digit codes".toList))

def moltoTimeStep : OtpKind → Except StoreError TimeStep
  | .totp period =>
      if period = 30 then .ok .seconds30
      else if period = 60 then .ok .seconds60
      else .error (moltoUnsupported
        ("a ".toList ++ RustStr.decimal period.toNat ++ " s period".toList))
  | .hotp _ => .error (moltoUnsupported "counter-based (HOTP) codes".toList)

/-- The checks that keep the builders of the commands from panicking, and the slot's content. The
planner checks the same, so no planned row fails here. -/
def moltoWrite (name : StoredName) (entry : ImportEntry) (displayTimeout : DisplayTimeout)
    (utcTime : UInt32) : Except StoreError MoltoWrite :=
  match name with
  | .molto2 slot title =>
      if title = [] ∨ 12 < title.len then
        .error (.failed "the title must be 1 to 12 bytes".toList)
      else if entry.secret.val = [] ∨ 63 < entry.secret.val.length then
        .error (moltoUnsupported
          ("a ".toList ++ RustStr.decimal entry.secret.val.length ++ "-byte seed".toList))
      else do
        let algorithm ← moltoAlgorithm entry.hash
        let digits ← moltoOtpDigits entry.digits
        let timeStep ← moltoTimeStep entry.kind
        return { slot, title, config := { displayTimeout, algorithm, digits, timeStep, utcTime } }
  | _ => .error (.failed "this entry has no Molto2 slot to store it in".toList)

/-- The slot writes of a token, and the clock of the computer. A title and a config are writes of
their own, so a slot can be left with some of them. -/
structure MoltoIo (σ : Type) where
  setSeed : σ → UInt8 → List UInt8 → Except TransportError Unit × σ
  setTitle : σ → UInt8 → RustStr → Except TransportError Unit × σ
  setConfig : σ → UInt8 → ProfileConfig → Except TransportError Unit × σ
  now : σ → UInt32 × σ

section Store

variable {σ : Type} (io : MoltoIo σ) (display : TransportError → RustStr)
  (displayTimeout : DisplayTimeout)

/-- Seed, title, then config with the time read just before. A failure leaves what was written
before it, and that is the matter of `MoltoImported`. -/
def moltoAdd (s : σ) (name : StoredName) (entry : ImportEntry) : Except StoreError Unit × σ :=
  match moltoWrite name entry displayTimeout 0 with
  | .error e => (.error e, s)
  | .ok w =>
      match io.setSeed s w.slot entry.secret.val with
      | (.error e, s) => (.error (.failed (display e)), s)
      | (.ok (), s) =>
          match io.setTitle s w.slot w.title with
          | (.error e, s) => (.error (.failed (display e)), s)
          | (.ok (), s) =>
              let (utcTime, s) := io.now s
              match io.setConfig s w.slot { w.config with utcTime } with
              | (.error e, s) => (.error (.failed (display e)), s)
              | (.ok (), s) => (.ok (), s)

def moltoImportStore : CodeStore σ where
  add s name entry _ := moltoAdd io display displayTimeout s name entry
  delete s _ := (.error (.failed "not supported".toList), s)

end Store

/-! ### Slots in use -/

/-- What of a slot's public block says that it is in use. -/
structure ProfilePublicData where
  title : Option RustStr
  seedPresent : Bool
deriving DecidableEq, Repr

def moltoName (block : ProfilePublicData) (slot : Nat) : Option StoredName :=
  let title := block.title.getD []
  if block.seedPresent || !title.isEmpty then some (.molto2 slot.toUInt8 title) else none

/-- A slot with a seed or a title is in use. -/
def moltoExisting (blocks : List ProfilePublicData) : Existing where
  names := blocks.zipIdx.filterMap fun block => moltoName block.1 block.2
  hidden := 0

def moltoExistingBy (read : UInt8 → Except TransportError ProfilePublicData) :
    Except TransportError Existing :=
  ((List.range 100).mapM fun slot => read slot.toUInt8).map moltoExisting

/-! ### The token -/

structure MoltoSlot where
  seed : List UInt8
  title : RustStr
  config : Option ProfileConfig
deriving DecidableEq, Repr

def MoltoSlot.Used (content : MoltoSlot) : Prop := content.seed ≠ [] ∨ content.title ≠ []

/-- `fate` is what becomes of each write: carried out, or answered with an error, and carried out
all the same or not. -/
structure MoltoToken where
  slots : UInt8 → MoltoSlot
  writes : Nat
  fate : Nat → Option (TransportError × Bool)
  clock : Nat → UInt32

namespace MoltoToken

def write (token : MoltoToken) (slot : UInt8) (part : MoltoSlot → MoltoSlot) :
    Except TransportError Unit × MoltoToken :=
  let next := { token with writes := token.writes + 1 }
  let carried :=
    { next with slots := Function.update token.slots slot (part (token.slots slot)) }
  match token.fate token.writes with
  | none => (.ok (), carried)
  | some (e, true) => (.error e, carried)
  | some (e, false) => (.error e, next)

def io : MoltoIo MoltoToken where
  setSeed token slot seed := token.write slot fun content => { content with seed }
  setTitle token slot title := token.write slot fun content => { content with title }
  setConfig token slot config := token.write slot fun content => { content with config }
  now token := (token.clock token.writes, token)

def publicData (token : MoltoToken) (slot : UInt8) : ProfilePublicData where
  title := if (token.slots slot).title = [] then none else some (token.slots slot).title
  seedPresent := decide ((token.slots slot).seed ≠ [])

/-- What the token holds, as it is read before planning. -/
def existing (token : MoltoToken) : Existing :=
  moltoExisting ((List.range 100).map fun slot => token.publicData slot.toUInt8)

theorem moltoExistingBy_publicData (token : MoltoToken) :
    moltoExistingBy (fun slot => .ok (token.publicData slot)) = .ok token.existing := by
  have hread : ∀ slots : List Nat, (slots.mapM fun slot =>
      (.ok (token.publicData slot.toUInt8) : Except TransportError ProfilePublicData)) =
        .ok (slots.map fun slot => token.publicData slot.toUInt8) := by
    intro slots
    induction slots with
    | nil => rfl
    | cons slot slots ih => rw [List.mapM_cons, ih]; rfl
  rw [moltoExistingBy, hread]
  rfl

theorem moltoName_publicData {token : MoltoToken} {slot : Nat} {n : StoredName} :
    moltoName (token.publicData slot.toUInt8) slot = some n ↔
      (token.slots slot.toUInt8).Used ∧
        n = .molto2 slot.toUInt8 (token.slots slot.toUInt8).title := by
  unfold moltoName publicData MoltoSlot.Used
  by_cases htitle : (token.slots slot.toUInt8).title = []
  · by_cases hseed : (token.slots slot.toUInt8).seed = []
    · simp [htitle, hseed]
    · simpa [htitle, hseed] using eq_comm
  · simpa [htitle] using eq_comm

/-- A slot is read as in use if and only if it is. -/
theorem slotOccupied_existing (token : MoltoToken) {slot : UInt8}
    (hslot : slot.toNat ≤ MOLTO_LAST_SLOT) :
    slotOccupied token.existing slot = true ↔ (token.slots slot).Used := by
  have hlt : slot.toNat < 100 := Nat.lt_succ_of_le hslot
  have hself : slot.toNat.toUInt8 = slot := UInt8.ofNat_toNat
  simp only [slotOccupied, List.any_eq_true, existing, moltoExisting, List.mem_filterMap,
    Prod.exists, List.mk_mem_zipIdx_iff_getElem?, List.getElem?_map, Option.map_eq_some_iff]
  constructor
  · rintro ⟨n, ⟨_, i, ⟨j, hj, rfl⟩, hname⟩, hn⟩
    obtain ⟨_, hget⟩ := List.getElem?_eq_some_iff.mp hj
    obtain rfl : i = j := (List.getElem_range _).symm.trans hget
    obtain ⟨hused, rfl⟩ := moltoName_publicData.mp hname
    rwa [← eq_of_beq hn]
  · intro hused
    refine ⟨.molto2 slot (token.slots slot).title, ⟨_, slot.toNat, ⟨slot.toNat, ?_, rfl⟩, ?_⟩,
      beq_self_eq_true slot⟩
    · exact List.getElem?_range hlt
    · rw [moltoName_publicData, hself]
      exact ⟨hused, rfl⟩

/-! ### One write -/

/-- What a write can come to. One that is lost was either carried out or not; in both cases no other
slot changes. -/
inductive Written (token : MoltoToken) (slot : UInt8) (part : MoltoSlot → MoltoSlot) :
    Except TransportError Unit → MoltoToken → Prop
  | done {t : MoltoToken}
      (hslots : t.slots = Function.update token.slots slot (part (token.slots slot)))
      (hfate : t.fate = token.fate) : Written token slot part (.ok ()) t
  | lost {t : MoltoToken} {n : Nat} {e : TransportError} {done : Bool}
      (hlost : token.fate n = some (e, done))
      (hslots : t.slots = token.slots ∨
        t.slots = Function.update token.slots slot (part (token.slots slot)))
      (hfate : t.fate = token.fate) : Written token slot part (.error e) t

theorem write_written (token : MoltoToken) (slot : UInt8) (part : MoltoSlot → MoltoSlot) :
    token.Written slot part (token.write slot part).1 (token.write slot part).2 := by
  unfold write
  rcases hfate : token.fate token.writes with _ | ⟨e, _ | _⟩
  · exact .done rfl rfl
  · exact .lost hfate (.inl rfl) rfl
  · exact .lost hfate (.inr rfl) rfl

end MoltoToken

/-! ### What a slot is given -/

/-- The slot computes the entry's codes: its config has the entry's hash, length and period. The
seed is written apart from these. -/
structure Computes (entry : ImportEntry) (config : ProfileConfig) : Prop where
  hash : hashOf config.algorithm = entry.hash
  digits : config.digits.asByte = entry.digits
  kind : entry.kind = .totp config.timeStep.seconds

def MoltoWrite.content (w : MoltoWrite) (entry : ImportEntry) (utcTime : UInt32) : MoltoSlot where
  seed := entry.secret.val
  title := w.title
  config := some { w.config with utcTime }

theorem moltoAlgorithm_eq_ok {hash : HashAlg} {algorithm : HmacAlgo} :
    moltoAlgorithm hash = .ok algorithm ↔ hashOf algorithm = hash := by
  cases hash <;> cases algorithm <;> simp [moltoAlgorithm, hashOf]

theorem moltoOtpDigits_eq_ok {d : UInt8} {digits : OtpDigits} :
    moltoOtpDigits d = .ok digits ↔ digits.asByte = d := by
  unfold moltoOtpDigits
  constructor
  · intro h
    repeat' split at h
    all_goals cases h
    all_goals exact Eq.symm ‹_›
  · rintro rfl
    cases digits <;> rfl

theorem moltoTimeStep_eq_ok {kind : OtpKind} {timeStep : TimeStep} :
    moltoTimeStep kind = .ok timeStep ↔ kind = .totp timeStep.seconds := by
  unfold moltoTimeStep
  constructor
  · intro h
    repeat' split at h
    all_goals cases h
    all_goals exact congrArg OtpKind.totp ‹_›
  · rintro rfl
    cases timeStep <;> rfl

theorem moltoWrite_eq_ok {name : StoredName} {entry : ImportEntry}
    {displayTimeout : DisplayTimeout} {utcTime : UInt32} {w : MoltoWrite} :
    moltoWrite name entry displayTimeout utcTime = .ok w ↔
      name = .molto2 w.slot w.title ∧ (w.title ≠ [] ∧ w.title.len ≤ 12) ∧
        entry.secret.val.length ≤ 63 ∧ Computes entry w.config ∧
          w.config.displayTimeout = displayTimeout ∧ w.config.utcTime = utcTime := by
  obtain ⟨wslot, wtitle, ⟨wtimeout, walgorithm, wdigits, wtimeStep, wtime⟩⟩ := w
  have hsecret := entry.secret.property.1
  unfold moltoWrite
  cases name with
  | oath name => simp
  | token2 app account => simp
  | molto2 slot title =>
      by_cases htitle : title = [] ∨ 12 < title.len
      · simp only [htitle, if_true]
        refine ⟨fun h => (by cases h), ?_⟩
        rintro ⟨hname, ⟨hne, hlen⟩, -⟩
        obtain ⟨rfl, rfl⟩ := StoredName.molto2.inj hname
        exact absurd htitle (not_or.mpr ⟨hne, Nat.not_lt.mpr hlen⟩)
      · by_cases hlong : 63 < entry.secret.val.length
        · simp only [htitle, hlong, or_true, if_true, if_false]
          exact ⟨fun h => (by cases h), fun h => absurd h.2.2.1 (Nat.not_le.mpr hlong)⟩
        · obtain ⟨hne, hlen⟩ := not_or.mp htitle
          simp only [htitle, hlong, hsecret, or_self, if_false]
          constructor
          · intro h
            obtain ⟨algorithm, halgorithm, h⟩ := Checks.bind_eq_ok.mp h
            obtain ⟨digits, hdigits, h⟩ := Checks.bind_eq_ok.mp h
            obtain ⟨timeStep, htimeStep, h⟩ := Checks.bind_eq_ok.mp h
            cases h
            exact ⟨rfl, ⟨hne, Nat.le_of_not_lt hlen⟩, Nat.le_of_not_lt hlong,
              ⟨moltoAlgorithm_eq_ok.mp halgorithm, moltoOtpDigits_eq_ok.mp hdigits,
                moltoTimeStep_eq_ok.mp htimeStep⟩, rfl, rfl⟩
          · rintro ⟨hname, -, -, ⟨hhash, hdigits, hkind⟩, rfl, rfl⟩
            obtain ⟨rfl, rfl⟩ := StoredName.molto2.inj hname
            rw [moltoAlgorithm_eq_ok.mpr hhash, moltoOtpDigits_eq_ok.mpr hdigits,
              moltoTimeStep_eq_ok.mpr hkind]
            rfl

/-- What the planner lets through, a slot can compute. -/
theorem computes_of_paramsFit {entry : ImportEntry}
    (hparams : ParamsFit entry .molto2 (limits .molto2)) (displayTimeout : DisplayTimeout)
    (utcTime : UInt32) : ∃ config, Computes entry config ∧
      config.displayTimeout = displayTimeout ∧ config.utcTime = utcTime := by
  have hhash : ∃ algorithm, hashOf algorithm = entry.hash := by
    have hmem : entry.hash ∈ [HashAlg.sha1, .sha256] := hparams.hash
    rcases List.mem_pair.mp hmem with h | h
    · exact ⟨.sha1, h.symm⟩
    · exact ⟨.sha256, h.symm⟩
  have hdigits : ∃ digits : OtpDigits, digits.asByte = entry.digits := by
    have h := hparams.moltoDigits rfl
    simp only [moltoDigits, Bool.or_eq_true, beq_iff_eq] at h
    rcases h with ((h | h) | h) | h
    · exact ⟨.four, h.symm⟩
    · exact ⟨.six, h.symm⟩
    · exact ⟨.eight, h.symm⟩
    · exact ⟨.ten, h.symm⟩
  have hkind : ∃ timeStep : TimeStep, entry.kind = .totp timeStep.seconds := by
    have h := hparams.kind
    cases hcase : entry.kind with
    | hotp counter =>
        rw [hcase] at h
        exact False.elim h
    | totp period =>
        rw [hcase] at h
        rcases (h : period = 30 ∨ period = 60) with rfl | rfl
        · exact ⟨.seconds30, rfl⟩
        · exact ⟨.seconds60, rfl⟩
  obtain ⟨algorithm, halgorithm⟩ := hhash
  obtain ⟨digits, hdigits⟩ := hdigits
  obtain ⟨timeStep, htimeStep⟩ := hkind
  exact ⟨⟨displayTimeout, algorithm, digits, timeStep, utcTime⟩,
    ⟨halgorithm, hdigits, htimeStep⟩, rfl, rfl⟩

/-! ### One code -/

/-- How far a slot's three writes went. -/
inductive Partly (old new : MoltoSlot) : MoltoSlot → Prop
  | nothing : Partly old new old
  | seed : Partly old new { old with seed := new.seed }
  | title : Partly old new { old with seed := new.seed, title := new.title }
  | all : Partly old new new

section Run

variable {display : TransportError → RustStr} {displayTimeout : DisplayTimeout}

/-- What storing one code can come to. -/
inductive Added (display : TransportError → RustStr) (displayTimeout : DisplayTimeout)
    (token : MoltoToken) (name : StoredName) (entry : ImportEntry) :
    Except StoreError Unit → MoltoToken → Prop
  | refused {why : StoreError} (hw : moltoWrite name entry displayTimeout 0 = .error why) :
      Added display displayTimeout token name entry (.error why) token
  | done {w : MoltoWrite} {utcTime : UInt32} {t : MoltoToken}
      (hw : moltoWrite name entry displayTimeout 0 = .ok w)
      (hslots : t.slots = Function.update token.slots w.slot (w.content entry utcTime))
      (hfate : t.fate = token.fate) : Added display displayTimeout token name entry (.ok ()) t
  | lost {w : MoltoWrite} {utcTime : UInt32} {content : MoltoSlot} {t : MoltoToken} {n : Nat}
      {e : TransportError} {done : Bool}
      (hw : moltoWrite name entry displayTimeout 0 = .ok w)
      (hslots : t.slots = Function.update token.slots w.slot content)
      (hpartly : Partly (token.slots w.slot) (w.content entry utcTime) content)
      (hlost : token.fate n = some (e, done)) (hfate : t.fate = token.fate) :
      Added display displayTimeout token name entry (.error (.failed (display e))) t

theorem added_moltoAdd (token : MoltoToken) (name : StoredName) (entry : ImportEntry) :
    Added display displayTimeout token name entry
      (moltoAdd MoltoToken.io display displayTimeout token name entry).1
      (moltoAdd MoltoToken.io display displayTimeout token name entry).2 := by
  unfold moltoAdd
  cases hw : moltoWrite name entry displayTimeout 0 with
  | error why => exact .refused hw
  | ok w =>
      simp only [MoltoToken.io]
      have hseed := token.write_written w.slot
        fun content => { content with seed := entry.secret.val }
      generalize token.write w.slot (fun content => { content with seed := entry.secret.val }) =
        seeded at hseed ⊢
      obtain ⟨answer, t⟩ := seeded
      cases hseed with
      | lost hlost hslots hfate =>
          rcases hslots with hslots | hslots
          · exact .lost hw (hslots.trans (Function.update_eq_self _ _).symm)
              (show Partly _ (w.content entry 0) _ from .nothing) hlost hfate
          · exact .lost hw hslots (show Partly _ (w.content entry 0) _ from .seed) hlost hfate
      | done hslots hfate =>
          have htitle := t.write_written w.slot fun content => { content with title := w.title }
          dsimp only
          generalize t.write w.slot (fun content => { content with title := w.title }) =
            titled at htitle ⊢
          obtain ⟨answer, u⟩ := titled
          cases htitle with
          | lost hlost hslots' hfate' =>
              rw [hfate] at hlost
              rcases hslots' with hslots' | hslots'
              · exact .lost hw (hslots'.trans hslots)
                  (show Partly _ (w.content entry 0) _ from .seed) hlost (hfate'.trans hfate)
              · rw [hslots, Function.update_self, Function.update_idem] at hslots'
                exact .lost hw hslots' (show Partly _ (w.content entry 0) _ from .title) hlost
                  (hfate'.trans hfate)
          | done hslots' hfate' =>
              rw [hslots, Function.update_self, Function.update_idem] at hslots'
              have hconfig := u.write_written w.slot fun content =>
                { content with config := some { w.config with utcTime := u.clock u.writes } }
              dsimp only
              generalize u.write w.slot (fun content =>
                { content with config := some { w.config with utcTime := u.clock u.writes } }) =
                configured at hconfig ⊢
              obtain ⟨answer, v⟩ := configured
              cases hconfig with
              | lost hlost hslots'' hfate'' =>
                  rw [hfate', hfate] at hlost
                  have hkept := (hfate''.trans hfate').trans hfate
                  rcases hslots'' with hslots'' | hslots''
                  · exact .lost hw (hslots''.trans hslots')
                      (show Partly _ (w.content entry 0) _ from .title) hlost hkept
                  · rw [hslots', Function.update_self, Function.update_idem] at hslots''
                    exact .lost hw hslots''
                      (show Partly _ (w.content entry (u.clock u.writes)) _ from .all) hlost hkept
              | done hslots'' hfate'' =>
                  rw [hslots', Function.update_self, Function.update_idem] at hslots''
                  exact .done hw hslots'' ((hfate''.trans hfate').trans hfate)

theorem added_of_add {token t : MoltoToken} {name : StoredName} {entry : ImportEntry}
    {touch : Bool} {answer : Except StoreError Unit}
    (hadd : (moltoImportStore MoltoToken.io display displayTimeout).add token name entry touch =
      (answer, t)) : Added display displayTimeout token name entry answer t := by
  have hadded : Added display displayTimeout token name entry _ _ :=
    added_moltoAdd token name entry
  rw [show moltoAdd MoltoToken.io display displayTimeout token name entry = (answer, t)
    from hadd] at hadded
  exact hadded

variable {token t : MoltoToken} {name : StoredName} {entry : ImportEntry}
  {answer : Except StoreError Unit}

theorem Added.fate_eq (h : Added display displayTimeout token name entry answer t) :
    t.fate = token.fate := by
  cases h with
  | refused _ => rfl
  | done _ _ hfate => exact hfate
  | lost _ _ _ _ hfate => exact hfate

/-- Only the slot that is named changes. -/
theorem Added.elsewhere (h : Added display displayTimeout token name entry answer t)
    {slot : UInt8} (hother : ∀ title, name ≠ .molto2 slot title) :
    t.slots slot = token.slots slot := by
  have hne : ∀ {w : MoltoWrite}, moltoWrite name entry displayTimeout 0 = .ok w →
      slot ≠ w.slot := by
    rintro w hw rfl
    exact hother _ (moltoWrite_eq_ok.mp hw).1
  cases h with
  | refused _ => rfl
  | done hw hslots _ =>
      rw [hslots]
      exact Function.update_of_ne (hne hw) _ _
  | lost hw hslots _ _ _ =>
      rw [hslots]
      exact Function.update_of_ne (hne hw) _ _

/-! ### A whole run -/

theorem made_keeps {s u : MoltoToken} {calls : List Call}
    (hmade : Made (moltoImportStore MoltoToken.io display displayTimeout) s calls u) :
    u.fate = s.fate ∧ ∀ slot, (∀ call ∈ calls, ∀ title, call.name ≠ .molto2 slot title) →
      u.slots slot = s.slots slot := by
  induction hmade with
  | nil s => exact ⟨rfl, fun _ _ => rfl⟩
  | add hadd _ ih =>
      have hadded := added_of_add hadd
      refine ⟨ih.1.trans hadded.fate_eq, fun slot hother => ?_⟩
      obtain ⟨hown, hrest⟩ := List.forall_mem_cons.mp hother
      exact (ih.2 slot hrest).trans (hadded.elsewhere hown)
  | delete hdelete _ ih =>
      obtain ⟨-, rfl⟩ := Prod.mk.inj hdelete
      exact ⟨ih.1, fun slot hother => ih.2 slot (List.forall_mem_cons.mp hother).2⟩

theorem slot?_of_name {row : PlanRow} {slot : UInt8} {title : RustStr}
    (hname : row.name = some (.molto2 slot title)) : row.slot? = some slot := by
  rw [PlanRow.slot?, hname]

/-- A row's slot is as it was until the row is written, and stays as the row left it. -/
theorem row_between {file : ImportFile} {plan : Plan}
    (hslots : (plan.writes.map (·.slot?)).Nodup) {r : RowRun}
    (hr : r ∈ (run file plan
      (moltoImportStore MoltoToken.io display displayTimeout) token).rows) :
    ∃ s u, Made (moltoImportStore MoltoToken.io display displayTimeout) s r.calls u ∧
      s.fate = token.fate ∧ ∀ slot, r.row.slot? = some slot →
        s.slots slot = token.slots slot ∧
          (run file plan (moltoImportStore MoltoToken.io display displayTimeout)
            token).state.slots slot = u.slots slot := by
  have hsound := runSound_run file plan
    (moltoImportStore MoltoToken.io display displayTimeout) token
  obtain ⟨before, after, hrows⟩ := List.append_of_mem hr
  have hmade := hsound.made
  rw [hrows, List.flatMap_append, List.flatMap_cons] at hmade
  obtain ⟨s, hbefore, hrest⟩ := hmade.split
  obtain ⟨u, hown, hafter⟩ := hrest.split
  rw [← hsound.rows, List.map_map, hrows, List.map_append, List.map_cons,
    List.nodup_middle, List.nodup_cons, ← List.map_append] at hslots
  have hothers : ∀ rows : List RowRun, rows ⊆ before ++ after → ∀ slot,
      r.row.slot? = some slot → ∀ call ∈ rows.flatMap (·.calls), ∀ title,
        call.name ≠ .molto2 slot title := by
    intro rows hsub slot hslot call hcall title hname
    obtain ⟨other, hother, hcall⟩ := List.mem_flatMap.mp hcall
    have hmem : other ∈ (run file plan
        (moltoImportStore MoltoToken.io display displayTimeout) token).rows := by
      rw [hrows]
      rcases List.mem_append.mp (hsub hother) with h | h
      · exact List.mem_append_left _ h
      · exact List.mem_append_right _ (List.mem_cons_of_mem _ h)
    have hsame := (hsound.honest other hmem).own call hcall
    rw [hname] at hsame
    refine hslots.1 (List.mem_map.mpr ⟨other, hsub hother, ?_⟩)
    exact (slot?_of_name hsame).trans hslot.symm
  refine ⟨s, u, hown, (made_keeps hbefore).1, fun slot hslot => ⟨?_, ?_⟩⟩
  · exact (made_keeps hbefore).2 slot
      (hothers before (List.subset_append_left _ _) slot hslot)
  · exact (made_keeps hafter).2 slot
      (hothers after (List.subset_append_right _ _) slot hslot)

/-! ### A planned row -/

/-- What the planner promises of a row that writes to a Molto2: the item is usable and its
parameters are ones that the token knows, the title fits, the slot exists, and the verdict says
whether it is in use. -/
structure MoltoPlanned (target : Target) (row : PlanRow) (item : ImportItem)
    (entry : ImportEntry) (slot : UInt8) (title : RustStr) : Prop where
  index : row.index = item.index
  usable : item.entry = .ok entry
  name : row.name = some (.molto2 slot title)
  params : ParamsFit entry .molto2 (limits .molto2)
  title : title ≠ [] ∧ title.len ≤ 12
  last : slot.toNat ≤ MOLTO_LAST_SLOT
  verdict : row.verdict = if slotOccupied target.existing slot then .replace else .add

variable {file : ImportFile} {target : Target} {wants : PlanRow → Bool}

theorem planned_of_writes (hstore : target.store = .molto2) {row : PlanRow}
    (hrow : row ∈ ((plan file target).setTouch wants).writes) :
    ∃ item ∈ file.items, ∃ entry slot title,
      MoltoPlanned target row item entry slot title := by
  obtain ⟨hmem, hwrites⟩ := List.mem_filter.mp hrow
  obtain ⟨rowsBefore, rowsAfter, hrows⟩ := List.append_of_mem hmem
  obtain ⟨before, item, after, hitems, -, hcarried⟩ := item_at hrows
  have hfirst := hcarried.writes hwrites
  have hverdict := hcarried.verdict_eq hwrites
  have hname := hcarried.name
  have hindex := hcarried.index
  have hturn := turn_decideItem target (stateAfter target before) item
  simp only [planStep] at hfirst hverdict hname hindex
  generalize decideItem target (stateAfter target before) item = d at *
  cases hturn with
  | refused hrefuses _ => simp [PlanRow.writes, Decision.row, hrefuses.1] at hfirst
  | named hnamed _ _ => exact absurd hstore hnamed
  | @slot _ title htitle hlast =>
      obtain ⟨entry, hentry, hparams, rfl, hne⟩ := slotTitle_eq_some.mp htitle
      refine ⟨item, by simp [hitems], entry, _, _, hindex, hentry, hname,
        checkParams_eq_ok.mp hparams, ⟨hne, len_moltoTitle_le _ _⟩, ?_, hverdict⟩
      have hlast : (stateAfter target before).nextSlot ≤ 99 := hlast
      rw [show MOLTO_LAST_SLOT = 99 from rfl, Nat.toUInt8, UInt8.toNat_ofNat']
      omega

theorem nodup_slots (hstore : target.store = .molto2) :
    (((plan file target).setTouch wants).writes.map (·.slot?)).Nodup := by
  have hsame : ((plan file target).setTouch wants).writes.map (·.slot?) =
      ((planRows file.items target).filter (·.writes)).map (·.slot?) := by
    have hslots : List.Forall₂ (fun a b => a = b)
        (((planRows file.items target).filter (·.writes)).map (·.slot?))
        (((plan file target).setTouch wants).writes.map (·.slot?)) := by
      rw [List.forall₂_map_left_iff, List.forall₂_map_right_iff]
      refine (writes_setTouch file target wants).imp fun row row' h => ?_
      rw [PlanRow.slot?, PlanRow.slot?, h.1]
    rw [List.forall₂_eq_eq_eq] at hslots
    exact hslots.symm
  rw [hsame]
  exact slots_nodup_planRows file.items hstore

end Run

/-! ### What an import leaves -/

section Import

variable {display : TransportError → RustStr} {displayTimeout : DisplayTimeout}
  {file : ImportFile} {plan : Plan} {row : PlanRow} {calls : List Call} {outcome : Outcome}

def moltoTarget (token : MoltoToken) (firstSlot : UInt8) (replace : Bool) : Target where
  store := .molto2
  firstSlot := firstSlot
  existing := token.existing
  replace := replace

/-- The content of a row's slot: the seed, title and parameters of its own entry. -/
def OwnContent (displayTimeout : DisplayTimeout) (file : ImportFile) (row : PlanRow)
    (content : MoltoSlot) : Prop :=
  ∃ (item : ImportItem) (entry : ImportEntry) (w : MoltoWrite) (utcTime : UInt32),
    findItem file row = some item ∧ item.entry = .ok entry ∧
      row.name = some (.molto2 w.slot w.title) ∧ Computes entry w.config ∧
        w.config.displayTimeout = displayTimeout ∧ content = w.content entry utcTime

theorem moltoWrite_ne_exists {name : StoredName} {entry : ImportEntry} {utcTime : UInt32} :
    moltoWrite name entry displayTimeout utcTime ≠ .error .exists_ := by
  have halgorithm : ∀ hash, moltoAlgorithm hash ≠ .error .exists_ := by
    intro hash
    cases hash <;> simp [moltoAlgorithm, moltoUnsupported]
  have hdigits : ∀ d, moltoOtpDigits d ≠ .error .exists_ := by
    intro d h
    unfold moltoOtpDigits at h
    repeat' split at h
    all_goals cases h
  have htimeStep : ∀ kind, moltoTimeStep kind ≠ .error .exists_ := by
    intro kind h
    unfold moltoTimeStep at h
    repeat' split at h
    all_goals cases h
  intro h
  unfold moltoWrite at h
  split at h
  · split at h
    · cases h
    · split at h
      · cases h
      · cases ha : moltoAlgorithm entry.hash with
        | error e =>
            rw [ha] at h
            cases h
            exact halgorithm _ ha
        | ok algorithm =>
            cases hd : moltoOtpDigits entry.digits with
            | error e =>
                rw [ha, hd] at h
                cases h
                exact hdigits _ hd
            | ok digits =>
                cases ht : moltoTimeStep entry.kind with
                | error e =>
                    rw [ha, hd, ht] at h
                    cases h
                    exact htimeStep _ ht
                | ok timeStep =>
                    rw [ha, hd, ht] at h
                    cases h
  · cases h

/-- With an index of its own, the item a row was planned from is found again. -/
theorem findItem_of_nodup (hnodup : (file.items.map (·.index)).Nodup) {item : ImportItem}
    (hmem : item ∈ file.items) (hindex : row.index = item.index) :
    findItem file row = some item := by
  obtain ⟨before, after, hitems⟩ := List.append_of_mem hmem
  refine findItem_first hitems hindex fun earlier hearlier hsame => ?_
  rw [hitems, List.map_append, List.map_cons, List.nodup_middle, List.nodup_cons] at hnodup
  exact hnodup.1 (List.mem_append_left _ (List.mem_map.mpr ⟨earlier, hearlier, hsame⟩))

theorem ownContent_of_write {item : ImportItem} {entry : ImportEntry} {name : StoredName}
    {w : MoltoWrite} (hname : row.name = some name) (hitem : findItem file row = some item)
    (hentry : item.entry = .ok entry) (hw : moltoWrite name entry displayTimeout 0 = .ok w)
    (utcTime : UInt32) : OwnContent displayTimeout file row (w.content entry utcTime) := by
  obtain ⟨rfl, -, -, hcomputes, htimeout, -⟩ := moltoWrite_eq_ok.mp hw
  exact ⟨item, entry, w, utcTime, hitem, hentry, hname, hcomputes, htimeout, rfl⟩

/-- What one row leaves in its slot. -/
theorem row_content {s u : MoltoToken} (hstore : plan.store = .molto2)
    (hwrote : RowWrote file plan row calls outcome)
    (hmade : Made (moltoImportStore MoltoToken.io display displayTimeout) s calls u)
    {slot : UInt8} (hslot : row.slot? = some slot) :
    (outcome.wentThrough = true → OwnContent displayTimeout file row (u.slots slot)) ∧
      (u.slots slot = s.slots slot ∨ ∃ new, OwnContent displayTimeout file row new ∧
        Partly (s.slots slot) new (u.slots slot)) := by
  have hown : ∀ {name : StoredName} {entry : ImportEntry} {w : MoltoWrite},
      row.name = some name → moltoWrite name entry displayTimeout 0 = .ok w → slot = w.slot := by
    rintro name entry w hname hw
    rw [(moltoWrite_eq_ok.mp hw).1] at hname
    exact Option.some.inj (hslot.symm.trans (slot?_of_name hname))
  cases hwrote with
  | skipped hrest =>
      cases hmade
      refine ⟨fun hthrough => ?_, .inl rfl⟩
      rw [← hrest, Outcome.wentThrough_rest] at hthrough
      cases hthrough
  | nameless _ =>
      cases hmade
      exact ⟨fun hthrough => (by cases hthrough), .inl rfl⟩
  | unjoined _ =>
      cases hmade
      exact ⟨fun hthrough => (by cases hthrough), .inl rfl⟩
  | added hname hitem hentry =>
      cases hmade with
      | add hadd hrest =>
          cases hrest
          cases added_of_add hadd with
          | @done w utcTime _ hw hslots _ =>
              have hcontent := ownContent_of_write hname hitem hentry hw utcTime
              rw [hslots, hown hname hw, Function.update_self]
              exact ⟨fun _ => hcontent, .inr ⟨_, hcontent, .all⟩⟩
  | there hname _ _ _ =>
      cases hmade with
      | add hadd hrest =>
          cases hrest
          cases added_of_add hadd with
          | refused hw => exact absurd hw moltoWrite_ne_exists
  | refused hname hitem hentry _ hnot =>
      refine ⟨fun hthrough => ?_, ?_⟩
      · rw [hnot] at hthrough
        cases hthrough
      · cases hmade with
        | add hadd hrest =>
            cases hrest
            cases added_of_add hadd with
            | refused _ => exact .inl rfl
            | @lost w utcTime content _ _ _ _ hw hslots hpartly _ _ =>
                refine .inr ⟨_, ownContent_of_write hname hitem hentry hw utcTime, ?_⟩
                rw [hslots, hown hname hw, Function.update_self]
                exact hpartly
  | kept _ _ _ hmay => exact absurd hstore (mayReplace_eq_true.mp hmay).1
  | lost _ _ _ hmay => exact absurd hstore (mayReplace_eq_true.mp hmay).1
  | replaced _ _ _ hmay => exact absurd hstore (mayReplace_eq_true.mp hmay).1

/-! ### Why a row is not stored -/

/-- A row is stored, or some write of the token ended in an error. -/
def Told (display : TransportError → RustStr) (fate : Nat → Option (TransportError × Bool))
    (outcome : Outcome) : Prop :=
  outcome.wentThrough = true ∨ ∃ n e done, fate n = some (e, done) ∧
    (outcome = .failed (display e) ∨ outcome = .notTried)

/-- The planner keeps out what a slot cannot take: a planned row fails on the token only. -/
theorem writeOne_told {target : Target} {item : ImportItem} {entry : ImportEntry} {slot : UInt8}
    {title : RustStr} (hitem : findItem file row = some item)
    (hplanned : MoltoPlanned target row item entry slot title) (s : MoltoToken) :
    let wrote := writeOne file plan row
      (moltoImportStore MoltoToken.io display displayTimeout) s
    wrote.state.fate = s.fate ∧ Told display s.fate wrote.outcome ∧
      ∀ stop, wrote.stop = some stop →
        stop.rest = .notTried ∧ ∃ n e done, s.fate n = some (e, done) := by
  obtain ⟨config, hcomputes, htimeout, htime⟩ :=
    computes_of_paramsFit hplanned.params displayTimeout 0
  have hwrite : moltoWrite (.molto2 slot title) entry displayTimeout 0 =
      .ok ⟨slot, title, config⟩ :=
    moltoWrite_eq_ok.mpr ⟨rfl, hplanned.title, hplanned.params.secret 63 rfl, hcomputes,
      htimeout, htime⟩
  have hadded : Added display displayTimeout s (.molto2 slot title) entry _ _ :=
    added_moltoAdd s (.molto2 slot title) entry
  obtain ⟨index, label, itemEntry⟩ := item
  obtain rfl : itemEntry = .ok entry := hplanned.usable
  simp only [writeOne, hplanned.name, hitem, writeEntry, moltoImportStore]
  generalize moltoAdd MoltoToken.io display displayTimeout s (.molto2 slot title) entry =
    result at hadded ⊢
  obtain ⟨answer, t⟩ := result
  cases hadded with
  | refused hw =>
      rw [hwrite] at hw
      cases hw
  | done _ _ hfate =>
      refine ⟨hfate, .inl ?_, fun stop hstop => by cases hstop⟩
      simp only [Wrote.of]
      split <;> rfl
  | lost _ _ _ hlost hfate =>
      refine ⟨hfate, .inr ⟨_, _, _, hlost, .inl rfl⟩, fun stop hstop => ?_⟩
      obtain rfl := Option.some.inj hstop
      exact ⟨rfl, _, _, _, hlost⟩

theorem runRows_told {target : Target} {rows : List PlanRow}
    (hrows : ∀ row ∈ rows, ∃ item entry slot title, findItem file row = some item ∧
      MoltoPlanned target row item entry slot title) (stop : Option Stop) (s : MoltoToken)
    (hstop : ∀ st, stop = some st →
      st.rest = .notTried ∧ ∃ n e done, s.fate n = some (e, done)) :
    ∀ r ∈ (runRows file plan (moltoImportStore MoltoToken.io display displayTimeout)
      stop s rows).1, Told display s.fate r.outcome := by
  induction rows generalizing stop s with
  | nil =>
      intro r hr
      cases stop <;> cases hr
  | cons row rows ih =>
      obtain ⟨hrow, hrows⟩ := List.forall_mem_cons.mp hrows
      cases stop with
      | some stop =>
          obtain ⟨hrest, n, e, done, hlost⟩ := hstop stop rfl
          refine List.forall_mem_cons.mpr ⟨.inr ⟨n, e, done, hlost, .inr hrest⟩, ?_⟩
          exact ih hrows (some stop) s hstop
      | none =>
          obtain ⟨item, entry, slot, title, hitem, hplanned⟩ := hrow
          obtain ⟨hfate, htold, hnext⟩ :=
            @writeOne_told display displayTimeout file plan row target item entry slot title
              hitem hplanned s
          refine List.forall_mem_cons.mpr ⟨htold, ?_⟩
          have hlater := ih hrows _ _ (fun st hst => ⟨(hnext st hst).1, hfate ▸ (hnext st hst).2⟩)
          rw [hfate] at hlater
          exact hlater

end Import

/-- Everything an import promises about the token it leaves, slot by slot. The last two are about
files in which every item has an index of its own. -/
structure MoltoImported (display : TransportError → RustStr) (displayTimeout : DisplayTimeout)
    (file : ImportFile) (token : MoltoToken) (result : RunResult MoltoToken) : Prop where
  /-- A code that is reported as stored is the one its slot computes. -/
  stored : ∀ r ∈ result.rows, r.outcome.wentThrough = true → ∀ slot, r.row.slot? = some slot →
    OwnContent displayTimeout file r.row (result.state.slots slot)
  /-- Any other has its slot's parts replaced in order, up to some point. -/
  unfinished : ∀ r ∈ result.rows, ∀ slot, r.row.slot? = some slot →
    result.state.slots slot = token.slots slot ∨ ∃ new,
      OwnContent displayTimeout file r.row new ∧
        Partly (token.slots slot) new (result.state.slots slot)
  /-- No other slot changes. -/
  elsewhere : ∀ slot, (∀ r ∈ result.rows, r.row.slot? ≠ some slot) →
    result.state.slots slot = token.slots slot
  /-- What is said to be added overwrites nothing. -/
  added : ∀ r ∈ result.rows, ∀ slot, r.row.slot? = some slot →
    (r.row.verdict = .add ↔ ¬(token.slots slot).Used)
  /-- A row fails for no other reason than an error of the token. -/
  failed : (file.items.map (·.index)).Nodup → ∀ r ∈ result.rows, ∀ why,
    r.outcome = .failed why → ∃ n e done, token.fate n = some (e, done) ∧ why = display e
  /-- Without an error of the token every code is stored. -/
  healthy : (file.items.map (·.index)).Nodup → (∀ n, token.fate n = none) →
    ∀ r ∈ result.rows, r.outcome.wentThrough = true

theorem moltoImported_of_planned {display : TransportError → RustStr}
    {displayTimeout : DisplayTimeout} {token : MoltoToken} {file : ImportFile} {plan : Plan}
    {target : Target} (hstore : plan.store = .molto2)
    (hexisting : target.existing = token.existing) (hslots : (plan.writes.map (·.slot?)).Nodup)
    (hplanned : ∀ row ∈ plan.writes, ∃ item ∈ file.items, ∃ entry slot title,
      MoltoPlanned target row item entry slot title) :
    MoltoImported display displayTimeout file token
      (run file plan (moltoImportStore MoltoToken.io display displayTimeout) token) := by
  have hsound := runSound_run file plan
    (moltoImportStore MoltoToken.io display displayTimeout) token
  have htold : (file.items.map (·.index)).Nodup → ∀ r ∈ (run file plan
      (moltoImportStore MoltoToken.io display displayTimeout) token).rows,
      Told display token.fate r.outcome := by
    intro hnodup
    have hfound : ∀ row ∈ plan.writes, ∃ item entry slot title, findItem file row = some item ∧
        MoltoPlanned target row item entry slot title := by
      intro row hrow
      obtain ⟨item, hmem, entry, slot, title, hrow⟩ := hplanned row hrow
      exact ⟨item, entry, slot, title, findItem_of_nodup hnodup hmem hrow.index, hrow⟩
    exact runRows_told hfound none token fun _ h => by cases h
  constructor
  case stored =>
    intro r hr hthrough slot hslot
    obtain ⟨s, u, hmade, -, hbetween⟩ := row_between hslots hr
    rw [(hbetween slot hslot).2]
    exact (row_content hstore (hsound.wrote r hr) hmade hslot).1 hthrough
  case unfinished =>
    intro r hr slot hslot
    obtain ⟨s, u, hmade, -, hbetween⟩ := row_between hslots hr
    rw [(hbetween slot hslot).2, ← (hbetween slot hslot).1]
    exact (row_content hstore (hsound.wrote r hr) hmade hslot).2
  case elsewhere =>
    intro slot hother
    refine (made_keeps hsound.made).2 slot fun call hcall title hname => ?_
    obtain ⟨r, hr, hcall⟩ := List.mem_flatMap.mp hcall
    have hown := (hsound.honest r hr).own call hcall
    rw [hname] at hown
    exact hother r hr (slot?_of_name hown)
  case added =>
    intro r hr slot hslot
    have hmem : r.row ∈ plan.writes := hsound.rows ▸ List.mem_map.mpr ⟨r, hr, rfl⟩
    obtain ⟨item, -, entry, own, title, hrow⟩ := hplanned r.row hmem
    obtain rfl := Option.some.inj (hslot.symm.trans (slot?_of_name hrow.name))
    rw [hrow.verdict, hexisting, ← token.slotOccupied_existing hrow.last]
    cases slotOccupied token.existing slot <;> simp
  case failed =>
    intro hnodup r hr why hfailed
    rcases htold hnodup r hr with hthrough | ⟨n, e, done, hlost, houtcome⟩
    · rw [hfailed] at hthrough
      cases hthrough
    · refine ⟨n, e, done, hlost, ?_⟩
      rcases houtcome with h | h
      · exact Outcome.failed.inj (hfailed.symm.trans h)
      · rw [hfailed] at h
        cases h
  case healthy =>
    intro hnodup hfate r hr
    rcases htold hnodup r hr with hthrough | ⟨n, e, done, hlost, -⟩
    · exact hthrough
    · rw [hfate n] at hlost
      cases hlost

/-- **What a Molto2 import reports is what the token holds**, however many of its writes are
lost: a slot whose code is reported as stored computes that code and bears its title; a slot whose
writes were cut short has its parts replaced in order up to there; every other slot is as it was;
only free slots are said to be added to; and in a file whose entries have places of their own a
row fails for no other reason than an error of the token. -/
theorem molto_import_tells_what_it_left (display : TransportError → RustStr)
    (displayTimeout : DisplayTimeout) (token : MoltoToken) (file : ImportFile)
    (firstSlot : UInt8) (replace : Bool) (wants : PlanRow → Bool) :
    MoltoImported display displayTimeout file token
      (run file ((plan file (moltoTarget token firstSlot replace)).setTouch wants)
        (moltoImportStore MoltoToken.io display displayTimeout) token) :=
  moltoImported_of_planned rfl rfl (nodup_slots rfl) fun _ hrow => planned_of_writes rfl hrow

end Keyroost.Transport
