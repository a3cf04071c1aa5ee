import Keyroost.OpenPgp.KeySetCard

/-!
# One key of a set

Whatever the card answers and whichever answers are lost, but for those to attribute writes, one
key is loaded without touching the other slots, and its own as long as no write is reported. When
it succeeds, the slot holds the key with its time and fingerprint.

`Progress` is what holds between the steps of `KeySet` while a slot is worked on, and each function
that the loading of a key calls has its own lemma in these terms (`ensures_setAlgorithm`,
`ensures_putKeyImport`, `ensures_importAnyTracked`); those that only read leave everything as it is
(`Reads`). `ensures_importOne` is the whole.
-/

namespace Keyroost.OpenPgp

/-! ### Errors -/

def CardError.isPartial : CardError → Bool
  | .openPgpKeySetPartial .. => true
  | _ => false

/-- No error of the result is one of a whole set. -/
def Plainly {α : Type} (r : Answered α) : Prop := ∀ e, r = .error e → e.isPartial = false

theorem plainly_ok {α : Type} (a : α) : Plainly (.ok a : Answered α) := nofun

theorem plainly_error {α : Type} {e : CardError} (h : e.isPartial = false) :
    Plainly (.error e : Answered α) := by
  rintro _ ⟨⟩
  exact h

theorem plainly_mapError {α ε : Type} {f : ε → CardError} (hf : ∀ e, (f e).isPartial = false)
    (r : Except ε α) : Plainly (r.mapError f) := by
  rcases r with e | a
  · exact plainly_error (hf e)
  · exact plainly_ok a

namespace Plainly

variable {α β : Type} {r : Answered α}

theorem bind (h : Plainly r) {f : α → Answered β} (hf : ∀ a, Plainly (f a)) :
    Plainly (r.bind f) := by
  rcases r with e | a
  · exact plainly_error (h e rfl)
  · exact hf a

theorem map (h : Plainly r) (f : α → β) : Plainly (r.map f) := by
  rcases r with e | a
  · exact plainly_error (h e rfl)
  · exact plainly_ok (f a)

end Plainly

theorem plainly_okOrApdu (label : String) (sw : UInt16) : Plainly (okOrApdu label sw) := by
  rw [okOrApdu]
  split
  · exact plainly_ok ()
  · exact plainly_error rfl

theorem plainly_asRsa (crt : KeyCrt) (attr : List UInt8) : Plainly (asRsa crt attr) := by
  rw [asRsa]
  split
  · exact plainly_ok _
  · exact plainly_error rfl
  · exact plainly_error rfl

theorem plainly_checkImport (crt : KeyCrt) (alg : KeyAlg) (key : ImportKey) :
    Plainly (checkImport crt alg key) := by
  refine (plainly_mapError (fun _ => rfl) _).bind fun _ => ?_
  split
  · exact plainly_ok ()
  · exact plainly_error rfl

theorem plainly_checkEach (keys : List KeyImport) : Plainly (checkEach keys) := by
  induction keys with
  | nil => exact plainly_ok ()
  | cons k keys ih => exact (plainly_checkImport k.crt k.alg k.key).bind fun _ => ih

/-- The exponent against the attributes of an RSA slot. -/
theorem plainly_exponent (crt : KeyCrt) (parts : RsaPrivateKeyParts) (attrs : List UInt8) :
    Plainly ((asRsa crt attrs).bind fun attributes =>
      if rsaExponentFits parts.e attributes.eBits = true then .ok ()
      else .error .openPgpExponentTooWide) := by
  refine (plainly_asRsa crt attrs).bind fun attributes => ?_
  split
  · exact plainly_ok ()
  · exact plainly_error rfl

theorem plainly_preflight (k : KeyImport) (current : List UInt8)
    (fa : Option AlgorithmInformation) : Plainly (preflight k current fa) := by
  rw [preflight]
  split
  · exact plainly_error rfl
  · rcases k.key with parts | parts
    · dsimp only
      split
      · exact (plainly_mapError (fun _ => rfl) _).bind fun attrs =>
          plainly_exponent k.crt parts attrs
      · exact plainly_exponent k.crt parts current
    · exact plainly_ok ()

/-! ### One exchange -/

section

variable {s : OpenPgpCard} {m : Bool}

/-- What follows one exchange, by its answer. -/
theorem ensures_transmitFull {q : CardAsk} {Post : Answered (List UInt8 × UInt16) → Bool →
    OpenPgpCard → Prop} (hdone : ∀ data, Post (.ok (data, SW_OK)) m (q.carriedOut s))
    (hrefused : ∀ data sw, sw ≠ SW_OK → Post (.ok (data, sw)) m s.idle)
    (hlost : (∀ crt attr, q ≠ .putAlgorithmAttributes crt attr) →
      ∀ t, t = q.carriedOut s ∨ t = s.idle → Post (.error .lost) m t) :
    Session.Ensures answeringCard Post (transmitFull q) m s := by
  refine Session.ensures_bind (Session.ensures_ask ?_)
  rintro (e | ⟨data, sw⟩) t ⟨hstep, hanswered⟩
  · exact hlost (fun crt attr hq => hanswered crt attr e hq rfl) t hstep
  · replace hstep : if sw = SW_OK then t = q.carriedOut s else t = s.idle := hstep
    split at hstep
    · rename_i hsw
      rw [hsw, hstep]
      exact hdone data
    · rename_i hsw
      rw [hstep]
      exact hrefused data sw hsw

/-- A write that is answered with 9000 was carried out, and without that it was or was not. -/
theorem ensures_transmitStatus (q : CardAsk) (label : String) :
    Session.Ensures answeringCard (fun r n t => n = m ∧ Plainly r ∧
      (t = q.carriedOut s ∨ t = s.idle) ∧ (r = .ok () → t = q.carriedOut s))
      (transmitStatus q label) m s := by
  refine Session.ensures_andThen (ensures_transmitFull ?_ ?_ ?_)
  · refine fun data => ⟨nofun, ?_⟩
    rintro _ ⟨⟩
    exact Session.ensures_pure ⟨rfl, plainly_okOrApdu _ _, .inl rfl, fun _ => rfl⟩
  · refine fun data sw hsw => ⟨nofun, ?_⟩
    rintro _ ⟨⟩
    refine Session.ensures_pure ⟨rfl, plainly_okOrApdu _ _, .inr rfl, fun hok => ?_⟩
    rw [okOrApdu, if_neg hsw] at hok
    cases hok
  · refine fun _ t ht => ⟨?_, nofun⟩
    rintro _ ⟨⟩
    exact ⟨rfl, plainly_error rfl, ht, nofun⟩

end

/-! ### Reading -/

/-- A program that changes no slot and no memory, and ends in no chain. -/
def Reads {α : Type} (p : CardTalk (Answered α)) : Prop :=
  ∀ m s, Session.Ensures answeringCard (fun r n t => n = m ∧ t = s.idle ∧ Plainly r) p m s

theorem reads_transmitFull {q : CardAsk} (h : q.isWrite = false) : Reads (transmitFull q) := by
  intro m s
  have hsame : q.carriedOut s = s.idle := carriedOut_read h s
  refine ensures_transmitFull ?_ ?_ ?_
  · exact fun data => ⟨rfl, hsame, plainly_ok _⟩
  · exact fun data sw _ => ⟨rfl, rfl, plainly_ok _⟩
  · rintro - t (rfl | rfl)
    · exact ⟨rfl, hsame, plainly_error rfl⟩
    · exact ⟨rfl, rfl, plainly_error rfl⟩

theorem Reads.followed {α β : Type} {p : CardTalk (Answered α)} (hp : Reads p)
    {f : α → Answered β} (hf : ∀ a, Plainly (f a)) :
    Reads (Session.andThen p fun a => pure (f a)) := by
  intro m s
  refine Session.ensures_andThen ((hp m s).mono ?_)
  rintro r n t ⟨hn, ht, hplain⟩
  constructor
  · rintro e rfl
    exact ⟨hn, ht, plainly_error (hplain e rfl)⟩
  · exact fun a _ => Session.ensures_pure ⟨hn, ht, hf a⟩

theorem reads_algorithmAttributes (crt : KeyCrt) : Reads (algorithmAttributes crt) :=
  (reads_transmitFull rfl).followed fun _ => (plainly_okOrApdu _ _).bind fun _ =>
    (plainly_mapError (fun _ => rfl) _).map _

theorem reads_supportedAlgorithms : Reads supportedAlgorithms :=
  (reads_transmitFull rfl).followed fun _ => plainly_ok _

theorem reads_rsaAttributes (crt : KeyCrt) : Reads (rsaAttributes crt) :=
  (reads_algorithmAttributes crt).followed fun attr => plainly_asRsa crt attr

theorem reads_readPublicKey (crt : KeyCrt) : Reads (readPublicKey crt) :=
  (reads_transmitFull rfl).followed fun _ => (plainly_okOrApdu _ _).bind fun _ =>
    plainly_mapError (fun _ => rfl) _

/-! ### Loading one slot -/

/-- The others are as they were, and this one too as long as no write was sent. -/
structure Progress (crt : KeyCrt) (s₀ : OpenPgpCard) (m : Bool) (s : OpenPgpCard) : Prop where
  elsewhere : ∀ other, other ≠ crt → s.slot other = s₀.slot other
  untouched : m = false → s.slot crt = s₀.slot crt

/-- As above, with no chain open, so that the next command is taken for what it is. -/
structure Calm (crt : KeyCrt) (s₀ : OpenPgpCard) (m : Bool) (s : OpenPgpCard) : Prop extends
    Progress crt s₀ m s where
  chain : s.chain = []

/-- How a part of the import may end. When it succeeds, a write was sent and the slot is as it
should be. An error is never the one for a set of which some keys were changed: that one is made of
it by the loop over the keys. -/
structure Outcome (crt : KeyCrt) (s₀ : OpenPgpCard) (Good : OpenPgpCard → Prop)
    (r : Answered Unit) (m : Bool) (s : OpenPgpCard) : Prop where
  progress : Progress crt s₀ m s
  plain : Plainly r
  good : r = .ok () → m = true ∧ Good s

section

variable {crt : KeyCrt} {s₀ s t : OpenPgpCard} {m : Bool} {Good : OpenPgpCard → Prop}

theorem Progress.start (crt : KeyCrt) (s : OpenPgpCard) : Progress crt s false s :=
  ⟨fun _ _ => rfl, fun _ => rfl⟩

theorem Progress.of_slot (h : Progress crt s₀ m s) (hslot : t.slot = s.slot) :
    Progress crt s₀ m t where
  elsewhere other hother := by rw [hslot, h.elsewhere other hother]
  untouched hm := by rw [hslot, h.untouched hm]

theorem Progress.sent (h : Progress crt s₀ m s) : Progress crt s₀ true s :=
  ⟨h.elsewhere, nofun⟩

theorem Progress.change (h : Progress crt s₀ m s) (new : CardSlot) :
    Progress crt s₀ true (s.change crt new) where
  elsewhere other hother := by rw [change_elsewhere s new hother, h.elsewhere other hother]
  untouched := nofun

theorem Progress.failed (h : Progress crt s₀ m s) {e : CardError}
    (he : Plainly (.error e : Answered Unit)) : Outcome crt s₀ Good (.error e) m s :=
  ⟨h, he, nofun⟩

/-- After what was read, or was set up, comes the rest. -/
theorem Calm.andThen {α : Type} {p : CardTalk (Answered α)} {f : α → CardTalk (Answered Unit)}
    (hp : Session.Ensures answeringCard (fun r n t => Calm crt s₀ n t ∧ Plainly r) p m s)
    (hf : ∀ a n t, Calm crt s₀ n t →
      Session.Ensures answeringCard (Outcome crt s₀ Good) (f a) n t) :
    Session.Ensures answeringCard (Outcome crt s₀ Good) (Session.andThen p f) m s := by
  refine Session.ensures_andThen (hp.mono ?_)
  rintro r n t ⟨hcalm, hplain⟩
  constructor
  · rintro e rfl
    exact hcalm.toProgress.failed (plainly_error (hplain e rfl))
  · exact fun a _ => hf a n t hcalm

theorem Reads.calm {α : Type} {p : CardTalk (Answered α)} (hp : Reads p)
    (h : Progress crt s₀ m s) :
    Session.Ensures answeringCard (fun r n t => Calm crt s₀ n t ∧ Plainly r) p m s := by
  refine (hp m s).mono ?_
  rintro r n t ⟨rfl, rfl, hplain⟩
  exact ⟨⟨h.of_slot rfl, rfl⟩, hplain⟩

/-! ### A key in one command or a chain -/

theorem ensures_transmitChain (label : String) (links : List (List UInt8)) (chunk : List UInt8)
    (h : Progress crt s₀ true s) :
    Session.Ensures answeringCard (Outcome crt s₀ fun t =>
      (t.slot crt).key = some (s.chain ++ (chunk :: links).flatten))
      (transmitChain crt label (chunk :: links)) true s := by
  induction links generalizing chunk s with
  | nil =>
      refine (ensures_transmitStatus _ label).mono ?_
      rintro r n t ⟨rfl, hplain, ht, hok⟩
      refine ⟨?_, hplain, fun hr => ⟨rfl, ?_⟩⟩
      · rcases ht with rfl | rfl
        · exact h.change _
        · exact h.of_slot rfl
      · rw [hok hr, List.flatten_cons, List.flatten_nil, List.append_nil]
        exact congrArg CardSlot.key (change_slot s crt _)
  | cons next links ih =>
      refine Session.ensures_andThen ((ensures_transmitStatus _ label).mono ?_)
      rintro r n t ⟨rfl, hplain, ht, hok⟩
      constructor
      · rintro e rfl
        refine Progress.failed ?_ (plainly_error (hplain e rfl))
        rcases ht with rfl | rfl
        · exact h.of_slot rfl
        · exact h.of_slot rfl
      · rintro _ rfl
        obtain rfl := hok rfl
        have hlink : Progress crt s₀ true ((CardAsk.importLink crt false chunk).carriedOut s) :=
          h.of_slot rfl
        refine (ih next hlink).mono fun r n t hout => ⟨hout.progress, hout.plain, ?_⟩
        intro hr
        obtain ⟨hn, hkey⟩ := hout.good hr
        refine ⟨hn, hkey.trans ?_⟩
        rw [List.flatten_cons (l := chunk), ← List.append_assoc]
        rfl

theorem importLinks_eq (object : List UInt8) :
    ∃ chunk links, importLinks object = chunk :: links ∧ (chunk :: links).flatten = object := by
  rw [importLinks]
  split
  · rename_i hnil
    exact ⟨[], [], rfl, hnil.symm⟩
  · rename_i hobject
    have hflat : (Piv.chunks 254 object).flatten = object := Piv.flatten_chunks (by decide) object
    have hne : Piv.chunks 254 object ≠ [] := by
      intro hnil
      rw [hnil] at hflat
      exact hobject hflat.symm
    obtain ⟨chunk, links, hlinks⟩ := List.exists_cons_of_ne_nil hne
    exact ⟨chunk, links, hlinks, hlinks ▸ hflat⟩

theorem ensures_importLinks (label : String) (object : List UInt8) (h : Calm crt s₀ true s) :
    Session.Ensures answeringCard (Outcome crt s₀ fun t => (t.slot crt).key = some object)
      (transmitChain crt label (importLinks object)) true s := by
  obtain ⟨chunk, links, hlinks, hflat⟩ := importLinks_eq object
  have hsent := ensures_transmitChain label links chunk h.toProgress
  rwa [h.chain, List.nil_append, hflat, ← hlinks] at hsent

theorem ensures_putKeyImport (forced : Bool) (object : List UInt8) (h : Calm crt s₀ true s) :
    Session.Ensures answeringCard (Outcome crt s₀ fun t => (t.slot crt).key = some object)
      (putKeyImport forced crt object) true s := by
  rw [putKeyImport]
  split
  · exact ensures_importLinks _ object h
  · refine Session.ensures_andThen (ensures_transmitFull ?_ ?_ ?_)
    · refine fun data => ⟨nofun, ?_⟩
      rintro _ ⟨⟩
      refine Session.ensures_pure ⟨h.toProgress.change _, plainly_ok (), fun _ => ⟨rfl, ?_⟩⟩
      exact congrArg CardSlot.key (change_slot s crt _)
    · refine fun data sw hsw => ⟨nofun, ?_⟩
      rintro _ ⟨⟩
      rw [if_neg hsw]
      have hidle : Calm crt s₀ true s.idle := ⟨h.toProgress.of_slot rfl, rfl⟩
      split
      · refine Session.ensures_pure ⟨hidle.toProgress, plainly_okOrApdu _ _, fun hok => ?_⟩
        rw [okOrApdu, if_neg hsw] at hok
        cases hok
      · exact ensures_importLinks _ object hidle
    · refine fun _ t ht => ⟨?_, nofun⟩
      rintro _ ⟨⟩
      refine Progress.failed ?_ (plainly_error rfl)
      rcases ht with rfl | rfl
      · exact h.toProgress.change _
      · exact h.toProgress.of_slot rfl

theorem ensures_sendObject (forced : Bool) (object : List UInt8) (h : Calm crt s₀ m s) :
    Session.Ensures answeringCard (Outcome crt s₀ fun t => (t.slot crt).key = some object)
      (sendObject forced crt object) m s := by
  rw [sendObject]
  split
  · exact Session.ensures_pure (h.toProgress.failed (plainly_error rfl))
  · exact Session.ensures_bind
      (Session.ensures_set (ensures_putKeyImport forced object ⟨h.toProgress.sent, h.chain⟩))

theorem Outcome.weaken {Good' : OpenPgpCard → Prop} {r : Answered Unit}
    (h : Outcome crt s₀ Good r m s) (himp : ∀ t, Good t → Good' t) :
    Outcome crt s₀ Good' r m s :=
  ⟨h.progress, h.plain, fun hr => ⟨(h.good hr).1, himp s (h.good hr).2⟩⟩

end

/-! ### One key -/

section

variable {k : KeyImport} {s₀ s : OpenPgpCard} {m : Bool}

/-- Its slot holds the key. -/
def Loaded (k : KeyImport) (s : OpenPgpCard) : Prop :=
  ∃ object, (s.slot k.crt).key = some object ∧ ObjectOf k object

theorem ensures_importRsaTracked (forced : Bool) {parts : RsaPrivateKeyParts}
    (hkey : k.key = .rsa parts) (h : Progress k.crt s₀ m s) :
    Session.Ensures answeringCard (Outcome k.crt s₀ (Loaded k))
      (importRsaTracked forced k.crt parts) m s := by
  refine Calm.andThen ((reads_rsaAttributes k.crt).calm h) fun attrs n t hcalm => ?_
  split
  · exact Session.ensures_pure (hcalm.toProgress.failed (plainly_error rfl))
  · split
    · exact Session.ensures_pure (hcalm.toProgress.failed (plainly_error rfl))
    · rename_i object hobject
      refine (ensures_sendObject forced object hcalm).mono fun r n t hout => hout.weaken ?_
      refine fun t ht => ⟨object, ht, ?_⟩
      rw [ObjectOf, hkey]
      exact ⟨attrs.format, attrs.eBits, hobject⟩

theorem ensures_importEccTracked (forced : Bool) {parts : EccPrivateKeyParts}
    (hkey : k.key = .ecc parts) (attr : List UInt8) (h : Calm k.crt s₀ m s) :
    Session.Ensures answeringCard (Outcome k.crt s₀ (Loaded k))
      (importEccTracked forced k.crt k.alg parts attr) m s := by
  rw [importEccTracked]
  split
  · exact Session.ensures_pure (h.toProgress.failed (plainly_error rfl))
  · exact Session.ensures_pure (h.toProgress.failed (plainly_error rfl))
  · rename_i object hobject
    refine (ensures_sendObject forced object h).mono fun r n t hout => hout.weaken ?_
    refine fun t ht => ⟨object, ht, ?_⟩
    rw [ObjectOf, hkey]
    exact ⟨attr, hobject⟩

/-- An attribute write is answered, so the slot is as it was unless the write succeeded. -/
theorem ensures_setAlgorithm (alg : KeyAlg) {crt : KeyCrt} (h : Calm crt s₀ m s) :
    Session.Ensures answeringCard (fun r n t => Calm crt s₀ (n || r.toOption.isSome) t ∧
      n = m ∧ Plainly r) (setAlgorithm crt alg) m s := by
  rw [setAlgorithm]
  split
  · exact Session.ensures_pure ⟨(Bool.or_false m).symm ▸ h, rfl, plainly_error rfl⟩
  · refine Session.ensures_andThen (ensures_transmitFull ?_ ?_ ?_)
    · refine fun data => ⟨nofun, ?_⟩
      rintro _ ⟨⟩
      refine Session.ensures_pure ⟨?_, rfl, plainly_ok ()⟩
      exact (Bool.or_true m).symm ▸ ⟨h.toProgress.change _, rfl⟩
    · refine fun data sw hsw => ⟨nofun, ?_⟩
      rintro _ ⟨⟩
      have hidle : Calm crt s₀ m s.idle := ⟨h.toProgress.of_slot rfl, rfl⟩
      refine Session.ensures_pure ?_
      split
      · exact ⟨(Bool.or_false m).symm ▸ hidle, rfl, plainly_error rfl⟩
      · rw [okOrApdu, if_neg hsw]
        exact ⟨(Bool.or_false m).symm ▸ hidle, rfl, plainly_error rfl⟩
    · exact fun hq => absurd rfl (hq crt _)

theorem ensures_importAnyTracked (forced : Bool) (h : Progress k.crt s₀ m s) :
    Session.Ensures answeringCard (Outcome k.crt s₀ (Loaded k))
      (importAnyTracked forced k.crt k.alg k.key) m s := by
  refine Session.ensures_andThen (Session.ensures_pure ⟨?_, fun _ _ => ?_⟩)
  · exact fun e he => h.failed (plainly_error (plainly_checkImport k.crt k.alg k.key e he))
  refine Calm.andThen ((reads_algorithmAttributes k.crt).calm h) fun current n t hcalm => ?_
  refine Calm.andThen ?_ fun wasSet n t hcalm => ?_
  · split
    · refine Session.ensures_andThen ((ensures_setAlgorithm k.alg hcalm).mono ?_)
      rintro r n t ⟨hset, rfl, hplain⟩
      constructor
      · rintro e rfl
        exact ⟨Bool.or_false n ▸ hset, plainly_error (hplain e rfl)⟩
      · rintro _ rfl
        refine Session.ensures_bind (Session.ensures_set (Session.ensures_pure ?_))
        exact ⟨Bool.or_true n ▸ hset, plainly_ok true⟩
    · exact Session.ensures_pure ⟨hcalm, plainly_ok false⟩
  · split
    · exact ensures_importRsaTracked forced ‹_› hcalm.toProgress
    · refine Calm.andThen ?_ fun attr n t hcalm => ensures_importEccTracked forced ‹_› attr hcalm
      split
      · exact (reads_algorithmAttributes k.crt).calm hcalm.toProgress
      · exact Session.ensures_pure ⟨hcalm, plainly_ok current⟩

/-- The slot of a key that was read back, with both writes carried out. -/
theorem registered_writes (h : Loaded k s) : Registered k
    ((CardAsk.putFingerprint k.crt k.expectFpr).carriedOut
      ((CardAsk.putGenerationTime k.crt k.created).carriedOut s.idle)) := by
  obtain ⟨object, hkey, hobject⟩ := h
  have hslot : (((CardAsk.putFingerprint k.crt k.expectFpr).carriedOut
      ((CardAsk.putGenerationTime k.crt k.created).carriedOut s.idle)).slot k.crt) =
        { s.slot k.crt with created := some k.created, fingerprint := some k.expectFpr } := by
    refine (change_slot _ k.crt _).trans ?_
    rw [CardAsk.carriedOut, change_slot]
    rfl
  constructor
  · rw [hslot]
    exact ⟨object, hkey, hobject⟩
  · rw [hslot]
  · rw [hslot]

/-- **One key: a success is a slot that holds it, registered.** -/
theorem ensures_importOne (forced : Bool) (h : Progress k.crt s₀ m s) :
    Session.Ensures answeringCard (Outcome k.crt s₀ (Registered k)) (importOne forced k) m s := by
  refine Session.ensures_andThen ((ensures_importAnyTracked forced h).mono ?_)
  refine fun r n t hout => ⟨?_, ?_⟩
  · rintro e rfl
    exact hout.progress.failed hout.plain
  rintro _ rfl
  obtain ⟨rfl, hloaded⟩ := hout.good rfl
  refine Session.ensures_andThen (((reads_readPublicKey k.crt) true t).mono ?_)
  rintro r n t' ⟨rfl, rfl, hplain⟩
  have hidle : Progress k.crt s₀ true t.idle := hout.progress.of_slot rfl
  refine ⟨?_, fun got _ => ?_⟩
  · rintro e rfl
    exact hidle.failed (plainly_error (hplain e rfl))
  split
  · exact Session.ensures_pure (hidle.failed (plainly_error rfl))
  refine Session.ensures_andThen ((ensures_transmitStatus _ _).mono ?_)
  rintro r n t' ⟨rfl, hplain, ht', hok⟩
  have hcreated : Progress k.crt s₀ true t' := by
    rcases ht' with rfl | rfl
    · exact hidle.change _
    · exact hidle.of_slot rfl
  refine ⟨?_, ?_⟩
  · rintro e rfl
    exact hcreated.failed hplain
  rintro _ rfl
  obtain rfl := hok rfl
  refine (ensures_transmitStatus _ _).mono ?_
  rintro r n t' ⟨rfl, hplain, ht', hok⟩
  refine ⟨?_, hplain, fun hr => ⟨rfl, ?_⟩⟩
  · rcases ht' with rfl | rfl
    · exact hcreated.change _
    · exact hcreated.of_slot rfl
  · rw [hok hr]
    exact registered_writes hloaded

end

end Keyroost.OpenPgp
