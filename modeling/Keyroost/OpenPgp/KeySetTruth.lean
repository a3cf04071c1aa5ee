import Keyroost.OpenPgp.KeySetSteps

/-!
# What an import of a key set reports

The result of an import (`importKeySet` of `KeySet`) tells which slots hold their new keys and
which are as they were, as long as the card answers every attribute write. The checks come before
all of it.

`Loading` is the invariant of the loop over the keys: those that are done are registered, and all
other slots are untouched. `ensures_importEach` keeps it by induction on the keys that are left,
with `ensures_importOne` for one of them. The second half is about the log of the conversation:
nothing is written before the last check has passed (`CheckedFirst`).

`importKeySet_truthful` states both, and `importKeySet_not_exact` has two runs that lose an answer
and show that more cannot be said.
-/

namespace Keyroost.OpenPgp

open Dialogue (Says)

/-! ### A set of keys -/

/-- Every key of the list is registered in its slot, and the other slots are as they were. This is
the invariant of the loop over the keys. -/
structure Loading (keys : List KeyImport) (s₀ s : OpenPgpCard) : Prop where
  registered : ∀ k ∈ keys, Registered k s
  elsewhere : ∀ crt, crt ∉ keys.map KeyImport.crt → s.slot crt = s₀.slot crt

/-- The keys in front are registered; the slot of the next one is as it was if nothing changed
it, and the others are. -/
structure Stopped (front : List KeyImport) (k : KeyImport) (changed : Bool)
    (s₀ s : OpenPgpCard) : Prop where
  registered : ∀ k' ∈ front, Registered k' s
  failed : changed = false → s.slot k.crt = s₀.slot k.crt
  elsewhere : ∀ crt, crt ≠ k.crt → crt ∉ front.map KeyImport.crt → s.slot crt = s₀.slot crt

def crtLabels (keys : List KeyImport) : List String := keys.map fun k => crtLabel k.crt

/-- What an error says of the card. A panic says nothing. -/
def TruthfulError (keys : List KeyImport) (s₀ s : OpenPgpCard) : CardError → Prop
  | .openPgpKeySetPartial done failed changed _ => ∃ front k back, keys = front ++ k :: back ∧
      done = crtLabels front ∧ failed = crtLabel k.crt ∧ Stopped front k changed s₀ s
  | .panicked => True
  | _ => s.slot = s₀.slot

/-- What a result says of the card. -/
def Truthful {α : Type} (keys : List KeyImport) (s₀ s : OpenPgpCard) : Answered α → Prop
  | .ok _ => Loading keys s₀ s
  | .error e => TruthfulError keys s₀ s e

section

variable {keys front back : List KeyImport} {k : KeyImport} {s₀ s t : OpenPgpCard} {m : Bool}

theorem Registered.of_slot (h : Registered k s) (hslot : t.slot k.crt = s.slot k.crt) :
    Registered k t := by
  constructor
  · rw [hslot]
    exact h.key
  · rw [hslot]
    exact h.created
  · rw [hslot]
    exact h.fingerprint

theorem Loading.nil (hslot : s.slot = s₀.slot) : Loading [] s₀ s where
  registered := nofun
  elsewhere crt _ := congrFun hslot crt

/-- Progress at a slot of its own leaves those before registered. -/
theorem Loading.kept (h : Loading front s₀ s) (hk : k.crt ∉ front.map KeyImport.crt)
    (hprogress : Progress k.crt s m t) : ∀ k' ∈ front, Registered k' t := by
  intro k' hk'
  refine (h.registered k' hk').of_slot (hprogress.elsewhere k'.crt ?_)
  intro hsame
  exact hk (hsame ▸ List.mem_map_of_mem hk')

theorem Loading.snoc (h : Loading front s₀ s) (hk : k.crt ∉ front.map KeyImport.crt)
    (hprogress : Progress k.crt s m t) (hregistered : Registered k t) :
    Loading (front ++ [k]) s₀ t where
  registered := by
    intro k' hk'
    rcases List.mem_append.mp hk' with hk' | hk'
    · exact h.kept hk hprogress k' hk'
    · obtain rfl := List.mem_singleton.mp hk'
      exact hregistered
  elsewhere := by
    intro crt hcrt
    rw [List.map_append, List.mem_append, not_or] at hcrt
    rw [hprogress.elsewhere crt fun hsame => hcrt.2 (List.mem_singleton.mpr hsame)]
    exact h.elsewhere crt hcrt.1

theorem Loading.stopped (h : Loading front s₀ s) (hk : k.crt ∉ front.map KeyImport.crt)
    (hprogress : Progress k.crt s m t) : Stopped front k m s₀ t where
  registered := h.kept hk hprogress
  failed hm := (hprogress.untouched hm).trans (h.elsewhere k.crt hk)
  elsewhere crt hcrt hfront := (hprogress.elsewhere crt hcrt).trans (h.elsewhere crt hfront)

theorem truthfulError_of_plain {e : CardError} (he : e.isPartial = false)
    (hslot : s.slot = s₀.slot) : TruthfulError keys s₀ s e := by
  cases e with
  | openPgpKeySetPartial => cases he
  | panicked => trivial
  | _ => exact hslot

theorem truthful_slotFailure {cause : CardError} (hload : Loading front s₀ s)
    (hk : k.crt ∉ front.map KeyImport.crt) (hprogress : Progress k.crt s m t)
    (hplain : Plainly (.error cause : Answered Unit)) :
    TruthfulError (front ++ k :: back) s₀ t (slotFailure (crtLabels front) k.crt m cause) := by
  have hstopped : Stopped front k m s₀ t := hload.stopped hk hprogress
  rw [slotFailure]
  split
  · trivial
  · split
    · rename_i hnothing
      obtain ⟨hdone, hm⟩ := hnothing
      obtain rfl := List.map_eq_nil_iff.mp hdone
      refine truthfulError_of_plain (hplain cause rfl) (funext fun crt => ?_)
      by_cases hcrt : crt = k.crt
      · rw [hcrt]
        exact hstopped.failed hm
      · exact hstopped.elsewhere crt hcrt nofun
    · exact ⟨front, k, back, rfl, rfl, rfl, hstopped⟩

/-- The keys one after the other: the induction is on those to come. -/
theorem ensures_importEach (forced : Bool)
    (hdistinct : ((front ++ keys).map KeyImport.crt).Nodup) (hload : Loading front s₀ s) :
    Session.Ensures answeringCard (fun r _ t => Truthful (front ++ keys) s₀ t r)
      (importEach forced front keys) m s := by
  induction keys generalizing front m s with
  | nil =>
      rw [List.append_nil]
      exact Session.ensures_pure hload
  | cons k keys ih =>
      have hk : k.crt ∉ front.map KeyImport.crt := by
        rw [List.map_append, List.map_cons] at hdistinct
        exact fun hmem => (List.nodup_append.mp hdistinct).2.2 _ hmem _ List.mem_cons_self rfl
      refine Session.ensures_bind (Session.ensures_set (Session.ensures_bind
        ((ensures_importOne forced (Progress.start k.crt s)).mono ?_)))
      rintro (cause | ⟨⟩) n t hout
      · refine Session.ensures_bind (Session.ensures_get (Session.ensures_pure ?_))
        exact truthful_slotFailure hload hk hout.progress hout.plain
      · have hnext : Loading (front ++ [k]) s₀ t :=
          hload.snoc hk hout.progress (hout.good rfl).2
        rw [List.append_cons] at hdistinct ⊢
        exact ih hdistinct hnext

/-! ### The checks -/

/-- A program that changes no slot. -/
def Looks {α : Type} (p : CardTalk (Answered α)) : Prop :=
  ∀ m s, Session.Ensures answeringCard (fun r _ t => t.slot = s.slot ∧ Plainly r) p m s

theorem Reads.looks {α : Type} {p : CardTalk (Answered α)} (hp : Reads p) : Looks p := by
  intro m s
  refine (hp m s).mono ?_
  rintro r n t ⟨-, rfl, hplain⟩
  exact ⟨rfl, hplain⟩

theorem looks_pure {α : Type} {r : Answered α} (h : Plainly r) :
    Looks (pure r : CardTalk (Answered α)) := fun _ _ => Session.ensures_pure ⟨rfl, h⟩

theorem Looks.andThen {α β : Type} {p : CardTalk (Answered α)} {f : α → CardTalk (Answered β)}
    (hp : Looks p) (hf : ∀ a, Looks (f a)) : Looks (Session.andThen p f) := by
  intro m s
  refine Session.ensures_andThen ((hp m s).mono ?_)
  rintro r n t ⟨hslot, hplain⟩
  constructor
  · rintro e rfl
    exact ⟨hslot, plainly_error (hplain e rfl)⟩
  · rintro a -
    refine (hf a n t).mono ?_
    rintro r n u ⟨hnext, hplain⟩
    exact ⟨hnext.trans hslot, hplain⟩

theorem looks_preflightEach (fa : Option AlgorithmInformation) (keys : List KeyImport) :
    Looks (preflightEach fa keys) := by
  induction keys with
  | nil => exact looks_pure (plainly_ok ())
  | cons k keys ih =>
      exact (reads_algorithmAttributes k.crt).looks.andThen fun current =>
        (looks_pure (plainly_preflight k current fa)).andThen fun _ => ih

theorem looks_checks (keys : List KeyImport) : Looks (checks keys) :=
  (looks_pure (plainly_checkEach keys)).andThen fun _ =>
    reads_supportedAlgorithms.looks.andThen fun fa => looks_preflightEach fa keys

theorem ensures_importKeySet (forced : Bool) (hdistinct : (keys.map KeyImport.crt).Nodup) :
    Session.Ensures answeringCard (fun r _ t => Truthful keys s t r)
      (importKeySet forced keys) m s := by
  refine Session.ensures_andThen ((looks_checks keys m s).mono ?_)
  rintro r n t ⟨hslot, hplain⟩
  refine ⟨?_, fun _ _ => ?_⟩
  · rintro e rfl
    exact truthfulError_of_plain (hplain e rfl) hslot
  · have hall : (([] ++ keys).map KeyImport.crt).Nodup := hdistinct
    refine Session.ensures_andThen ((ensures_importEach forced hall (.nil hslot)).mono ?_)
    intro r n t htruth
    constructor
    · rintro e rfl
      exact htruth
    · rintro _ rfl
      exact Session.ensures_pure htruth

end

/-! ### What the checks were told -/

/-- The card told a slot's attributes. -/
def Told (log : List (Dialogue.Asked CardReply)) (crt : KeyCrt) (current : List UInt8) : Prop :=
  ∃ data ard, ⟨.getApplicationRelatedData, .ok (data, SW_OK)⟩ ∈ log ∧
    parseApplicationRelatedData data = .ok ard ∧ ard.attributes crt = current

/-- Nothing was written. -/
def OnlyRead (log : List (Dialogue.Asked CardReply)) : Prop := ∀ x ∈ log, x.1.isWrite = false

/-- The card told which algorithms it takes, or that it does not tell. -/
def Published (log : List (Dialogue.Asked CardReply)) (fa : Option AlgorithmInformation) : Prop :=
  ∃ data sw, ⟨.getAlgorithmInformation, .ok (data, sw)⟩ ∈ log ∧
    fa = if sw ≠ SW_OK then none else (parseAlgorithmInformation data).toOption

/-- A key passes every check against what the card told of its slot. -/
def Passes (log : List (Dialogue.Asked CardReply)) (fa : Option AlgorithmInformation)
    (k : KeyImport) : Prop :=
  checkImport k.crt k.alg k.key = .ok () ∧
    ∃ current, Told log k.crt current ∧ preflight k current fa = .ok ()

/-- Either nothing was written and the result is an error, or every key of the set passed the
checks on what was read before the rest. -/
def CheckedFirst {α : Type} (keys : List KeyImport) (log : List (Dialogue.Asked CardReply))
    (r : Answered α) : Prop :=
  (OnlyRead log ∧ ∃ e, r = .error e) ∨
    ∃ first rest fa, log = first ++ rest ∧ OnlyRead first ∧ Published first fa ∧
      ∀ k ∈ keys, Passes first fa k

section

variable {keys : List KeyImport} {m n : Bool} {log : List (Dialogue.Asked CardReply)}

theorem onlyRead_nil : OnlyRead [] := nofun

theorem OnlyRead.append {first rest : List (Dialogue.Asked CardReply)} (h : OnlyRead first)
    (h' : OnlyRead rest) : OnlyRead (first ++ rest) := by
  intro x hx
  rcases List.mem_append.mp hx with hx | hx
  · exact h x hx
  · exact h' x hx

theorem Told.mono {crt : KeyCrt} {current : List UInt8}
    {more : List (Dialogue.Asked CardReply)} (h : Told log crt current)
    (hmore : ∀ x ∈ log, x ∈ more) : Told more crt current := by
  obtain ⟨data, ard, hmem, hard⟩ := h
  exact ⟨data, ard, hmore _ hmem, hard⟩

theorem says_transmitFull {q : CardAsk} {r : Answered (List UInt8 × UInt16)}
    (h : Says (transmitFull q m) log (r, n)) :
    ∃ reply, log = [⟨q, reply⟩] ∧ r = reply.mapError fun _ => .lost := by
  obtain ⟨reply, rest, rfl, hrest⟩ := Session.says_ask_bind.mp h
  obtain ⟨rfl, hr, -⟩ := Session.says_pure.mp hrest
  exact ⟨reply, rfl, hr⟩

theorem onlyRead_transmitFull {q : CardAsk} (hq : q.isWrite = false)
    {r : Answered (List UInt8 × UInt16)} (h : Says (transmitFull q m) log (r, n)) :
    OnlyRead log := by
  obtain ⟨reply, rfl, -⟩ := says_transmitFull h
  intro x hx
  obtain rfl := List.mem_singleton.mp hx
  exact hq

theorem says_algorithmAttributes {crt : KeyCrt} {r : Answered (List UInt8)}
    (h : Says (algorithmAttributes crt m) log (r, n)) :
    OnlyRead log ∧ ∀ current, r = .ok current → Told log crt current := by
  rcases Session.says_andThen.mp h with
    ⟨e, rfl, hfirst⟩ | ⟨first, answer, m', rest, rfl, hfirst, hrest⟩
  · exact ⟨onlyRead_transmitFull rfl hfirst, nofun⟩
  obtain ⟨rfl, rfl, -⟩ := Session.says_pure.mp hrest
  rw [List.append_nil]
  refine ⟨onlyRead_transmitFull rfl hfirst, fun current hcurrent => ?_⟩
  obtain ⟨reply, rfl, hreply⟩ := says_transmitFull hfirst
  rcases reply with e | ⟨data, sw⟩
  · cases hreply
  obtain rfl := Except.ok.inj hreply
  by_cases hsw : sw = SW_OK
  · rw [hsw, okOrApdu, if_pos rfl] at hcurrent
    rcases hard : parseApplicationRelatedData data with e | ard
    · rw [hard] at hcurrent
      cases hcurrent
    · rw [hard] at hcurrent
      refine ⟨data, ard, ?_, hard, Except.ok.inj hcurrent⟩
      rw [hsw]
      exact List.mem_singleton_self _
  · rw [okOrApdu, if_neg hsw] at hcurrent
    cases hcurrent

theorem says_supportedAlgorithms {r : Answered (Option AlgorithmInformation)}
    (h : Says (supportedAlgorithms m) log (r, n)) :
    OnlyRead log ∧ ∀ fa, r = .ok fa → Published log fa := by
  rcases Session.says_andThen.mp h with
    ⟨e, rfl, hfirst⟩ | ⟨first, answer, m', rest, rfl, hfirst, hrest⟩
  · exact ⟨onlyRead_transmitFull rfl hfirst, nofun⟩
  obtain ⟨rfl, rfl, -⟩ := Session.says_pure.mp hrest
  rw [List.append_nil]
  refine ⟨onlyRead_transmitFull rfl hfirst, fun fa hfa => ?_⟩
  obtain ⟨reply, rfl, hreply⟩ := says_transmitFull hfirst
  rcases reply with e | ⟨data, sw⟩
  · cases hreply
  obtain rfl := Except.ok.inj hreply
  exact ⟨data, sw, List.mem_singleton_self _, (Except.ok.inj hfa).symm⟩

theorem says_preflightEach {fa : Option AlgorithmInformation} {r : Answered Unit}
    (h : Says (preflightEach fa keys m) log (r, n)) :
    OnlyRead log ∧ (r = .ok () → ∀ k ∈ keys, ∃ current, Told log k.crt current ∧
      preflight k current fa = .ok ()) := by
  induction keys generalizing m log with
  | nil =>
      obtain ⟨rfl, -, -⟩ := Session.says_pure.mp h
      exact ⟨onlyRead_nil, fun _ => nofun⟩
  | cons k keys ih =>
      rcases Session.says_andThen.mp h with
        ⟨e, rfl, hfirst⟩ | ⟨first, current, m', rest, rfl, hfirst, hrest⟩
      · exact ⟨(says_algorithmAttributes hfirst).1, nofun⟩
      obtain ⟨hread, htold⟩ := says_algorithmAttributes hfirst
      rcases Session.says_pure_andThen hrest with ⟨e, -, rfl, rfl, -⟩ | ⟨_, hpass, hrest⟩
      · exact ⟨hread.append onlyRead_nil, nofun⟩
      obtain ⟨hmore, hkeys⟩ := ih hrest
      refine ⟨hread.append hmore, fun hr k' hk' => ?_⟩
      rcases List.mem_cons.mp hk' with rfl | hk'
      · exact ⟨current, (htold current rfl).mono fun x => List.mem_append_left rest, hpass⟩
      · obtain ⟨current', htold', hpass'⟩ := hkeys hr k' hk'
        exact ⟨current', htold'.mono fun x => List.mem_append_right first, hpass'⟩

theorem checkEach_ok (h : checkEach keys = .ok ()) :
    ∀ k ∈ keys, checkImport k.crt k.alg k.key = .ok () := by
  induction keys with
  | nil => exact nofun
  | cons k keys ih =>
      replace h : ((checkImport k.crt k.alg k.key).bind fun _ => checkEach keys) = .ok () := h
      rcases hk : checkImport k.crt k.alg k.key with e | ⟨⟩
      · rw [hk] at h
        cases h
      · rw [hk] at h
        intro k' hk'
        rcases List.mem_cons.mp hk' with rfl | hk'
        · exact hk
        · exact ih h k' hk'

theorem says_checks {r : Answered Unit} (h : Says (checks keys m) log (r, n)) :
    OnlyRead log ∧ (r = .ok () → ∃ fa, Published log fa ∧ ∀ k ∈ keys, Passes log fa k) := by
  rcases Session.says_pure_andThen h with ⟨e, -, rfl, rfl, -⟩ | ⟨_, hall, h⟩
  · exact ⟨onlyRead_nil, nofun⟩
  rcases Session.says_andThen.mp h with ⟨e, rfl, hfirst⟩ | ⟨first, fa, m', rest, rfl, hfirst, hrest⟩
  · exact ⟨(says_supportedAlgorithms hfirst).1, nofun⟩
  obtain ⟨hread, hpublished⟩ := says_supportedAlgorithms hfirst
  obtain ⟨hmore, hkeys⟩ := says_preflightEach hrest
  refine ⟨hread.append hmore, fun hr => ⟨fa, ?_, fun k hk => ⟨checkEach_ok hall k hk, ?_⟩⟩⟩
  · obtain ⟨data, sw, hmem, hfa⟩ := hpublished fa rfl
    exact ⟨data, sw, List.mem_append_left rest hmem, hfa⟩
  · obtain ⟨current, htold, hpass⟩ := hkeys hr k hk
    exact ⟨current, htold.mono fun x => List.mem_append_right first, hpass⟩

theorem checkedFirst_importKeySet {forced : Bool} {r : Answered (List (List UInt8))}
    (h : Says (importKeySet forced keys m) log (r, n)) : CheckedFirst keys log r := by
  rcases Session.says_andThen.mp h with ⟨e, rfl, hfirst⟩ | ⟨first, _, m', rest, rfl, hfirst, -⟩
  · exact .inl ⟨(says_checks hfirst).1, e, rfl⟩
  · obtain ⟨hread, hpassed⟩ := says_checks hfirst
    obtain ⟨fa, hpublished, hkeys⟩ := hpassed rfl
    exact .inr ⟨first, rest, fa, rfl, hread, hpublished, hkeys⟩

end

/-- **What an import reports of the card.** In every conversation the checks come before the
first write. Where the card answered every attribute write, the result is truthful: on success
all keys are registered; an error of the set lists those that are, and a slot that it says is not
changed is as it was, like the slots that it does not name; any other error leaves every slot as
it was. -/
theorem importKeySet_truthful (forced : Bool) {keys : List KeyImport}
    (hdistinct : (keys.map KeyImport.crt).Nodup) {s t : OpenPgpCard} {m n : Bool}
    {log : List (Dialogue.Asked CardReply)} {r : Answered (List (List UInt8))}
    (hrun : Dialogue.Runs cardStep s (importKeySet forced keys m) log (r, n) t) :
    CheckedFirst keys log r ∧
      ((∀ x ∈ log, AttributesAnswered x) → Truthful keys s t r) :=
  ⟨checkedFirst_importKeySet hrun.spoken, fun hanswered =>
    (ensures_importKeySet forced hdistinct).of_runs (hrun.only hanswered)⟩

/-! ### A key that is registered, and answers that are lost -/

/-- More than a result can say: exactly the slots named done are registered. -/
def TruthfulExactly (keys : List KeyImport) (s₀ s : OpenPgpCard) :
    Answered (List (List UInt8)) → Prop
  | .ok _ => ∀ k ∈ keys, Registered k s
  | .error (.openPgpKeySetPartial done failed changed _) =>
      (∀ k ∈ keys, crtLabel k.crt ∈ done ↔ Registered k s) ∧
        ∀ k ∈ keys, crtLabel k.crt = failed → changed = false → s.slot k.crt = s₀.slot k.crt
  | .error .panicked => True
  | .error _ => s.slot = s₀.slot

def ED25519_ATTRIBUTES : List UInt8 := [0x16, 0x2B, 0x06, 0x01, 0x04, 0x01, 0xDA, 0x47, 0x0F, 0x01]

def RSA2048_ATTRIBUTES : List UInt8 := [0x01, 0x08, 0x00, 0x00, 0x20, 0x00]

def sampleKey : KeyImport where
  crt := .sign
  alg := .ed25519
  key := .ecc ⟨List.replicate 32 0x11, none⟩
  created := 1700000000
  expectFpr := List.replicate 20 0xAB
  expectPublic := .ecc [0x07]

/-- Application related data with these attributes in every slot. -/
def sampleData (attr : List UInt8) : List UInt8 :=
  let slotData := attr.length.toUInt8 :: attr
  [0x4F, 0x00] ++ (0xC1 :: slotData) ++ (0xC2 :: slotData) ++ (0xC3 :: slotData) ++
    (0xC4 :: 7 :: List.replicate 7 0) ++ (0xC5 :: 60 :: List.replicate 60 0)

def sampleAnswer (attr : List UInt8) : CardAsk → List UInt8
  | .getApplicationRelatedData => sampleData attr
  | .readPublicKey _ => [0x86, 0x01, 0x07]
  | _ => []

/-- It refuses some commands, carries out all others, and some answers are lost. -/
def sampleMachine (attr : List UInt8) (lost refused : CardAsk → Bool) :
    Dialogue.Machine CardReply OpenPgpCard := fun s q =>
  if refused q = true then (.ok ([], 0x6A80), s.idle)
  else (if lost q = true then .error .lost else .ok (sampleAnswer attr q, SW_OK), q.carriedOut s)

def sampleStart (attr : List UInt8) : OpenPgpCard :=
  { slot := fun _ => { attributes := attr, key := some [0x01], created := none, fingerprint := none }
    chain := [] }

def lastWriteLost : CardAsk → Bool
  | .putFingerprint .. => true
  | _ => false

def attributeWriteLost : CardAsk → Bool
  | .putAlgorithmAttributes .. => true
  | _ => false

theorem runs_sampleMachine (attr : List UInt8) (lost refused : CardAsk → Bool)
    (p : Dialogue CardReply (Answered (List (List UInt8)) × Bool)) (s : OpenPgpCard) :
    Dialogue.Runs cardStep s p (p.serve (sampleMachine attr lost refused) s []).2.2
      (p.serve (sampleMachine attr lost refused) s []).1
      (p.serve (sampleMachine attr lost refused) s []).2.1 := by
  have hcard : ∀ s q, cardStep s q (sampleMachine attr lost refused s q).1
      (sampleMachine attr lost refused s q).2 := by
    intro s q
    by_cases hrefused : refused q = true
    · simp only [sampleMachine, if_pos hrefused]
      rw [cardStep, if_neg (by decide)]
    · by_cases hlost : lost q = true
      · simp only [sampleMachine, if_neg hrefused, if_pos hlost]
        exact .inl rfl
      · simp only [sampleMachine, if_neg hrefused, if_neg hlost]
        rw [cardStep, if_pos rfl]
  obtain ⟨more, hlog, hruns⟩ := Dialogue.runs_serve hcard p s []
  rwa [hlog, List.nil_append]

def nothing : CardAsk → Bool := fun _ => false

/-- A run of an import. -/
def sampleRun (keys : List KeyImport) (attr : List UInt8) (lost refused : CardAsk → Bool) :
    (Answered (List (List UInt8)) × Bool) × OpenPgpCard × List (Dialogue.Asked CardReply) :=
  (importKeySet false keys false).serve (sampleMachine attr lost refused) (sampleStart attr) []

/-- Every exchange of a run has an answer. -/
def answeredThroughout (log : List (Dialogue.Asked CardReply)) : Bool :=
  log.all fun x => x.2.toOption.isSome

theorem attributesAnswered_of_all {log : List (Dialogue.Asked CardReply)}
    (h : answeredThroughout log = true) : ∀ x ∈ log, AttributesAnswered x := by
  intro x hx crt attr e _ he
  have hsome : x.2.toOption.isSome = true := List.all_eq_true.mp h x hx
  rw [he] at hsome
  cases hsome

/-- Another key, for another slot. -/
def sampleAuthKey : KeyImport := { sampleKey with crt := .auth }

/-- The card does not take an Ed25519 key for authentication. -/
def authAttributesRefused : CardAsk → Bool
  | .putAlgorithmAttributes .auth _ => true
  | _ => false

/-- Two keys into slots of other attributes: the first is registered, and the card refuses the
attributes of the second. -/
def partialRun : (Answered (List (List UInt8)) × Bool) × OpenPgpCard ×
    List (Dialogue.Asked CardReply) :=
  sampleRun [sampleKey, sampleAuthKey] RSA2048_ATTRIBUTES nothing authAttributesRefused

def partialResult : Answered (List (List UInt8)) :=
  .error (.openPgpKeySetPartial ["signature"] "authentication" false
    (.openPgpAlgorithmRefused "authentication" .ed25519))

theorem importKeySet_truthful_sample :
    partialRun.1.1 = partialResult ∧
    CheckedFirst [sampleKey, sampleAuthKey] partialRun.2.2 partialResult ∧
    Truthful [sampleKey, sampleAuthKey] (sampleStart RSA2048_ATTRIBUTES) partialRun.2.1
      partialResult := by
  have hresult : partialRun.1.1 = partialResult := by decide
  have hanswered : answeredThroughout partialRun.2.2 = true := by decide
  have hrun : Dialogue.Runs cardStep (sampleStart RSA2048_ATTRIBUTES)
      (importKeySet false [sampleKey, sampleAuthKey] false) partialRun.2.2
      (partialRun.1.1, partialRun.1.2) partialRun.2.1 :=
    runs_sampleMachine RSA2048_ATTRIBUTES nothing authAttributesRefused _ _
  rw [hresult] at hrun
  obtain ⟨hchecked, htruthful⟩ := importKeySet_truthful false (by decide) hrun
  exact ⟨hresult, hchecked, htruthful (attributesAnswered_of_all hanswered)⟩

/-- A key whose last answer is lost is registered and not named done; a slot whose attribute
write lost its answer is erased and the error is plain. -/
theorem importKeySet_not_exact :
    (∃ log r t, Dialogue.Runs cardStep (sampleStart ED25519_ATTRIBUTES)
        (importKeySet false [sampleKey] false) log r t ∧
      ¬ TruthfulExactly [sampleKey] (sampleStart ED25519_ATTRIBUTES) t r.1) ∧
      ∃ log r t, Dialogue.Runs cardStep (sampleStart RSA2048_ATTRIBUTES)
        (importKeySet false [sampleKey] false) log r t ∧
      ¬ TruthfulExactly [sampleKey] (sampleStart RSA2048_ATTRIBUTES) t r.1 := by
  constructor
  · refine ⟨_, _, _, runs_sampleMachine ED25519_ATTRIBUTES lastWriteLost nothing _ _, ?_⟩
    have hresult : (sampleRun [sampleKey] ED25519_ATTRIBUTES lastWriteLost nothing).1 =
        (.error (.openPgpKeySetPartial [] "signature" true .lost), true) := by decide
    rw [← sampleRun, hresult]
    rintro ⟨hdone, -⟩
    have hregistered : Registered sampleKey (sampleRun [sampleKey] ED25519_ATTRIBUTES lastWriteLost nothing).2.1 := by
      refine ⟨⟨_, rfl, [], ?_⟩, ?_, ?_⟩
      · decide
      · decide
      · decide
    exact absurd ((hdone sampleKey (List.mem_singleton_self _)).mpr hregistered) nofun
  · refine ⟨_, _, _, runs_sampleMachine RSA2048_ATTRIBUTES attributeWriteLost nothing _ _, ?_⟩
    have hresult : (sampleRun [sampleKey] RSA2048_ATTRIBUTES attributeWriteLost nothing).1 =
        (.error .lost, false) := by decide
    rw [← sampleRun, hresult]
    intro hsame
    have hkey := congrArg CardSlot.key (congrFun hsame .sign)
    revert hkey
    decide

end Keyroost.OpenPgp
