import Keyroost.Resolve.Device

/-!
# Identities remembered between scans

A scan asks each planned HID interface for its identity at most once per plug-in, and keeps the
answers from scan to scan by what the backend reports about the plug-in. Modelled from
`keyroost-resolve/src/identity.rs`.

A `World` says which key is attached at which interface during which scan, and what each key
answers, if anything; it is what the results are about, and the program never sees it. `EntrySound`
is the invariant of one remembered answer, `CacheSound` that of the cache between scans. Within a
scan the invariant also speaks of what was asked already (`LoopSound`), with one lemma for each way
an interface of the plan may be dealt with. `identities_own` holds after any scans; in
`traded_identity` two keys of one model trade ports and one of them gives no answer.
-/

namespace Keyroost.Resolve

open Hid

/-! ### Identities and plug-ins -/

inductive IdScheme where
  | yubicoSerial
  | solo2Uuid
  | token2Fido
  | token2Otp
deriving DecidableEq, Repr

structure CanonicalId where
  scheme : IdScheme
  value : RustStr
deriving DecidableEq, Repr

/-- How a key answers when it is asked for its identity. A reply and a refusal are the key's own
words and can be remembered; no answer is a failure, after which the key is asked again. -/
inductive KeyAnswer where
  | reply (id : CanonicalId)
  | declined
  | noAnswer
deriving DecidableEq, Repr

structure PlugIn where
  path : Path
  usbDevice : Option UsbDeviceKey
  serialNumber : Option RustStr
  vendorId : UInt16
  productId : UInt16
deriving DecidableEq, Repr

namespace PlugIn

/-- `PlugIn::of`. -/
def ofDevice (h : HidDevice) : PlugIn :=
  { path := h.path, usbDevice := h.usbDevice, serialNumber := h.serialNumber,
    vendorId := h.vendorId, productId := h.productId }

end PlugIn

def uniquePerPlugIn (h : HidDevice) : Bool :=
  match h.usbDevice with
  | some (.busAddr _ _) => true
  | some _ => false
  | none => "DevSrvsID:".toList.isPrefixOf h.path

inductive Cached where
  | answer (id : Option CanonicalId)
  | fallback (id : CanonicalId)
deriving DecidableEq, Repr

/-- By plug-in and the identity reader's index in the registry. -/
abbrev HidIdCache : Type := List ((PlugIn × Nat) × Cached)

/-! ### One scan -/

/-- A question put to an interface by the reader of this index, and the answer. -/
structure Asked where
  reader : Nat
  interface : HidDevice
  answer : KeyAnswer
deriving DecidableEq, Repr

/-- The state of the loop over the plan. -/
structure Scanning where
  cache : HidIdCache
  out : List (Path × CanonicalId)
  asked : List Asked
deriving DecidableEq, Repr

namespace Scanning

/-- `HashMap::insert`, where there is an identity. -/
def record (st : Scanning) (path : Path) (id : Option CanonicalId) : Scanning :=
  match id with
  | none => st
  | some id => { st with out := (path, id) :: st.out.filter fun e => decide (e.1 ≠ path) }

/-- The entry of `key` is replaced. -/
def keep (st : Scanning) (key : PlugIn × Nat) (entry : Cached) : Scanning :=
  { st with cache := (st.cache.filter fun e => decide (e.1 ≠ key)) ++ [(key, entry)] }

/-- The interface's answer, with the identity it gave earlier where it may give none now. -/
def answered (st : Scanning) (h : HidDevice) (entry : Nat × Path)
    (fallback : Option CanonicalId) : KeyAnswer → Scanning
  | .reply id =>
      (st.keep (PlugIn.ofDevice h, entry.1)
        (if uniquePerPlugIn h then .answer (some id) else .fallback id)).record entry.2 (some id)
  | .declined => st.keep (PlugIn.ofDevice h, entry.1) (.answer none)
  | .noAnswer =>
      match fallback with
      | some id => (st.keep (PlugIn.ofDevice h, entry.1) (.fallback id)).record entry.2 (some id)
      | none => st

/-- The question put to the interface. -/
def ask (st : Scanning) (h : HidDevice) (entry : Nat × Path) (fallback : Option CanonicalId)
    (answer : KeyAnswer) : Scanning :=
  Scanning.answered
    { st with asked := st.asked ++ [{ reader := entry.1, interface := h, answer := answer }] }
    h entry fallback answer

def earlier (st : Scanning) (key : PlugIn × Nat) : Option Cached :=
  (st.cache.find? fun e => decide (e.1 = key)).map (·.2)

/-- One entry of the plan; `answers k` is the answer to the `k`-th question of the scan. -/
def planned (hids : List HidDevice) (answers : Nat → KeyAnswer) (st : Scanning)
    (entry : Nat × Path) : Scanning :=
  match hids.find? fun h => decide (h.path = entry.2) with
  | none => st
  | some h =>
      match st.earlier (PlugIn.ofDevice h, entry.1) with
      | some (.answer id) => st.record entry.2 id
      | some (.fallback id) => st.ask h entry (some id) (answers st.asked.length)
      | none => st.ask h entry none (answers st.asked.length)

end Scanning

def hidIdentitiesFrom (cache : HidIdCache) (plan : List (Nat × Path)) (hids : List HidDevice)
    (answers : Nat → KeyAnswer) : Scanning :=
  let present := hids.map PlugIn.ofDevice
  plan.foldl (Scanning.planned hids answers)
    { cache := cache.filter fun e => present.contains e.1.1, out := [], asked := [] }

/-! ### Scans of a changing set of keys

Keys are plugged in and out between scans. `report i` is what the backend reports about an
interface of the `i`-th attach, `keyOf i` the key that was attached. -/

structure World (Key : Type) where
  report : Nat → HidDevice
  keyOf : Nat → Key

/-- What is attached at a scan, what it plans to read, and how the keys answer. A plan is of readers
and the paths they read, and only what is attached can answer. -/
structure Scan where
  attached : List Nat
  plan : List (Nat × Path)
  answers : Nat → KeyAnswer

/-- An identity that a key gave, and the attach it gave it under. Only by this pair can a cached
identity be held against the key that is there now. -/
structure Given where
  attach : Nat
  id : CanonicalId
deriving DecidableEq, Repr

namespace World

variable {Key : Type} (w : World Key)

/-- What the code relies on: a Linux bus address or a macOS registry path is new on every
attach. -/
def NewOnEveryAttach : Prop :=
  ∀ i j, uniquePerPlugIn (w.report i) = true →
    PlugIn.ofDevice (w.report i) = PlugIn.ofDevice (w.report j) → i = j

/-- The attach now at `path`. -/
def attachedAt (scan : Scan) (path : Path) : Option Nat :=
  scan.attached.find? fun i => decide ((w.report i).path = path)

def scanned (cache : HidIdCache) (scan : Scan) : Scanning :=
  hidIdentitiesFrom cache scan.plan (scan.attached.map w.report) scan.answers

/-- The identity given in one answer, by the key at the interface asked. -/
def givenBy (scan : Scan) (a : Asked) : Option Given :=
  match a.answer, w.attachedAt scan a.interface.path with
  | .reply id, some i => some ⟨i, id⟩
  | _, _ => none

/-- The cache after some scans, and every identity given in them. -/
def scans : List Scan → HidIdCache × List Given → HidIdCache × List Given
  | [], state => state
  | scan :: later, (cache, history) =>
      let st := w.scanned cache scan
      scans later (st.cache, history ++ st.asked.filterMap (w.givenBy scan))

/-! ### The invariant -/

/-- An identity kept was given under the plug-in it is kept for. -/
def EntrySound (history : List Given) (e : (PlugIn × Nat) × Cached) : Prop :=
  match e.2 with
  | .answer none => True
  | .answer (some id) => ∃ g ∈ history, g.id = id ∧
      PlugIn.ofDevice (w.report g.attach) = e.1.1 ∧ uniquePerPlugIn (w.report g.attach) = true
  | .fallback id => ∃ g ∈ history, g.id = id ∧
      PlugIn.ofDevice (w.report g.attach) = e.1.1 ∧ uniquePerPlugIn (w.report g.attach) = false

def CacheSound (history : List Given) (cache : HidIdCache) : Prop :=
  ∀ e ∈ cache, w.EntrySound history e

/-- An identity returned for the interface at `path`: the key there gave it, or the key was
asked and gave no answer, its plug-in is not unique to the attach, and a key gave it under
that plug-in. -/
def OutSound (scan : Scan) (asked : List Asked) (history : List Given)
    (e : Path × CanonicalId) : Prop :=
  ∃ i, w.attachedAt scan e.1 = some i ∧ ∃ g ∈ history, g.id = e.2 ∧
    (w.keyOf g.attach = w.keyOf i ∨
      (uniquePerPlugIn (w.report i) = false ∧
        PlugIn.ofDevice (w.report g.attach) = PlugIn.ofDevice (w.report i) ∧
        ∃ a ∈ asked, a.interface = w.report i ∧ a.answer = .noAnswer))

variable {w}

theorem EntrySound.mono {history history' : List Given} {e : (PlugIn × Nat) × Cached}
    (hsub : ∀ g ∈ history, g ∈ history') (h : w.EntrySound history e) :
    w.EntrySound history' e := by
  obtain ⟨key, entry⟩ := e
  cases entry with
  | answer id =>
      cases id with
      | none => trivial
      | some id =>
          obtain ⟨g, hg, hrest⟩ := h
          exact ⟨g, hsub g hg, hrest⟩
  | fallback id =>
      obtain ⟨g, hg, hrest⟩ := h
      exact ⟨g, hsub g hg, hrest⟩

theorem OutSound.mono {scan : Scan} {asked asked' : List Asked} {history history' : List Given}
    {e : Path × CanonicalId} (hasked : ∀ a ∈ asked, a ∈ asked')
    (hsub : ∀ g ∈ history, g ∈ history') (h : w.OutSound scan asked history e) :
    w.OutSound scan asked' history' e := by
  obtain ⟨i, hi, g, hg, hid, hwho⟩ := h
  refine ⟨i, hi, g, hsub g hg, hid, ?_⟩
  rcases hwho with hkey | ⟨hunique, hplug, a, ha, hrest⟩
  · exact .inl hkey
  · exact .inr ⟨hunique, hplug, a, hasked a ha, hrest⟩

/-- The interface found at a path is the one reported by the attach there. -/
theorem find_report {scan : Scan} {path : Path} {h : HidDevice}
    (hfind : (scan.attached.map w.report).find? (fun h => decide (h.path = path)) = some h) :
    ∃ i, w.attachedAt scan path = some i ∧ w.report i = h := by
  rw [List.find?_map] at hfind
  exact Option.map_eq_some_iff.mp hfind

/-- Uniqueness is read off the plug-in. -/
theorem uniquePerPlugIn_congr {h h' : HidDevice}
    (heq : PlugIn.ofDevice h = PlugIn.ofDevice h') : uniquePerPlugIn h = uniquePerPlugIn h' := by
  have hpath : h.path = h'.path := congrArg PlugIn.path heq
  have husb : h.usbDevice = h'.usbDevice := congrArg PlugIn.usbDevice heq
  rw [uniquePerPlugIn, uniquePerPlugIn, hpath, husb]

/-! ### One entry of the plan -/

/-- What holds of the loop of a scan, `history` being what was given before it: the cache and what
was put out so far are right for the history and for the answers of this loop. -/
structure LoopSound (scan : Scan) (history : List Given) (st : Scanning) : Prop where
  cache : w.CacheSound (history ++ st.asked.filterMap (w.givenBy scan)) st.cache
  out : ∀ e ∈ st.out,
    w.OutSound scan st.asked (history ++ st.asked.filterMap (w.givenBy scan)) e

variable {scan : Scan} {history : List Given} {st : Scanning}

theorem LoopSound.record (hst : w.LoopSound scan history st) {path : Path}
    {id : Option CanonicalId} (hid : ∀ id', id = some id' →
      w.OutSound scan st.asked (history ++ st.asked.filterMap (w.givenBy scan)) (path, id')) :
    w.LoopSound scan history (st.record path id) := by
  cases id with
  | none => exact hst
  | some id =>
      refine ⟨hst.cache, ?_⟩
      intro e he
      rcases List.mem_cons.mp he with he | he
      · rw [he]
        exact hid id rfl
      · exact hst.out e (List.mem_filter.mp he).1

theorem LoopSound.keep (hst : w.LoopSound scan history st) {key : PlugIn × Nat} {entry : Cached}
    (hentry : w.EntrySound (history ++ st.asked.filterMap (w.givenBy scan)) (key, entry)) :
    w.LoopSound scan history (st.keep key entry) := by
  refine ⟨?_, hst.out⟩
  intro e he
  rcases List.mem_append.mp he with hold | hnew
  · exact hst.cache e (List.mem_filter.mp hold).1
  · rw [List.mem_singleton] at hnew
    rw [hnew]
    exact hentry

/-- One more question leaves what was known as it was. -/
theorem LoopSound.asked (hst : w.LoopSound scan history st) (a : Asked) :
    w.LoopSound scan history { st with asked := st.asked ++ [a] } := by
  have hsub : ∀ g ∈ history ++ st.asked.filterMap (w.givenBy scan),
      g ∈ history ++ (st.asked ++ [a]).filterMap (w.givenBy scan) := by
    intro g hg
    rw [List.filterMap_append, ← List.append_assoc]
    exact List.mem_append_left _ hg
  exact ⟨fun e he => (hst.cache e he).mono hsub,
    fun e he => (hst.out e he).mono (fun a' ha' => List.mem_append_left _ ha') hsub⟩

/-- A question asked of the interface at a planned path, now held by attach `i`. -/
theorem LoopSound.ask (hst : w.LoopSound scan history st) {entry : Nat × Path} {i : Nat}
    (hi : w.attachedAt scan entry.2 = some i) {fallback : Option CanonicalId}
    (hfallback : ∀ id, fallback = some id →
      w.EntrySound (history ++ st.asked.filterMap (w.givenBy scan))
        ((PlugIn.ofDevice (w.report i), entry.1), .fallback id)) (answer : KeyAnswer) :
    w.LoopSound scan history (st.ask (w.report i) entry fallback answer) := by
  have hpath : (w.report i).path = entry.2 := of_decide_eq_true (List.find?_some hi :)
  let question : Asked := { reader := entry.1, interface := w.report i, answer := answer }
  have hnext : w.LoopSound scan history { st with asked := st.asked ++ [question] } :=
    hst.asked question
  have hlast : question ∈ st.asked ++ [question] := List.mem_append_right _ List.mem_cons_self
  cases answer with
  | reply id =>
      have hgiven : (⟨i, id⟩ : Given) ∈
          history ++ (st.asked ++ [question]).filterMap (w.givenBy scan) := by
        refine List.mem_append_right _ (List.mem_filterMap.mpr ⟨question, hlast, ?_⟩)
        simp only [question, givenBy, hpath, hi]
      have hkept : w.EntrySound (history ++ (st.asked ++ [question]).filterMap (w.givenBy scan))
          ((PlugIn.ofDevice (w.report i), entry.1),
            if uniquePerPlugIn (w.report i) then .answer (some id) else .fallback id) := by
        by_cases hunique : uniquePerPlugIn (w.report i) = true
        · rw [if_pos hunique]
          exact ⟨⟨i, id⟩, hgiven, rfl, rfl, hunique⟩
        · rw [if_neg hunique]
          exact ⟨⟨i, id⟩, hgiven, rfl, rfl, eq_false_of_ne_true hunique⟩
      rw [Scanning.ask, Scanning.answered]
      refine LoopSound.record (hnext.keep hkept) ?_
      intro id' hid'
      cases hid'
      exact ⟨i, hi, ⟨i, id⟩, hgiven, rfl, .inl rfl⟩
  | declined =>
      have hkept : w.EntrySound (history ++ (st.asked ++ [question]).filterMap (w.givenBy scan))
          ((PlugIn.ofDevice (w.report i), entry.1), .answer none) := trivial
      exact hnext.keep hkept
  | noAnswer =>
      cases fallback with
      | none => exact hnext
      | some id =>
          obtain ⟨g, hg, hid, hplug, hunique⟩ := hfallback id rfl
          have hmono : g ∈ history ++ (st.asked ++ [question]).filterMap (w.givenBy scan) := by
            rw [List.filterMap_append, ← List.append_assoc]
            exact List.mem_append_left _ hg
          have hkept : w.EntrySound
              (history ++ (st.asked ++ [question]).filterMap (w.givenBy scan))
              ((PlugIn.ofDevice (w.report i), entry.1), .fallback id) :=
            ⟨g, hmono, hid, hplug, hunique⟩
          rw [Scanning.ask, Scanning.answered]
          refine LoopSound.record (hnext.keep hkept) ?_
          intro id' hid'
          cases hid'
          refine ⟨i, hi, g, hmono, hid, .inr ⟨?_, hplug, question, hlast, rfl, rfl⟩⟩
          rw [← uniquePerPlugIn_congr hplug]
          exact hunique

theorem LoopSound.planned (hfresh : w.NewOnEveryAttach) (hst : w.LoopSound scan history st)
    (entry : Nat × Path) :
    w.LoopSound scan history
      (st.planned (scan.attached.map w.report) scan.answers entry) := by
  rw [Scanning.planned]
  cases hfind : (scan.attached.map w.report).find? fun h => decide (h.path = entry.2) with
  | none => exact hst
  | some h =>
      obtain ⟨i, hi, hreport⟩ := w.find_report hfind
      rw [← hreport]
      dsimp only
      cases hearlier : st.earlier (PlugIn.ofDevice (w.report i), entry.1) with
      | none => exact hst.ask hi (fun id hid => by cases hid) _
      | some cached =>
          obtain ⟨e, he, hcached⟩ := Option.map_eq_some_iff.mp hearlier
          have hkey : e.1 = (PlugIn.ofDevice (w.report i), entry.1) :=
            of_decide_eq_true (List.find?_some he :)
          have hsound := hst.cache e (List.mem_of_find?_eq_some he)
          have he' : e = ((PlugIn.ofDevice (w.report i), entry.1), cached) :=
            Prod.ext hkey hcached
          rw [he'] at hsound
          cases cached with
          | fallback id =>
              refine hst.ask hi ?_ _
              intro id' hid'
              cases hid'
              exact hsound
          | answer id =>
              refine hst.record ?_
              intro id' hid'
              rw [hid'] at hsound
              obtain ⟨g, hg, hid, hplug, hunique⟩ := hsound
              have hsame : g.attach = i := hfresh g.attach i hunique hplug
              exact ⟨i, hi, g, hg, hid, .inl (by rw [hsame])⟩

/-! ### Runs of scans -/

theorem LoopSound.foldl (hfresh : w.NewOnEveryAttach) (plan : List (Nat × Path))
    (hst : w.LoopSound scan history st) :
    w.LoopSound scan history
      (plan.foldl (Scanning.planned (scan.attached.map w.report) scan.answers) st) := by
  induction plan generalizing st with
  | nil => exact hst
  | cons entry plan ih => exact ih (hst.planned hfresh entry)

theorem loopSound_scanned (hfresh : w.NewOnEveryAttach) {cache : HidIdCache}
    (hcache : w.CacheSound history cache) (scan : Scan) :
    w.LoopSound scan history (w.scanned cache scan) := by
  refine LoopSound.foldl hfresh scan.plan ⟨?_, fun e he => absurd he List.not_mem_nil⟩
  intro e he
  rw [List.filterMap_nil, List.append_nil]
  exact hcache e (List.mem_filter.mp he).1

theorem cacheSound_scans (hfresh : w.NewOnEveryAttach) (earlier : List Scan)
    {state : HidIdCache × List Given} (hstate : w.CacheSound state.2 state.1) :
    w.CacheSound (w.scans earlier state).2 (w.scans earlier state).1 := by
  induction earlier generalizing state with
  | nil => exact hstate
  | cons scan earlier ih => exact ih (loopSound_scanned hfresh hstate scan).cache

/-- **Cached identities belong to the key that is there.** After any scans, what a scan
returns for an interface was given by the key attached there, unless the backend cannot
tell that plug-in from another of the same port and the key, asked, gives no answer: then a
key that was attached there may have given it. -/
theorem identities_own (hfresh : w.NewOnEveryAttach) (earlier : List Scan) (scan : Scan) :
    let before := w.scans earlier ([], [])
    let now := w.scanned before.1 scan
    ∀ e ∈ now.out,
      w.OutSound scan now.asked (before.2 ++ now.asked.filterMap (w.givenBy scan)) e :=
  (loopSound_scanned hfresh (cacheSound_scans hfresh earlier
    (fun _ he => absurd he List.not_mem_nil)) scan).out

end World

/-! ### Keys that trade ports -/

def sampleId (c : Char) : CanonicalId := ⟨.yubicoSerial, [c]⟩

def sampleDevice (path : Path) (usbDevice : Option UsbDeviceKey) : HidDevice :=
  { path, vendorId := 0x1050, productId := 0x0407, productName := [], usagePage := 0xF1D0,
    usage := 1, serialNumber := none, usbDevice }

/-- Every attach a new path at a bus address. -/
def sampleWorld : World Nat :=
  { report := fun i => sampleDevice (List.replicate i 'a') (some (.busAddr 1 (UInt8.ofNat i)))
    keyOf := fun i => i }

theorem sampleWorld_new : sampleWorld.NewOnEveryAttach := by
  intro i j _ hplug
  have hpath := congrArg (fun p => p.path.length) hplug
  simpa only [sampleWorld, sampleDevice, PlugIn.ofDevice, List.length_replicate] using hpath

/-- Two keys are scanned, of which one answers; then that key is alone. -/
def sampleScans : List Scan :=
  [{ attached := [1, 2]
     plan := [(0, ['a']), (0, ['a', 'a'])]
     answers := fun k => if k = 0 then .reply (sampleId '7') else .noAnswer },
    { attached := [1], plan := [(0, ['a'])], answers := fun _ => .declined }]

/-- The key that answered is still there, and another one is new. -/
def lastScan : Scan :=
  { attached := [1, 3]
    plan := [(0, ['a']), (0, ['a', 'a', 'a'])]
    answers := fun _ => .reply (sampleId '9') }

/-- The key that answered in the first scan is not asked in the last one: the cache answers for it,
with the identity it gave. -/
theorem sampleWorld_own :
    let before := sampleWorld.scans sampleScans ([], [])
    let now := sampleWorld.scanned before.1 lastScan
    now.asked.map (·.interface.path) = [['a', 'a', 'a']] ∧ (['a'], sampleId '7') ∈ now.out ∧
      sampleWorld.OutSound lastScan now.asked
        (before.2 ++ now.asked.filterMap (sampleWorld.givenBy lastScan)) (['a'], sampleId '7') := by
  have hout : (['a'], sampleId '7') ∈
      (sampleWorld.scanned (sampleWorld.scans sampleScans ([], [])).1 lastScan).out := by decide
  exact ⟨by decide, hout, World.identities_own sampleWorld_new sampleScans lastScan _ hout⟩

/-- Two keys of one model on Windows: key 0 in port `p` and key 1 in port `q`, and then the
other way round. -/
def tradedWorld : World Nat :=
  { report := fun i =>
      if i = 0 ∨ i = 3 then sampleDevice ['p'] (some (.winNode ['P']))
      else sampleDevice ['q'] (some (.winNode ['Q']))
    keyOf := fun i => i % 2 }

def beforeTrade : Scan :=
  { attached := [0, 1]
    plan := [(0, ['p']), (0, ['q'])]
    answers := fun k => .reply (if k = 0 then sampleId '0' else sampleId '1') }

def afterTrade : Scan :=
  { attached := [2, 3], plan := [(0, ['p']), (0, ['q'])], answers := fun _ => .noAnswer }

/-- Port `p` holds key 1, which never gave the identity returned for it. -/
theorem traded_identity :
    let before := tradedWorld.scans [beforeTrade] ([], [])
    (tradedWorld.attachedAt afterTrade ['p']).map tradedWorld.keyOf = some 1 ∧
    (['p'], sampleId '0') ∈ (tradedWorld.scanned before.1 afterTrade).out ∧
    ∀ g ∈ before.2, g.id = sampleId '0' → tradedWorld.keyOf g.attach ≠ 1 := by
  decide

end Keyroost.Resolve
