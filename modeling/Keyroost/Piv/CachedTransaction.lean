import Keyroost.Library.Dialogue
import Keyroost.Library.RustStr
import Keyroost.Transport.Error
import Mathlib.Data.List.GetD

/-!
# Sessions that trust a cache

A session is opened with what an earlier one found out about the card, and uses that only where
PC/SC shows that the card has not changed: the reader, its count of insertions and removals, and the
ATR. A card just reset is waited for, and the opening tried once more. Modelled from
`keyroost-transport/src/piv.rs` and `keyroost-transport/src/recover.rs`.

An opening is a dialogue with PC/SC, and what is done with the open session is one of its questions.
The readers and their cards are on the other side (`Readers`): cards come and go between questions,
and the count of a reader goes on. Two results are about any number of openings with any cache:

* `work_begins_with_facts_of_its_card`: the facts that a session has are those of the card it is
  connected to. `Invariant` relates each reader's facts to its count, and `holds_talk` is one
  opening.
* `work_is_done_once`: whatever fails, what was asked for is done once, or not at all and an error
  says so. It is about the order of one conversation, and needs no invariant.
-/

namespace Keyroost.Piv

open Transport

/-! ### Identities -/

structure PcscIdentity where
  readerName : RustStr
  eventCount : Option UInt32
  atr : List UInt8
deriving DecidableEq, Repr

def PcscIdentity.default : PcscIdentity := { readerName := [], eventCount := none, atr := [] }

/-- Both present and equal. -/
def pcscEventCountUnchanged (cached fresh : Option UInt32) : Bool :=
  match cached, fresh with
  | some c, some f => c == f
  | _, _ => false

def PcscIdentity.matches_ (cached fresh : PcscIdentity) : Bool :=
  cached.readerName == fresh.readerName &&
    pcscEventCountUnchanged cached.eventCount fresh.eventCount && cached.atr == fresh.atr

/-- The flags of a reader's state that the cache looks at. -/
structure ReaderFlags where
  unknown : Bool
  unavailable : Bool
  mute : Bool
deriving DecidableEq, Repr

def pcscReadingUsable : Option ReaderFlags → Bool
  | some flags => !(flags.unknown || flags.unavailable || flags.mute)
  | none => false

def pivSessionCacheReusable (pcscTrustworthy pcscIdentityMatches : Bool) : Bool :=
  pcscTrustworthy && pcscIdentityMatches

/-- What a no-op VERIFY says about the PIN. -/
structure PinReading where
  retries : Option UInt8
  verified : Bool
deriving DecidableEq, Repr

/-- What a session knows of the card. `facts` is all that it has resolved and read, but for the
PIN. -/
structure PivSessionState (F : Type) where
  pcscIdentity : PcscIdentity
  sendUnsupportedReads : Bool
  pinRetriesCache : Option PinReading
  facts : Option F
deriving DecidableEq, Repr

namespace PivSessionState

variable {F : Type}

def default : PivSessionState F :=
  { pcscIdentity := .default, sendUnsupportedReads := false, pinRetriesCache := none,
    facts := none }

/-- A verification belongs to the connection that saw it. A count is kept. -/
def forgetPinVerification (s : PivSessionState F) : PivSessionState F :=
  if s.pinRetriesCache.any (·.verified) then { s with pinRetriesCache := none } else s

end PivSessionState

/-! ### First contact -/

def RESET_CARD : PcscError := ⟨0x80100068⟩
def REMOVED_CARD : PcscError := ⟨0x80100069⟩
def NO_SMARTCARD : PcscError := ⟨0x8010000C⟩
def NOT_TRANSACTED : PcscError := ⟨0x80100016⟩

def isCardResetOrAbsent (e : PcscError) : Bool :=
  decide (e = RESET_CARD ∨ e = REMOVED_CARD ∨ e = NO_SMARTCARD ∨ e = NOT_TRANSACTED)

/-- The retry rule while the opening is still under way, but for the count of tries. -/
def worthRetrying : TransportError → Bool
  | .pcsc e => isCardResetOrAbsent e
  | _ => false

inductive OpeningError where
  | transport (e : TransportError)
  | pcscUnavailable (e : PcscError)
deriving DecidableEq, Repr

/-- What an opening asks of PC/SC and of the card, and at last the work it was opened for. The work
is a question too, since the caller brings it; what it does to the session's state is its answer. -/
inductive OpeningAsk (F : Type) where
  | establishContext
  | getStatusChange (reader : RustStr)
  | connect (reader : RustStr)
  | transaction
  | atr
  | select
  | fingerprint
  | release
  | waitForCard (reader : RustStr)
  | body (state : PivSessionState F)

/-- `body` answers with a result and the state that the work left. -/
def OpeningAnswer {F : Type} (R : Type) : OpeningAsk F → Type
  | .establishContext | .connect _ | .transaction => Except PcscError Unit
  | .getStatusChange _ => Option (ReaderFlags × UInt32)
  | .atr => List UInt8
  | .select => Except TransportError Unit
  | .fingerprint => F
  | .release | .waitForCard _ => Unit
  | .body _ => R × PivSessionState F

section Opening

variable {F R : Type}

abbrev OpeningTalk (F R : Type) : Type :=
  Dialogue (OpeningAnswer (F := F) R) (Except OpeningError (R × PivSessionState F))

/-- Wait and go round again where that is worth it and still granted. -/
def retryOrFail (reader : RustStr) (again : Option (OpeningTalk F R)) (e : TransportError) :
    OpeningTalk F R :=
  match again with
  | none => .done (.error (.transport e))
  | some again =>
      if worthRetrying e then .ask (.waitForCard reader) fun _ => again
      else .done (.error (.transport e))

/-- The work, on a session in this state. -/
def runBody (state : PivSessionState F) : OpeningTalk F R :=
  .ask (.body state) fun result => .done (.ok result)

/-- Find everything out anew. -/
def resolveAnew (reader : RustStr) (again : Option (OpeningTalk F R)) (identity : PcscIdentity)
    (sendUnsupportedReads : Bool) : OpeningTalk F R :=
  .ask .select fun answer =>
    match answer with
    | .error e => .ask .release fun _ => retryOrFail reader again e
    | .ok () => .ask .fingerprint fun facts =>
        runBody { pcscIdentity := identity, sendUnsupportedReads, pinRetriesCache := none,
                  facts := some facts }

/-- A transaction has begun: reuse the cache, or not. -/
def reuseOrResolve (reader : RustStr) (cached : PivSessionState F)
    (again : Option (OpeningTalk F R)) (status : Option (ReaderFlags × UInt32)) :
    OpeningTalk F R :=
  .ask .atr fun atr =>
    let freshIdentity : PcscIdentity :=
      { readerName := reader, eventCount := status.map (·.2), atr }
    if pivSessionCacheReusable (pcscReadingUsable (status.map (·.1)))
        (cached.pcscIdentity.matches_ freshIdentity) then
      runBody { cached.forgetPinVerification with pcscIdentity := freshIdentity }
    else
      resolveAnew reader again freshIdentity cached.sendUnsupportedReads

/-- Connect and begin a transaction. -/
def connectThen (reader : RustStr) (again : Option (OpeningTalk F R)) (next : OpeningTalk F R) :
    OpeningTalk F R :=
  .ask (.connect reader) fun card =>
    match card with
    | .error e => retryOrFail reader again (.pcsc e)
    | .ok () => .ask .transaction fun txn =>
        match txn with
        | .error e => .ask .release fun _ => retryOrFail reader again (.pcsc e)
        | .ok () => next

def establishThen (next : OpeningTalk F R) : OpeningTalk F R :=
  .ask .establishContext fun context =>
    match context with
    | .error e => .done (.error (.pcscUnavailable e))
    | .ok () => next

/-- One turn of the loop. `again` is the next one, if a retry is still granted. -/
def cachedTurn (reader : RustStr) (cached : PivSessionState F)
    (again : Option (OpeningTalk F R)) : OpeningTalk F R :=
  establishThen <| .ask (.getStatusChange reader) fun status =>
    connectThen reader again (reuseOrResolve reader cached again status)

def plainTurn (reader : RustStr) (again : Option (OpeningTalk F R)) : OpeningTalk F R :=
  establishThen <| connectThen reader again <|
    resolveAnew reader again { PcscIdentity.default with readerName := reader } false

def nulInName : OpeningError := .transport (.malformedResponse "reader name contained NUL")

/-- There are two turns at most. -/
def withCachedTransaction (reader : RustStr) (cached : PivSessionState F) : OpeningTalk F R :=
  if '\x00' ∈ reader then .done (.error nulInName)
  else cachedTurn reader cached (some (cachedTurn reader cached none))

def withTransaction (reader : RustStr) : OpeningTalk F R :=
  if '\x00' ∈ reader then .done (.error nulInName)
  else plainTurn reader (some (plainTurn reader none))

end Opening

/-! ### Many calls -/

/-- A call: on a reader, from nothing or with the state that an earlier call kept. `held` is the
number of that call, so any state that was ever kept may come back. -/
inductive Opening where
  | plain (reader : RustStr)
  | cached (reader : RustStr) (held : Nat)
deriving DecidableEq, Repr

section Calls

variable {F R : Type}

def Opening.talk (call : Opening) (kept : List (PivSessionState F)) : OpeningTalk F R :=
  match call with
  | .plain reader => withTransaction reader
  | .cached reader held => withCachedTransaction reader (kept.getD held .default)

/-- One call after the other. Every state that one leaves is kept for the later ones. -/
def openAll : List Opening → List (PivSessionState F) →
    Dialogue (OpeningAnswer (F := F) R) (List (PivSessionState F))
  | [], kept => .done kept
  | call :: calls, kept => do
      match ← call.talk kept with
      | .error _ => openAll calls kept
      | .ok (_, state) => openAll calls (kept ++ [state])

end Calls

/-! ### Readers and cards -/

/-- A reader: the card in it, and how often one has been put in or taken out. PC/SC shows the lower
sixteen bits of the count. -/
structure Reader (κ : Type) where
  card : Option κ
  events : Nat

/-- Cards may have come and gone, and each time was counted. So with an equal count the card is
still the same one. -/
structure Reader.Later {κ : Type} (before after : Reader κ) : Prop where
  events : before.events ≤ after.events
  same : after.events = before.events → after.card = before.card

/-- Work as it was begun: on which card and in which state of the session; and the reader as it
was when PC/SC was asked about it in this very turn, if it was asked at all, and its count when
the connection was made. -/
structure Begun (κ F : Type) where
  card : κ
  state : PivSessionState F
  asked : Option (Reader κ)
  found : Nat

/-- The readers, the connection, and all work so far. What PC/SC was asked about belongs to one
turn: a turn begins with a context of its own, and then nothing has been asked yet. -/
structure Readers (κ F : Type) where
  reader : RustStr → Reader κ
  asked : Option (Reader κ)
  found : Nat
  connected : Option κ
  begun : List (Begun κ F)

section Environment

variable {κ F R : Type}

/-- Cards come and go, and nothing else happens: what PC/SC was asked, what it found and what is
connected stay as they are. -/
structure Readers.Later (w v : Readers κ F) : Prop where
  reader : ∀ name, (w.reader name).Later (v.reader name)
  asked : v.asked = w.asked
  found : v.found = w.found
  connected : v.connected = w.connected
  begun : v.begun = w.begun

variable (atrOf : κ → List UInt8) (About : κ → F → Prop)

/-- How PC/SC and the connected card answer. The count is sixteen bits wide. The work adds to
what the session knows about the card, or starts over. -/
inductive Readers.Answers (w : Readers κ F) :
    (q : OpeningAsk F) → OpeningAnswer R q → Readers κ F → Prop
  | establishContext (a : Except PcscError Unit) :
      Answers w .establishContext a { w with asked := none }
  | noStatus (name : RustStr) :
      Answers w (.getStatusChange name) none { w with asked := some (w.reader name) }
  | status (name : RustStr) (flags : ReaderFlags) (count : UInt32)
      (hcount : count.toNat = (w.reader name).events % 65536) :
      Answers w (.getStatusChange name) (some (flags, count))
        { w with asked := some (w.reader name) }
  | notConnected (name : RustStr) (e : PcscError) : Answers w (.connect name) (.error e) w
  | connected (name : RustStr) (c : κ) (hcard : (w.reader name).card = some c) :
      Answers w (.connect name) (.ok ())
        { w with connected := some c, found := (w.reader name).events }
  | transaction (a : Except PcscError Unit) : Answers w .transaction a w
  | atr (c : κ) (hcard : w.connected = some c) : Answers w .atr (atrOf c) w
  | noAtr : Answers w .atr [] w
  | select (a : Except TransportError Unit) : Answers w .select a w
  | fingerprint (c : κ) (facts : F) (hcard : w.connected = some c) (habout : About c facts) :
      Answers w .fingerprint facts w
  | release : Answers w .release () w
  | waitForCard (name : RustStr) : Answers w (.waitForCard name) () w
  | body (c : κ) (state : PivSessionState F) (result : R) (left : PivSessionState F)
      (hcard : w.connected = some c)
      (hidentity : left.pcscIdentity = state.pcscIdentity ∨ left.pcscIdentity = .default)
      (hfacts : (∀ f, state.facts = some f → About c f) → ∀ f, left.facts = some f → About c f) :
      Answers w (.body state) (result, left)
        { w with begun := w.begun ++ [⟨c, state, w.asked, w.found⟩] }

/-- Cards may come and go before every answer. -/
def Readers.Step : Dialogue.Device (OpeningAnswer (F := F) R) (Readers κ F) :=
  fun w q a t => ∃ v, w.Later v ∧ v.Answers atrOf About q a t

/-- Before any call. -/
def Readers.start (reader : RustStr → Reader κ) : Readers κ F :=
  { reader, asked := none, found := 0, connected := none, begun := [] }

end Environment

/-! ### Facts stay with their card -/

section Truth

variable {κ F R : Type} (atrOf : κ → List UInt8) (About : κ → F → Prop)

/-- What the work was begun with is about its card, unless a card was put in or taken out after
PC/SC was asked about the reader in this very turn; then it is about the card of that moment,
and the two cannot be told apart by their ATR. A turn that asks nothing about the reader has no
such exception. And no verification of a PIN is left over. -/
structure Begun.Right (b : Begun κ F) : Prop where
  facts : ∀ facts, b.state.facts = some facts → About b.card facts ∨
    ∃ asked, b.asked = some asked ∧ asked.events < b.found ∧
      ∃ c, asked.card = some c ∧ About c facts ∧
        (atrOf c = atrOf b.card ∨ b.state.pcscIdentity.atr = [])
  pin : b.state.pinRetriesCache.any (·.verified) = false

/-- As long as the count stands, the facts are about the card in the reader. -/
def Stamped (reader : Reader κ) (s : PivSessionState F) : Prop :=
  ∀ count facts, s.pcscIdentity.eventCount = some count → s.facts = some facts →
    count.toNat ≤ reader.events ∧ (count.toNat = reader.events →
      ∃ c, reader.card = some c ∧ About c facts ∧
        (s.pcscIdentity.atr = atrOf c ∨ s.pcscIdentity.atr = []))

structure Sound (kept : List (PivSessionState F)) (w : Readers κ F) : Prop where
  kept : ∀ s ∈ kept, Stamped atrOf About (w.reader s.pcscIdentity.readerName) s
  begun : ∀ b ∈ w.begun, b.Right atrOf About

/-- The counts have not come round. -/
def Readers.Few (w : Readers κ F) : Prop := ∀ name, (w.reader name).events < 65536

def Invariant (kept : List (PivSessionState F)) (w : Readers κ F) : Prop :=
  w.Few → Sound atrOf About kept w

/-- How the connection stands to the reader and to what PC/SC was asked before. The counter that is
kept is the number of events modulo 2¹⁶; where that number itself is still the same, the card is the
one that was asked. -/
structure Linked (name : RustStr) (count : UInt32) (asked : Reader κ) (w : Readers κ F) :
    Prop where
  recorded : w.asked = some asked
  counted : count.toNat = asked.events % 65536
  order : asked.events ≤ w.found
  found : w.found ≤ (w.reader name).events
  asked : ∀ c, w.connected = some c → w.found = asked.events → asked.card = some c
  met : ∀ c, w.connected = some c → (w.reader name).events = w.found →
    (w.reader name).card = some c

variable {atrOf About} {kept : List (PivSessionState F)} {w v : Readers κ F}
  {s cached : PivSessionState F} {name : RustStr} {again : Option (OpeningTalk F R)}

theorem Readers.Later.few (h : w.Later v) (hfew : v.Few) : w.Few :=
  fun name => Nat.lt_of_le_of_lt (h.reader name).events (hfew name)

theorem Stamped.later {before after : Reader κ} (h : before.Later after)
    (hstamped : Stamped atrOf About before s) : Stamped atrOf About after s := by
  intro count facts hcount hfacts
  obtain ⟨hle, hcard⟩ := hstamped count facts hcount hfacts
  refine ⟨Nat.le_trans hle h.events, fun heq => ?_⟩
  have hstood : after.events = before.events :=
    Nat.le_antisymm (heq ▸ hle) h.events
  rw [h.same hstood]
  exact hcard (heq.trans hstood)

theorem stamped_of_no_count (h : s.pcscIdentity.eventCount = none) (reader : Reader κ) :
    Stamped atrOf About reader s := by
  intro count facts hcount
  rw [h] at hcount
  cases hcount

theorem Invariant.later (h : w.Later v) (hinv : Invariant atrOf About kept w) :
    Invariant atrOf About kept v := by
  intro hfew
  obtain ⟨hkept, hbegun⟩ := hinv (h.few hfew)
  refine ⟨fun s hs => (hkept s hs).later (h.reader _), fun b hb => hbegun b ?_⟩
  rwa [← h.begun]

theorem Invariant.of_same (hinv : Invariant atrOf About kept w) (hreader : v.reader = w.reader)
    (hbegun : v.begun = w.begun) : Invariant atrOf About kept v := by
  intro hfew
  have hfew : w.Few := fun name => hreader ▸ hfew name
  obtain ⟨hkept, hold⟩ := hinv hfew
  exact ⟨fun s hs => hreader ▸ hkept s hs, fun b hb => hold b (hbegun ▸ hb)⟩

theorem Linked.later {count : UInt32} {asked : Reader κ} (h : w.Later v)
    (hlinked : Linked name count asked w) : Linked name count asked v := by
  obtain ⟨hrecorded, hcounted, horder, hfound, hasked, hmet⟩ := hlinked
  have hreader := h.reader name
  constructor
  · rw [h.asked]
    exact hrecorded
  · exact hcounted
  · rw [h.found]
    exact horder
  · rw [h.found]
    exact Nat.le_trans hfound hreader.events
  · rw [h.connected, h.found]
    exact hasked
  · intro c hc hevents
    rw [h.connected] at hc
    rw [h.found] at hevents
    have hstood : (v.reader name).events = (w.reader name).events :=
      Nat.le_antisymm (hevents ▸ hfound) hreader.events
    rw [hreader.same hstood]
    exact hmet c hc (hstood.symm.trans hevents)

theorem pcscEventCountUnchanged_iff {old fresh : Option UInt32} :
    pcscEventCountUnchanged old fresh = true ↔ ∃ count, old = some count ∧ fresh = some count := by
  constructor
  · intro h
    rcases old with _ | old
    · cases fresh <;> exact absurd h Bool.false_ne_true
    · rcases fresh with _ | fresh
      · exact absurd h Bool.false_ne_true
      · exact ⟨fresh, congrArg some (eq_of_beq h), rfl⟩
  · rintro ⟨count, rfl, rfl⟩
    exact beq_self_eq_true count

@[simp] theorem PivSessionState.facts_forgetPinVerification :
    s.forgetPinVerification.facts = s.facts := by
  unfold PivSessionState.forgetPinVerification
  split <;> rfl

theorem PivSessionState.unverified_forgetPinVerification :
    s.forgetPinVerification.pinRetriesCache.any (·.verified) = false := by
  unfold PivSessionState.forgetPinVerification
  split
  · rfl
  · next h => exact Bool.eq_false_iff.mpr h

/-- What holds after a call, with the state that it kept. -/
def Holds (atrOf : κ → List UInt8) (About : κ → F → Prop) (kept : List (PivSessionState F))
    (p : OpeningTalk F R) (w : Readers κ F) : Prop :=
  p.Always (Readers.Step atrOf About) (fun r t => Invariant atrOf About
    (kept ++ (r.toOption.map (·.2)).toList) t) w

/-- Another turn is as sound as the one before. -/
def Again (atrOf : κ → List UInt8) (About : κ → F → Prop) (kept : List (PivSessionState F))
    (again : Option (OpeningTalk F R)) : Prop :=
  ∀ p, again = some p → ∀ w, Invariant atrOf About kept w → Holds atrOf About kept p w

theorem holds_error {e : OpeningError} (h : Invariant atrOf About kept w) :
    Holds atrOf About kept (.done (.error e) : OpeningTalk F R) w := by
  change Invariant atrOf About (kept ++ []) w
  rwa [List.append_nil]

theorem holds_retryOrFail {e : TransportError} (hagain : Again atrOf About kept again)
    (h : Invariant atrOf About kept w) :
    Holds atrOf About kept (retryOrFail name again e) w := by
  rcases again with _ | p
  · exact holds_error h
  · rw [retryOrFail]
    split
    · rintro a t ⟨v, hlater, hanswer⟩
      cases hanswer
      exact hagain p rfl _ (h.later hlater)
    · exact holds_error h

/-- The work leaves what it was given, or more of the same card. -/
theorem holds_runBody (h : Invariant atrOf About kept w)
    (hlinked : ∀ count, s.pcscIdentity.eventCount = some count →
      ∃ asked, Linked s.pcscIdentity.readerName count asked w)
    (hatr : ∀ c, w.connected = some c → s.pcscIdentity.atr = atrOf c ∨ s.pcscIdentity.atr = [])
    (hright : w.Few → ∀ c, w.connected = some c →
      Begun.Right atrOf About ⟨c, s, w.asked, w.found⟩) :
    Holds atrOf About kept (runBody s : OpeningTalk F R) w := by
  rintro a t ⟨v, hlater, hanswer⟩
  cases hanswer with
  | body c _ result left hcard hidentity hfacts =>
      intro hfew
      have hfew : v.Few := hfew
      have hbefore : w.connected = some c := hlater.connected ▸ hcard
      have hbegun := hright (hlater.few hfew) c hbefore
      obtain ⟨hkept, hold⟩ := h.later hlater hfew
      constructor
      · intro s' hs'
        rcases List.mem_append.mp hs' with hs' | hs'
        · exact hkept s' hs'
        · obtain rfl : s' = left := List.mem_singleton.mp hs'
          rcases hidentity with hsame | hdefault
          · intro count facts hcount hleft
            rw [hsame] at hcount ⊢
            obtain ⟨asked, hrecorded, hcounted, horder, hfound, hasked, hmet⟩ :=
              (hlinked count hcount).imp fun _ hold => hold.later hlater
            have hlt := hfew s.pcscIdentity.readerName
            have hnow : count.toNat = asked.events := by
              rw [hcounted]
              exact Nat.mod_eq_of_lt (by omega)
            refine ⟨by show count.toNat ≤ (v.reader _).events; omega, fun heq => ?_⟩
            have heq : count.toNat = (v.reader s.pcscIdentity.readerName).events := heq
            refine ⟨c, hmet c hcard (by omega), hfacts ?_ facts hleft, hatr c hbefore⟩
            intro f hf
            refine (hbegun.facts f hf).resolve_right fun ⟨old, hold, hrace, _⟩ => ?_
            -- a race would have moved the count past the one that the state keeps
            have hold : w.asked = some old := hold
            have hrace : old.events < w.found := hrace
            rw [hlater.asked, hold] at hrecorded
            obtain rfl := Option.some.inj hrecorded
            rw [hlater.found] at hfound horder
            omega
          · refine stamped_of_no_count ?_ _
            rw [hdefault]
            rfl
      · intro b hb
        rcases List.mem_append.mp hb with hb | hb
        · exact hold b hb
        · obtain rfl := List.mem_singleton.mp hb
          rw [hlater.asked, hlater.found]
          exact hbegun

theorem holds_resolveAnew {identity : PcscIdentity} {unsupported : Bool}
    (hagain : Again atrOf About kept again) (h : Invariant atrOf About kept w)
    (hlinked : ∀ count, identity.eventCount = some count →
      ∃ asked, Linked identity.readerName count asked w)
    (hatr : ∀ c, w.connected = some c → identity.atr = atrOf c ∨ identity.atr = []) :
    Holds atrOf About kept (resolveAnew name again identity unsupported) w := by
  rintro a v ⟨v, hlater, hanswer⟩
  cases hanswer with
  | select a =>
      rcases a with e | u
      · rintro a u ⟨u, hlater', hanswer⟩
        cases hanswer
        exact holds_retryOrFail hagain ((h.later hlater).later hlater')
      · rintro a u ⟨u, hlater', hanswer⟩
        cases hanswer with
        | fingerprint c facts hcard habout =>
            refine holds_runBody ((h.later hlater).later hlater')
              (fun count hcount => (hlinked count hcount).imp fun _ hold =>
                (hold.later hlater).later hlater') ?_ ?_
            · rw [hlater'.connected, hlater.connected]
              exact hatr
            · intro hfew c' hc'
              obtain rfl := Option.some.inj (hcard.symm.trans hc')
              refine ⟨fun f hf => .inl ?_, rfl⟩
              obtain rfl := Option.some.inj hf
              exact habout

theorem holds_reuseOrResolve {status : Option (ReaderFlags × UInt32)}
    (hagain : Again atrOf About kept again) (h : Invariant atrOf About kept w)
    (hlinked : ∀ reading, status = some reading → ∃ asked, Linked name reading.2 asked w)
    (hcached : w.Few → cached.pcscIdentity.readerName = name →
      ∀ asked, w.asked = some asked → Stamped atrOf About asked cached) :
    Holds atrOf About kept (reuseOrResolve name cached again status) w := by
  rintro atr t ⟨v, hlater, hanswer⟩
  have hv : t = v := by
    cases hanswer <;> rfl
  have hatr : ∀ c, t.connected = some c → atr = atrOf c ∨ atr = [] := by
    intro c hc
    cases hanswer with
    | atr c' hcard => exact .inl (congrArg atrOf (Option.some.inj (hcard.symm.trans hc)))
    | noAtr => exact .inr rfl
  subst hv
  have hnext : ∀ count, status.map (·.2) = some count → ∃ asked, Linked name count asked t := by
    intro count hcount
    obtain ⟨reading, hreading, rfl⟩ := Option.map_eq_some_iff.mp hcount
    exact (hlinked reading hreading).imp fun _ hold => hold.later hlater
  dsimp only
  split
  · next hreusable =>
      have hmatches := (Bool.and_eq_true_iff.mp hreusable).2
      obtain ⟨hnameCount, hsameAtr⟩ := Bool.and_eq_true_iff.mp hmatches
      obtain ⟨hname, hcount⟩ := Bool.and_eq_true_iff.mp hnameCount
      have hname : cached.pcscIdentity.readerName = name := eq_of_beq hname
      have hsameAtr : cached.pcscIdentity.atr = atr := eq_of_beq hsameAtr
      obtain ⟨count, hold, hfresh⟩ := pcscEventCountUnchanged_iff.mp hcount
      refine holds_runBody (h.later hlater) hnext hatr fun hfew c hc => ?_
      refine ⟨fun facts hfacts => ?_, PivSessionState.unverified_forgetPinVerification⟩
      obtain ⟨asked, hrecorded, hcounted, horder, hfound, hasked, -⟩ := hnext count hfresh
      have hlt := hfew name
      have hnow : count.toNat = asked.events := by
        rw [hcounted]
        exact Nat.mod_eq_of_lt (by omega)
      have hfacts : cached.facts = some facts :=
        PivSessionState.facts_forgetPinVerification.symm.trans hfacts
      have hstamped := hcached (hlater.few hfew) hname asked (hlater.asked.symm.trans hrecorded)
        count facts hold hfacts
      obtain ⟨seen, hseen, habout, hseenAtr⟩ := hstamped.2 hnow
      rcases Nat.eq_or_lt_of_le horder with heq | hrace
      · -- nothing has moved since PC/SC was asked
        obtain rfl := Option.some.inj (hseen.symm.trans (hasked c hc heq.symm))
        exact .inl habout
      · refine .inr ⟨asked, hrecorded, hrace, seen, hseen, habout, ?_⟩
        rw [hsameAtr] at hseenAtr
        rcases hseenAtr with hseenAtr | hnone
        · exact (hatr c hc).imp_left hseenAtr.symm.trans
        · exact .inr hnone
  · exact holds_resolveAnew hagain (h.later hlater) hnext hatr

/-- The connection is to the card that is in the reader when it is made. -/
theorem holds_connectThen {next : OpeningTalk F R} (hagain : Again atrOf About kept again)
    (h : Invariant atrOf About kept w)
    (hnext : ∀ v c u, w.Later v → (v.reader name).card = some c →
      Readers.Later { v with connected := some c, found := (v.reader name).events } u →
      Invariant atrOf About kept u → Holds atrOf About kept next u) :
    Holds atrOf About kept (connectThen name again next) w := by
  rintro a t ⟨v, hlater, hanswer⟩
  cases hanswer with
  | notConnected _ e => exact holds_retryOrFail hagain (h.later hlater)
  | connected _ c hcard =>
      have hinv : Invariant atrOf About kept
          { v with connected := some c, found := (v.reader name).events } :=
        (h.later hlater).of_same rfl rfl
      rintro a t ⟨u, hlater', hanswer⟩
      cases hanswer with
      | transaction a =>
          have hinv' := hinv.later hlater'
          rcases a with e | ⟨⟩
          · rintro a t ⟨x, hlater'', hanswer⟩
            cases hanswer
            exact holds_retryOrFail hagain (hinv'.later hlater'')
          · exact hnext v c _ hlater hcard hlater' hinv'

theorem holds_establishThen {next : OpeningTalk F R} (h : Invariant atrOf About kept w)
    (hnext : ∀ v, Invariant atrOf About kept v → Holds atrOf About kept next v) :
    Holds atrOf About kept (establishThen next) w := by
  rintro a t ⟨v, hlater, hanswer⟩
  cases hanswer with
  | establishContext a =>
      rcases a with e | ⟨⟩
      · exact holds_error ((h.later hlater).of_same rfl rfl)
      · exact hnext _ ((h.later hlater).of_same rfl rfl)

theorem holds_plainTurn (hagain : Again atrOf About kept again)
    (h : Invariant atrOf About kept w) :
    Holds atrOf About kept (plainTurn name again) w := by
  refine holds_establishThen h fun v hv => holds_connectThen hagain hv ?_
  intro _ _ u _ _ _ hu
  exact holds_resolveAnew hagain hu nofun fun _ _ => .inr rfl

/-- When the connection is made, the reader has only moved on since PC/SC was asked. -/
theorem linked_of_connected {v x u : Readers κ F} {c : κ} {count : UInt32}
    (hcount : count.toNat = (v.reader name).events % 65536)
    (hlater : Readers.Later { v with asked := some (v.reader name) } x)
    (hcard : (x.reader name).card = some c)
    (hlater' : Readers.Later { x with connected := some c, found := (x.reader name).events } u) :
    Linked name count (v.reader name) u := by
  have hreader : (v.reader name).Later (x.reader name) := hlater.reader name
  refine Linked.later hlater' ⟨hlater.asked, hcount, hreader.events, Nat.le_refl _, ?_, ?_⟩
  · rintro c' hc' hevents
    obtain rfl := Option.some.inj hc'
    exact (hreader.same hevents).symm.trans hcard
  · rintro c' hc' -
    obtain rfl := Option.some.inj hc'
    exact hcard

theorem holds_cachedTurn (hagain : Again atrOf About kept again)
    (h : Invariant atrOf About kept w) (hheld : cached ∈ kept ∨ cached = .default) :
    Holds atrOf About kept (cachedTurn name cached again) w := by
  refine holds_establishThen h fun v hv => ?_
  have hstamped : ∀ x : Readers κ F, Invariant atrOf About kept x → x.Few →
      cached.pcscIdentity.readerName = name → Stamped atrOf About (x.reader name) cached := by
    intro x hx hfew hname
    rcases hheld with hmem | rfl
    · rw [← hname]
      exact (hx hfew).kept cached hmem
    · exact stamped_of_no_count rfl _
  rintro status t ⟨x, hlater, hanswer⟩
  have hx := hv.later hlater
  have hasked : t = { x with asked := some (x.reader name) } := by
    cases hanswer <;> rfl
  have hreading : ∀ reading, status = some reading →
      reading.2.toNat = (x.reader name).events % 65536 := by
    intro reading hstatus
    cases hanswer with
    | noStatus => cases hstatus
    | status _ flags count hcount =>
        obtain rfl := Option.some.inj hstatus
        exact hcount
  subst hasked
  refine holds_connectThen hagain (hx.of_same rfl rfl) ?_
  intro y c u hlater' hcard hlater'' hu
  refine holds_reuseOrResolve hagain hu ?_ ?_
  · intro reading hstatus
    exact ⟨_, linked_of_connected (hreading reading hstatus) hlater' hcard hlater''⟩
  · intro hfew hname asked hasked
    have hrecorded : u.asked = some (x.reader name) := hlater''.asked.trans hlater'.asked
    obtain rfl := Option.some.inj (hrecorded.symm.trans hasked)
    exact hstamped x hx (hlater'.few (hlater''.few hfew)) hname

theorem again_none : Again atrOf About kept (none : Option (OpeningTalk F R)) := nofun

theorem again_some {p : OpeningTalk F R}
    (h : ∀ w, Invariant atrOf About kept w → Holds atrOf About kept p w) :
    Again atrOf About kept (some p) := by
  intro q hq w hw
  obtain rfl := Option.some.inj hq
  exact h w hw

theorem holds_talk (call : Opening) (h : Invariant atrOf About kept w) :
    Holds atrOf About kept (call.talk kept : OpeningTalk F R) w := by
  cases call with
  | plain reader =>
      rw [Opening.talk, withTransaction]
      split
      · exact holds_error h
      · exact holds_plainTurn (again_some fun _ => holds_plainTurn again_none) h
  | cached reader held =>
      have hheld : kept.getD held .default ∈ kept ∨ kept.getD held .default = .default := by
        rcases Nat.lt_or_ge held kept.length with hlt | hge
        · rw [List.getD_eq_getElem _ _ hlt]
          exact .inl (List.getElem_mem hlt)
        · exact .inr (List.getD_eq_default _ _ hge)
      rw [Opening.talk, withCachedTransaction]
      split
      · exact holds_error h
      · exact holds_cachedTurn
          (again_some fun _ hw => holds_cachedTurn again_none hw hheld) h hheld

theorem openAll_keeps (calls : List Opening) (h : Invariant atrOf About kept w) :
    (openAll calls kept : Dialogue (OpeningAnswer (F := F) R) _).Always
      (Readers.Step atrOf About) (Invariant atrOf About) w := by
  induction calls generalizing kept w with
  | nil => exact h
  | cons call calls ih =>
      refine Dialogue.Always.bind ((holds_talk call h).mono ?_)
      rintro (e | ⟨result, state⟩) t hinv
      · have hinv : Invariant atrOf About (kept ++ []) t := hinv
        rw [List.append_nil] at hinv
        exact ih hinv
      · exact ih hinv

/-- **Work is begun with facts about its own card**, whatever calls are made, with whatever
state any earlier one left, and however cards come and go: unless a card was put in or taken out
between the question about the reader and the connection of that turn, in which case the facts
are about the card that was in the reader when PC/SC was asked and no ATR tells the two apart, or
some reader has seen 65536 cards come or go. An opening that trusts no cache asks nothing about
the reader, and its work is always begun with facts about its own card. Two things are taken from
outside: `About`, that what first contact reads of a card depends on that card alone, and that the
counter of a reader never starts over, as `Readers.Step` has it. -/
theorem work_begins_with_facts_of_its_card (calls : List Opening)
    (reader : RustStr → Reader κ) :
    (openAll calls [] : Dialogue (OpeningAnswer (F := F) R) _).Always (Readers.Step atrOf About)
      (fun _ w => (∀ b ∈ w.begun, b.Right atrOf About) ∨
        ∃ name, 65536 ≤ (w.reader name).events) (Readers.start reader) := by
  have hstart : Invariant atrOf About [] (Readers.start reader : Readers κ F) :=
    fun _ => ⟨nofun, nofun⟩
  refine (openAll_keeps calls hstart).mono fun kept w hinv => ?_
  by_cases hfew : w.Few
  · exact .inl (hinv hfew).begun
  · obtain ⟨name, hname⟩ := not_forall.mp hfew
    exact .inr ⟨name, Nat.le_of_not_lt hname⟩

end Truth

/-! ### One piece of work, one retry -/

section Once

variable {F R : Type}

abbrev OpeningLine (F R : Type) : Type := Dialogue.Asked (OpeningAnswer (F := F) R)

def OpeningLine.begins : OpeningLine F R → Bool
  | ⟨.establishContext, _⟩ => true
  | _ => false

def OpeningLine.works : OpeningLine F R → Bool
  | ⟨.body _, _⟩ => true
  | _ => false

def OpeningLine.connects : OpeningLine F R → Bool
  | ⟨.connect _, .ok ()⟩ => true
  | _ => false

def OpeningLine.releases : OpeningLine F R → Bool
  | ⟨.release, _⟩ => true
  | _ => false

/-- What went wrong at first contact. -/
def OpeningLine.failure : OpeningLine F R → Option TransportError
  | ⟨.connect _, .error e⟩ => some (.pcsc e)
  | ⟨.transaction, .error e⟩ => some (.pcsc e)
  | ⟨.select, .error e⟩ => some e
  | _ => none

/-- A conversation in which `held` connections were open at its start and at most `turns` contexts
are asked for. The work comes last and once, or not at all, and one connection is left for it. -/
structure Spoken (held turns : Nat) (log : List (OpeningLine F R))
    (r : Except OpeningError (R × PivSessionState F)) : Prop where
  done : ∀ result, r = .ok result → ∃ before state,
    log = before ++ [⟨.body state, result⟩] ∧ before.countP OpeningLine.works = 0 ∧
      held + log.countP OpeningLine.connects = log.countP OpeningLine.releases + 1
  failed : ∀ e, r = .error e → log.countP OpeningLine.works = 0 ∧
    held + log.countP OpeningLine.connects = log.countP OpeningLine.releases
  turns : log.countP OpeningLine.begins ≤ turns

/-- A further turn is one that ends well by itself. -/
def OneMore (turns : Nat) (again : Option (OpeningTalk F R)) : Prop :=
  ∀ p, again = some p → ∀ log r, p.Says log r → Spoken 0 turns log r

/-- After this many contexts and before a further one, first contact failed for a card that was
reset or is absent. -/
def Excused (begun : Nat) (log : List (OpeningLine F R)) : Prop :=
  ∃ before line after e, log = before ++ line :: after ∧
    before.countP OpeningLine.begins = begun ∧ 0 < after.countP OpeningLine.begins ∧
    line.failure = some e ∧ worthRetrying e = true

/-- A line that is not the work, in front of what is spoken. -/
theorem Spoken.cons {held held' turns turns' : Nat} {line : OpeningLine F R}
    {log : List (OpeningLine F R)} {r : Except OpeningError (R × PivSessionState F)}
    (h : Spoken held' turns' log r) (hworks : line.works = false)
    (hheld : held + line.connects.toNat = held' + line.releases.toNat)
    (hturns : turns' + line.begins.toNat ≤ turns) : Spoken held turns (line :: log) r := by
  have hcount : ∀ p : OpeningLine F R → Bool,
      (line :: log).countP p = log.countP p + (p line).toNat := by
    intro p
    rw [List.countP_cons]
    cases p line <;> rfl
  obtain ⟨hdone, hfailed, hle⟩ := h
  refine ⟨fun result hr => ?_, fun e hr => ?_, ?_⟩
  · obtain ⟨before, state, rfl, hbefore, hbalance⟩ := hdone result hr
    refine ⟨line :: before, state, rfl, ?_, ?_⟩
    · rw [List.countP_cons, hbefore, hworks]
      rfl
    · rw [hcount, hcount]
      omega
  · obtain ⟨hnone, hbalance⟩ := hfailed e hr
    rw [hcount, hcount, hcount, hnone, hworks]
    exact ⟨rfl, by omega⟩
  · rw [hcount]
    omega

theorem spoken_runBody {state : PivSessionState F} {turns : Nat} {log : List (OpeningLine F R)}
    {r : Except OpeningError (R × PivSessionState F)} (h : (runBody state).Says log r) :
    Spoken 1 turns log r ∧ log.countP OpeningLine.begins = 0 := by
  obtain ⟨result, rest, rfl, h'⟩ := Dialogue.says_ask.mp h
  obtain ⟨rfl, rfl⟩ := Dialogue.says_done.mp h'
  refine ⟨⟨fun other hr => ?_, fun e hr => (by cases hr), Nat.zero_le _⟩, rfl⟩
  obtain rfl := Except.ok.inj hr
  exact ⟨[], state, rfl, rfl, rfl⟩

theorem Excused.cons {line : OpeningLine F R} {log : List (OpeningLine F R)} {begun : Nat}
    (h : Excused begun log) : Excused (begun + line.begins.toNat) (line :: log) := by
  obtain ⟨before, failed, after, e, rfl, hbefore, hrest⟩ := h
  refine ⟨line :: before, failed, after, e, rfl, ?_, hrest⟩
  rw [List.countP_cons, hbefore]
  cases line.begins <;> rfl

variable {reader : RustStr} {again : Option (OpeningTalk F R)} {turns : Nat}
  {log : List (OpeningLine F R)} {r : Except OpeningError (R × PivSessionState F)}

theorem spoken_retryOrFail (hagain : OneMore turns again) {e : TransportError}
    (h : (retryOrFail reader again e).Says log r) :
    Spoken 0 turns log r ∧ (0 < log.countP OpeningLine.begins → worthRetrying e = true) := by
  have hgivenUp : ∀ {log : List (OpeningLine F R)},
      (Dialogue.done (.error (.transport e)) : OpeningTalk F R).Says log r →
        Spoken 0 turns log r ∧ (0 < log.countP OpeningLine.begins → worthRetrying e = true) := by
    intro log h
    obtain ⟨rfl, rfl⟩ := Dialogue.says_done.mp h
    exact ⟨⟨fun _ hr => (by cases hr), fun _ _ => ⟨rfl, rfl⟩, Nat.zero_le _⟩,
      fun hpos => absurd hpos (Nat.lt_irrefl 0)⟩
  rcases again with _ | p
  · exact hgivenUp h
  · rw [retryOrFail] at h
    split at h
    · next hworth =>
        obtain ⟨_, rest, rfl, h'⟩ := Dialogue.says_ask.mp h
        exact ⟨(hagain p rfl rest r h').cons rfl rfl (Nat.le_refl _), fun _ => hworth⟩
    · exact hgivenUp h

theorem spoken_resolveAnew (hagain : OneMore turns again) {identity : PcscIdentity}
    {unsupported : Bool} (h : (resolveAnew reader again identity unsupported).Says log r) :
    Spoken 1 turns log r ∧ (0 < log.countP OpeningLine.begins → Excused 0 log) := by
  obtain ⟨answer, rest, rfl, h'⟩ := Dialogue.says_ask.mp h
  rcases answer with e | ⟨⟩
  · obtain ⟨_, rest, rfl, h''⟩ := Dialogue.says_ask.mp h'
    obtain ⟨hspoken, hworth⟩ := spoken_retryOrFail hagain h''
    have hreleased : Spoken 1 turns (⟨.release, ()⟩ :: rest) r :=
      hspoken.cons rfl rfl (Nat.le_refl _)
    refine ⟨hreleased.cons rfl rfl (Nat.le_refl _), fun hpos => ?_⟩
    exact ⟨[], _, _, e, rfl, rfl, hpos, rfl, hworth hpos⟩
  · obtain ⟨facts, rest, rfl, h''⟩ := Dialogue.says_ask.mp h'
    obtain ⟨hspoken, hnone⟩ := @spoken_runBody _ _ _ turns _ _ h''
    have htold : Spoken 1 turns (⟨.fingerprint, facts⟩ :: rest) r :=
      hspoken.cons rfl rfl (Nat.le_refl _)
    refine ⟨htold.cons rfl rfl (Nat.le_refl _), fun hpos => ?_⟩
    have hpos : 0 < rest.countP OpeningLine.begins := hpos
    rw [hnone] at hpos
    exact absurd hpos (Nat.lt_irrefl 0)

theorem spoken_reuseOrResolve (hagain : OneMore turns again) {cached : PivSessionState F}
    {status : Option (ReaderFlags × UInt32)}
    (h : (reuseOrResolve reader cached again status).Says log r) :
    Spoken 1 turns log r ∧ (0 < log.countP OpeningLine.begins → Excused 0 log) := by
  obtain ⟨atr, rest, rfl, h'⟩ := Dialogue.says_ask.mp h
  dsimp only at h'
  split at h'
  · obtain ⟨hspoken, hnone⟩ := @spoken_runBody _ _ _ turns _ _ h'
    refine ⟨hspoken.cons rfl rfl (Nat.le_refl _), fun hpos => ?_⟩
    have hpos : 0 < rest.countP OpeningLine.begins := hpos
    rw [hnone] at hpos
    exact absurd hpos (Nat.lt_irrefl 0)
  · obtain ⟨hspoken, hexcused⟩ := spoken_resolveAnew hagain h'
    exact ⟨hspoken.cons rfl rfl (Nat.le_refl _), fun hpos => (hexcused hpos).cons⟩

theorem spoken_connectThen {next : OpeningTalk F R} (hagain : OneMore turns again)
    (hnext : ∀ log, next.Says log r →
      Spoken 1 turns log r ∧ (0 < log.countP OpeningLine.begins → Excused 0 log))
    (h : (connectThen reader again next).Says log r) :
    Spoken 0 turns log r ∧ (0 < log.countP OpeningLine.begins → Excused 0 log) := by
  obtain ⟨card, rest, rfl, h'⟩ := Dialogue.says_ask.mp h
  rcases card with e | ⟨⟩
  · obtain ⟨hspoken, hworth⟩ := spoken_retryOrFail hagain h'
    refine ⟨hspoken.cons rfl rfl (Nat.le_refl _), fun hpos => ?_⟩
    exact ⟨[], _, _, _, rfl, rfl, hpos, rfl, hworth hpos⟩
  · obtain ⟨txn, rest, rfl, h''⟩ := Dialogue.says_ask.mp h'
    rcases txn with e | ⟨⟩
    · obtain ⟨_, rest, rfl, h'''⟩ := Dialogue.says_ask.mp h''
      obtain ⟨hspoken, hworth⟩ := spoken_retryOrFail hagain h'''
      have hreleased : Spoken 1 turns (⟨.release, ()⟩ :: rest) r :=
        hspoken.cons rfl rfl (Nat.le_refl _)
      have hbegun : Spoken 1 turns (⟨.transaction, .error e⟩ :: ⟨.release, ()⟩ :: rest) r :=
        hreleased.cons rfl rfl (Nat.le_refl _)
      refine ⟨hbegun.cons rfl rfl (Nat.le_refl _), fun hpos => ?_⟩
      exact ⟨[⟨.connect reader, .ok ()⟩], _, _, _, rfl, rfl, hpos, rfl, hworth hpos⟩
    · obtain ⟨hspoken, hexcused⟩ := hnext rest h''
      have hbegun : Spoken 1 turns (⟨.transaction, .ok ()⟩ :: rest) r :=
        hspoken.cons rfl rfl (Nat.le_refl _)
      exact ⟨hbegun.cons rfl rfl (Nat.le_refl _), fun hpos => (hexcused hpos).cons.cons⟩

theorem spoken_establishThen {next : OpeningTalk F R}
    (hnext : ∀ log, next.Says log r →
      Spoken 0 turns log r ∧ (0 < log.countP OpeningLine.begins → Excused 0 log))
    (h : (establishThen next).Says log r) :
    Spoken 0 (turns + 1) log r ∧ (1 < log.countP OpeningLine.begins → Excused 1 log) := by
  obtain ⟨context, rest, rfl, h'⟩ := Dialogue.says_ask.mp h
  rcases context with e | ⟨⟩
  · obtain ⟨rfl, rfl⟩ := Dialogue.says_done.mp h'
    exact ⟨⟨fun _ hr => (by cases hr), fun _ _ => ⟨rfl, rfl⟩, Nat.le_add_left 1 turns⟩,
      fun hlt => absurd hlt (Nat.lt_irrefl 1)⟩
  · obtain ⟨hspoken, hexcused⟩ := hnext rest h'
    refine ⟨hspoken.cons rfl rfl (Nat.le_refl _), fun hlt => (hexcused ?_).cons⟩
    rw [List.countP_cons_of_pos rfl] at hlt
    exact Nat.lt_of_succ_lt_succ hlt

theorem spoken_cachedTurn (hagain : OneMore turns again) {cached : PivSessionState F}
    (h : (cachedTurn reader cached again).Says log r) :
    Spoken 0 (turns + 1) log r ∧ (1 < log.countP OpeningLine.begins → Excused 1 log) := by
  refine spoken_establishThen (fun log h => ?_) h
  obtain ⟨status, rest, rfl, h'⟩ := Dialogue.says_ask.mp h
  obtain ⟨hspoken, hexcused⟩ :=
    spoken_connectThen hagain (fun _ => spoken_reuseOrResolve hagain) h'
  exact ⟨hspoken.cons rfl rfl (Nat.le_refl _), fun hpos => (hexcused hpos).cons⟩

theorem spoken_plainTurn (hagain : OneMore turns again)
    (h : (plainTurn reader again).Says log r) :
    Spoken 0 (turns + 1) log r ∧ (1 < log.countP OpeningLine.begins → Excused 1 log) :=
  spoken_establishThen
    (fun _ => spoken_connectThen hagain fun _ => spoken_resolveAnew hagain) h

theorem oneMore_none : OneMore 0 (none : Option (OpeningTalk F R)) := by
  intro p hp
  cases hp

theorem oneMore_some {p : OpeningTalk F R} (h : ∀ log r, p.Says log r → Spoken 0 turns log r) :
    OneMore turns (some p) := by
  intro q hq
  obtain rfl := Option.some.inj hq
  exact h

/-- **The work is done once or not at all**: once, last and on the one connection still open, if
the call returns its result; not at all, with no connection left open, if it returns an error. An
opening is tried twice at most, and a second context is asked for only where first contact in
the first turn failed for a card that was reset or is absent. -/
theorem work_is_done_once (call : Opening) (kept : List (PivSessionState F))
    (log : List (OpeningLine F R)) (r : Except OpeningError (R × PivSessionState F))
    (h : (call.talk kept).Says log r) :
    Spoken 0 2 log r ∧ (1 < log.countP OpeningLine.begins → Excused 1 log) := by
  have hnul : ∀ {log : List (OpeningLine F R)},
      (Dialogue.done (.error nulInName) : OpeningTalk F R).Says log r →
        Spoken 0 2 log r ∧ (1 < log.countP OpeningLine.begins → Excused 1 log) := by
    intro log h
    obtain ⟨rfl, rfl⟩ := Dialogue.says_done.mp h
    exact ⟨⟨fun _ hr => (by cases hr), fun _ _ => ⟨rfl, rfl⟩, Nat.zero_le _⟩,
      fun hlt => absurd hlt (Nat.not_lt_zero 1)⟩
  cases call with
  | plain reader =>
      rw [Opening.talk, withTransaction] at h
      split at h
      · exact hnul h
      · exact spoken_plainTurn
          (oneMore_some fun _ _ h => (spoken_plainTurn oneMore_none h).1) h
  | cached reader held =>
      rw [Opening.talk, withCachedTransaction] at h
      split at h
      · exact hnul h
      · exact spoken_cachedTurn
          (oneMore_some fun _ _ h => (spoken_cachedTurn oneMore_none h).1) h

/-- What a plain opening of this reader finds out. -/
def foundState : PivSessionState Unit where
  pcscIdentity := { PcscIdentity.default with readerName := ['R'] }
  sendUnsupportedReads := false
  pinRetriesCache := none
  facts := some ()

/-- The card was just reset, and is there again on the second try. -/
def resetOnce : List (OpeningLine Unit Unit) :=
  [⟨.establishContext, .ok ()⟩, ⟨.connect ['R'], .error RESET_CARD⟩, ⟨.waitForCard ['R'], ()⟩,
    ⟨.establishContext, .ok ()⟩, ⟨.connect ['R'], .ok ()⟩, ⟨.transaction, .ok ()⟩,
    ⟨.select, .ok ()⟩, ⟨.fingerprint, ()⟩, ⟨.body foundState, ((), foundState)⟩]

theorem work_is_done_once_resetOnce :
    Spoken 0 2 resetOnce (.ok ((), foundState)) ∧
      (1 < resetOnce.countP OpeningLine.begins → Excused 1 resetOnce) :=
  work_is_done_once (.plain ['R']) [] resetOnce (.ok ((), foundState))
    (.ask _ (.ask _ (.ask _ (.ask _ (.ask _ (.ask _ (.ask _ (.ask _ (.ask _ .done)))))))))

end Once

end Keyroost.Piv
