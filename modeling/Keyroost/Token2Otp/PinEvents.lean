import Keyroost.Token2Otp.PinSession

/-!
# What a session does to the PIN

Of a conversation with the key only the verifies and the writes are events. Each operation of
`PinSession` is read once: which events it causes and what the session then takes for granted.

`events` takes the events out of a log, and `Causes` says of a program which of them a run may
leave, by its result. Operations that open a session or read a flag leave none (`Quiet`).
`Effect.Steady` allows the reasoning to go on behind any of them, so that `causes_pinned`, a write
with the PIN presented before it if that is due, is put together from the parts.
-/

namespace Keyroost.Token2Otp

open Session
open Dialogue (Says Asked)

/-! ### Events -/

abbrev CommandAnswer : Type := Except TransportFailure (List UInt8 × UInt16)

inductive Event where
  | verify (again : Bool) (answer : CommandAnswer)
  | write (answer : CommandAnswer)

def event : Asked OtpAnswer → Option Event
  | ⟨.command (.verifyPin again _), answer⟩ => some (.verify again answer)
  | ⟨.command (.writeSeed _), answer⟩ => some (.write answer)
  | _ => none

/-- A command that is no event. -/
def OtpCommand.plain : OtpCommand → Bool
  | .verifyPin _ _ => false
  | .writeSeed _ => false
  | _ => true

def events (log : List (Asked OtpAnswer)) : List Event := log.filterMap event

@[simp] theorem events_nil : events [] = [] := rfl

@[simp] theorem events_append (log more : List (Asked OtpAnswer)) :
    events (log ++ more) = events log ++ events more := List.filterMap_append

/-- The key answered that all went well. -/
def Succeeded (answer : CommandAnswer) : Prop := ∃ data, answer = .ok (data, Sw.OK)

/-! ### Results -/

/-- An error is none that would read as a success. -/
def Failing {α : Type} (r : Tried α) : Prop := ∀ e, r = .error e → e.IsFailure

theorem failing_ok {α : Type} (a : α) : Failing (.ok a) := nofun

theorem failing_error {α : Type} {e : OtpTransportError} (h : e.IsFailure) :
    Failing (.error e : Tried α) := by
  intro e' he
  cases he
  exact h

theorem Failing.isFailure {α : Type} {e : OtpTransportError} (h : Failing (.error e : Tried α)) :
    e.IsFailure := h e rfl

/-- A check that passes the one status word of a success. Both checks of the source are ones, so
what follows is proved of either. -/
structure ChecksOk (check : UInt16 → Except OtpError Unit) : Prop where
  ok : ∀ {sw}, check sw = .ok () → sw = Sw.OK
  passes : check Sw.OK = .ok ()
  error : ∀ {sw e}, check sw = .error e → e.statusWord ≠ Sw.OK

theorem checksOk_check : ChecksOk OtpError.check := ⟨OtpError.check_ok, rfl, statusWord_of_check⟩

theorem checksOk_checkPin : ChecksOk OtpError.checkPin :=
  ⟨OtpError.checkPin_ok, rfl, statusWord_of_checkPin⟩

/-- A session that takes its window to be open has keys. -/
def OtpSession.Keyed {Keys : Type} (s : OtpSession Keys) : Prop :=
  s.pinVerified = true → s.pinSession.isSome = true

/-- The window is taken for what it was, and the session has the keys it needs for that. Keys may be
made anew, but a session that had some still has some. -/
structure Kept {Keys : Type} (s t : OtpSession Keys) : Prop where
  window : t.pinVerified = s.pinVerified
  keyed : t.Keyed
  keys : s.pinSession.isSome = true → t.pinSession.isSome = true

/-- The window is taken to be open. -/
structure Opened {Keys : Type} (t : OtpSession Keys) : Prop where
  window : t.pinVerified = true
  keyed : t.Keyed

section Operations

variable {crypto : OtpCrypto} {m n : OtpSession crypto.SessionKeys}
  {log : List (Asked OtpAnswer)} {pin : RustStr} {again : Bool}

theorem Kept.of_eq {Keys : Type} {s t : OtpSession Keys} (h : t = s) (hs : s.Keyed) : Kept s t := by
  subst h
  exact ⟨rfl, hs, id⟩

theorem Kept.trans {Keys : Type} {s t u : OtpSession Keys} (h : Kept s t) (h' : Kept t u) :
    Kept s u :=
  ⟨h'.window.trans h.window, h'.keyed, fun hkeys => h'.keys (h.keys hkeys)⟩

/-! ### Commands -/

theorem says_transmit {c : OtpCommand} {r : Tried (List UInt8 × UInt16)}
    (h : Says (transmit crypto c m) log (r, n)) :
    n = m ∧ ∃ answer : CommandAnswer, log = [⟨.command c, answer⟩] ∧
      r = answer.mapError Subtype.val := by
  obtain ⟨first, answer, m', rest, rfl, hask, hpure⟩ := says_bind.mp h
  obtain ⟨rfl, rfl⟩ := says_ask.mp hask
  obtain ⟨rfl, rfl, rfl⟩ := says_pure.mp hpure
  exact ⟨rfl, answer, rfl, rfl⟩

/-- A command that succeeded, or one with a failure. -/
inductive Checked : CommandAnswer → Tried (List UInt8) → Prop
  | ok (data : List UInt8) : Checked (.ok (data, Sw.OK)) (.ok data)
  | failed {answer : CommandAnswer} {e : OtpTransportError} (hnot : ¬ Succeeded answer)
      (he : e.IsFailure) : Checked answer (.error e)

theorem says_transmitChecked {check : UInt16 → Except OtpError Unit} (hcheck : ChecksOk check)
    {c : OtpCommand} {r : Tried (List UInt8)}
    (h : Says (transmitChecked crypto check c m) log (r, n)) :
    n = m ∧ ∃ answer, log = [⟨.command c, answer⟩] ∧ Checked answer r := by
  rcases says_andThen.mp h with ⟨e, rfl, hsaid⟩ | ⟨first, ⟨data, sw⟩, m', rest, rfl, hsaid, hrest⟩
  · obtain ⟨rfl, answer, rfl, hr⟩ := says_transmit hsaid
    rcases answer with failure | ok
    · cases hr
      exact ⟨rfl, _, rfl, .failed (by rintro ⟨_, h⟩; cases h) failure.2⟩
    · cases hr
  · obtain ⟨rfl, answer, rfl, hr⟩ := says_transmit hsaid
    obtain ⟨rfl, rfl, rfl⟩ := says_pure.mp hrest
    rcases answer with failure | ok
    · cases hr
    · cases hr
      refine ⟨rfl, _, rfl, ?_⟩
      cases hsw : check sw with
      | error e =>
          refine .failed ?_ ?_
          · rintro ⟨data', hdata⟩
            cases hdata
            rw [hcheck.passes] at hsw
            cases hsw
          · intro a ha
            cases ha
            exact hcheck.error hsw
      | ok u =>
          cases hcheck.ok hsw
          exact .ok data

/-! ### Conversations without events -/

/-- No event, and the window taken for what it was. -/
structure Nothing {α : Type} (m n : OtpSession crypto.SessionKeys) (log : List (Asked OtpAnswer))
    (r : Tried α) : Prop where
  events : events log = []
  failing : Failing r
  kept : Kept m n

def Quiet {α : Type} (m : OtpSession crypto.SessionKeys) (p : OtpTalk crypto (Tried α)) : Prop :=
  ∀ log r n, Says (p m) log (r, n) → Nothing m n log r

namespace Quiet

variable {α β : Type}

theorem pure {v : Tried α} (hv : Failing v) (hm : m.Keyed) :
    Quiet m (Pure.pure v : OtpTalk crypto (Tried α)) := by
  intro log r n h
  obtain ⟨rfl, rfl, rfl⟩ := says_pure.mp h
  exact ⟨rfl, hv, .of_eq rfl hm⟩

theorem andThen {p : OtpTalk crypto (Tried α)} {f : α → OtpTalk crypto (Tried β)}
    (hp : Quiet m p) (hf : ∀ a n, Kept m n → Quiet n (f a)) : Quiet m (Session.andThen p f) := by
  intro log r k h
  rcases says_andThen.mp h with ⟨e, rfl, hsaid⟩ | ⟨first, a, n, rest, rfl, hsaid, hrest⟩
  · have hfirst := hp _ _ _ hsaid
    exact ⟨hfirst.events, failing_error hfirst.failing.isFailure, hfirst.kept⟩
  · have hfirst := hp _ _ _ hsaid
    have hnext := hf a n hfirst.kept _ _ _ hrest
    refine ⟨?_, hnext.failing, hfirst.kept.trans hnext.kept⟩
    rw [events_append, hfirst.events, hnext.events]
    rfl

theorem random {f : List UInt8 → OtpTalk crypto (Tried α)} (hf : ∀ drawn, Quiet m (f drawn)) :
    Quiet m (ask OtpAsk.random >>= f) := by
  intro log r n h
  obtain ⟨drawn, rest, rfl, hrest⟩ := says_ask_bind.mp h
  have hnext := hf drawn _ _ _ hrest
  exact ⟨hnext.events, hnext.failing, hnext.kept⟩

theorem transmit {c : OtpCommand} (hplain : c.plain = true) (hm : m.Keyed) :
    Quiet m (Token2Otp.transmit crypto c) := by
  intro log r n h
  obtain ⟨rfl, answer, rfl, rfl⟩ := says_transmit h
  refine ⟨?_, ?_, .of_eq rfl hm⟩
  · cases c with
    | verifyPin again data => cases hplain
    | writeSeed blob => cases hplain
    | _ => rfl
  · rcases answer with failure | ok
    · exact failing_error failure.2
    · exact failing_ok _

theorem checked {check : UInt16 → Except OtpError Unit} (hcheck : ChecksOk check) {c : OtpCommand}
    (hplain : c.plain = true) (hm : m.Keyed) : Quiet m (transmitChecked crypto check c) := by
  refine (transmit hplain hm).andThen ?_
  rintro ⟨data, sw⟩ n hn
  refine .pure ?_ hn.keyed
  cases hsw : check sw with
  | ok u => exact failing_ok data
  | error e =>
      refine failing_error ?_
      intro a ha
      cases ha
      exact hcheck.error hsw

end Quiet

theorem failing_mapError {α ε : Type} {f : ε → OtpTransportError} {v : Except ε α}
    (hf : ∀ e, (f e).IsFailure) : Failing (v.mapError f) := by
  rcases v with e | a
  · exact failing_error (hf e)
  · exact failing_ok a

theorem failing_parse {α : Type} (v : Except ParseError α) : Failing (v.mapError .parse) :=
  failing_mapError fun _ => nofun

theorem failing_encrypt {α : Type} (v : Except EncryptError α) : Failing (v.mapError .encrypt) :=
  failing_mapError fun _ => nofun

/-! ### Keys and PIN -/

theorem quiet_openSession (hclosed : m.pinVerified = false) (hm : m.Keyed) :
    Quiet m (openSession crypto) := by
  refine (Quiet.checked checksOk_check rfl hm).andThen fun _ s hs => ?_
  refine Quiet.random fun drawn => ?_
  refine (Quiet.checked checksOk_check rfl hs.keyed).andThen fun data t ht => ?_
  split
  · exact .pure (failing_error nofun) ht.keyed
  · refine (Quiet.pure (failing_encrypt _) ht.keyed).andThen fun keys u hu => ?_
    intro log r n h
    obtain ⟨rfl, rfl, rfl⟩ := says_pure.mp (says_modify_bind.mp h)
    refine ⟨rfl, failing_ok (), ⟨?_, fun _ => rfl, fun _ => rfl⟩⟩
    exact (((hs.trans ht).trans hu).window.trans hclosed).symm

theorem quiet_ensureSession (hm : m.Keyed) : Quiet m (ensureSession crypto) := by
  intro log r n h
  have h' := says_get_bind.mp h
  by_cases hnone : m.pinSession.isNone
  · rw [if_pos hnone] at h'
    refine quiet_openSession ?_ hm _ _ _ h'
    rw [← Bool.not_eq_true]
    intro hopen
    have hsome := hm hopen
    rw [Option.isNone_iff_eq_none.mp hnone] at hsome
    cases hsome
  · rw [if_neg hnone] at h'
    exact Quiet.pure (failing_ok ()) hm _ _ _ h'

theorem failing_pinFlagOf (data : List UInt8) (sw : UInt16) : Failing (pinFlagOf data sw) := by
  rw [pinFlagOf]
  split
  · exact failing_ok _
  · split
    · exact failing_ok _
    · cases hsw : OtpError.check sw with
      | ok u => exact failing_ok _
      | error e =>
          refine failing_error ?_
          intro a ha
          cases ha
          exact statusWord_of_check hsw

theorem quiet_pinIsSet (hm : m.Keyed) : Quiet m (pinIsSet crypto) := by
  have hstatus : Quiet m (pinStatus crypto) := by
    refine (Quiet.transmit rfl hm).andThen fun answer s hs => ?_
    refine (Quiet.pure (failing_pinFlagOf _ _) hs.keyed).andThen fun flag t ht => ?_
    intro log r n h
    obtain ⟨rfl, rfl, rfl⟩ := says_pure.mp (says_modify_bind.mp h)
    exact ⟨rfl, failing_ok flag, ⟨rfl, ht.keyed, id⟩⟩
  exact hstatus.andThen fun flag s hs => .pure (failing_ok _) hs.keyed

/-! ### Verifies and writes -/

/-- What an operation causes: its events, its result and the session after it. -/
abbrev Effect (crypto : OtpCrypto) : Type :=
  OtpSession crypto.SessionKeys → List Event → Tried Unit → OtpSession crypto.SessionKeys → Prop

/-- A quiet conversation in front makes no difference, and one that fails is all there is. With
these two an effect can be put through the source's sequences. -/
structure Effect.Steady (effect : Effect crypto) : Prop where
  unsent : ∀ {m n e}, e.IsFailure → Kept m n → effect m [] (.error e) n
  later : ∀ {m s es r n}, Kept m s → effect s es r n → effect m es r n

/-- Every conversation has the effect. -/
def Causes (effect : Effect crypto) (m : OtpSession crypto.SessionKeys)
    (p : OtpTalk crypto (Tried Unit)) : Prop :=
  ∀ log r n, Says (p m) log (r, n) → effect m (events log) r n

theorem Causes.andThen {α : Type} {effect : Effect crypto} (hsteady : effect.Steady)
    {p : OtpTalk crypto (Tried α)} {f : α → OtpTalk crypto (Tried Unit)} (hp : Quiet m p)
    (hf : ∀ a n, Kept m n → Causes effect n (f a)) :
    Causes effect m (Session.andThen p f) := by
  intro log r k h
  rcases says_andThen.mp h with ⟨e, rfl, hsaid⟩ | ⟨first, a, n, rest, rfl, hsaid, hrest⟩
  · have hfirst := hp _ _ _ hsaid
    rw [hfirst.events]
    exact hsteady.unsent hfirst.failing.isFailure hfirst.kept
  · have hfirst := hp _ _ _ hsaid
    rw [events_append, hfirst.events]
    exact hsteady.later hfirst.kept (hf a n hfirst.kept _ _ _ hrest)

theorem Causes.error {effect : Effect crypto} (hsteady : effect.Steady) {e : OtpTransportError}
    (he : e.IsFailure) (hm : m.Keyed) :
    Causes effect m (pure (.error e) : OtpTalk crypto (Tried Unit)) := by
  intro log r n h
  obtain ⟨rfl, rfl, rfl⟩ := says_pure.mp h
  exact hsteady.unsent he (.of_eq rfl hm)

theorem Causes.random {effect : Effect crypto} {f : List UInt8 → OtpTalk crypto (Tried Unit)}
    (hf : ∀ drawn, Causes effect m (f drawn)) : Causes effect m (ask OtpAsk.random >>= f) := by
  intro log r n h
  obtain ⟨drawn, rest, rfl, hrest⟩ := says_ask_bind.mp h
  exact hf drawn rest r n hrest

/-- The PIN is presented at most once, and the window is open if it was accepted. What goes wrong
before it is sent is no event. -/
inductive Verified (again : Bool) : Effect crypto
  | unsent {m n : OtpSession crypto.SessionKeys} {e : OtpTransportError} (he : e.IsFailure)
      (hn : Kept m n) : Verified again m [] (.error e) n
  | refused {m n : OtpSession crypto.SessionKeys} {answer : CommandAnswer}
      {e : OtpTransportError} (hnot : ¬ Succeeded answer) (he : e.IsFailure) (hn : Kept m n) :
      Verified again m [.verify again answer] (.error e) n
  | accepted {m n : OtpSession crypto.SessionKeys} {answer : CommandAnswer}
      (hok : Succeeded answer) (hn : Opened n) :
      Verified again m [.verify again answer] (.ok ()) n

theorem steady_verified (again : Bool) : (Verified again : Effect crypto).Steady where
  unsent := .unsent
  later := by
    intro m s es r n hs h
    cases h with
    | unsent he hn => exact .unsent he (hs.trans hn)
    | refused hnot he hn => exact .refused hnot he (hs.trans hn)
    | accepted hok hn => exact .accepted hok hn

theorem causes_verifyPin (again : Bool) (pin : RustStr) (hm : m.Keyed) :
    Causes (Verified again) m (verifyPin crypto again pin) := by
  have hsteady := @steady_verified crypto again
  refine Causes.andThen hsteady (quiet_ensureSession hm) fun _ s hs => ?_
  refine Causes.andThen hsteady (Quiet.checked checksOk_checkPin rfl hs.keyed) fun data t ht => ?_
  refine Causes.andThen hsteady (Quiet.pure (failing_parse _) ht.keyed) fun flag u hu => ?_
  by_cases hset : !flag.isSet
  · rw [if_pos hset]
    exact .error hsteady nofun hu.keyed
  rw [if_neg hset]
  rcases flag.challenge with _ | ⟨iv, encRand⟩
  · exact .error hsteady nofun hu.keyed
  intro log r n h
  have h' := says_get_bind.mp h
  rcases hkeys : u.pinSession with _ | keys
  · rw [hkeys] at h'
    obtain ⟨rfl, rfl, rfl⟩ := says_pure.mp h'
    exact .unsent nofun (.of_eq rfl hu.keyed)
  rw [hkeys] at h'
  by_cases hlen : (crypto.sessionDecryptRaw keys iv encRand).length ≠ 16
  · simp only [if_pos hlen] at h'
    obtain ⟨rfl, rfl, rfl⟩ := says_pure.mp h'
    exact .unsent nofun (.of_eq rfl hu.keyed)
  simp only [if_neg hlen] at h'
  refine Causes.random (fun drawn => ?_) _ _ _ h'
  refine Causes.andThen hsteady (Quiet.pure (failing_encrypt _) hu.keyed) fun block v hv => ?_
  intro log r n h
  rcases says_andThen.mp h with ⟨e, rfl, hsaid⟩ | ⟨first, a, w, rest, rfl, hsaid, hrest⟩
  · obtain ⟨rfl, answer, rfl, hchecked⟩ := says_transmitChecked checksOk_checkPin hsaid
    cases hchecked with
    | failed hnot he => exact .refused hnot he (.of_eq rfl hv.keyed)
  · obtain ⟨rfl, answer, rfl, hchecked⟩ := says_transmitChecked checksOk_checkPin hsaid
    obtain ⟨rfl, rfl, rfl⟩ := says_pure.mp (says_modify_bind.mp hrest)
    cases hchecked with
    | ok =>
        refine .accepted ⟨a, rfl⟩ ⟨rfl, fun _ => hv.keys ?_⟩
        rw [hkeys]
        rfl

/-- One write at most: none was sent, one was refused, or one went through. The result says which,
so no write goes unreported. -/
inductive Wrote : List Event → Tried Unit → Prop
  | unsent {e : OtpTransportError} (he : e.IsFailure) : Wrote [] (.error e)
  | refused {answer : CommandAnswer} {e : OtpTransportError} (hnot : ¬ Succeeded answer)
      (he : e.IsFailure) : Wrote [.write answer] (.error e)
  | through {answer : CommandAnswer} (hok : Succeeded answer) : Wrote [.write answer] (.ok ())

/-- A write as it stands. -/
def Written : Effect crypto := fun m es r n => Wrote es r ∧ Kept m n

theorem steady_written : (Written : Effect crypto).Steady where
  unsent he hn := ⟨.unsent he, hn⟩
  later hs h := ⟨h.1, hs.trans h.2⟩

theorem quiet_sealed (cleartext iv : List UInt8) (hm : m.Keyed) :
    Quiet m (sealed crypto cleartext iv) := by
  intro log r n h
  have h' := says_get_bind.mp h
  by_cases hopen : m.pinVerified = true
  · rw [if_pos hopen] at h'
    rcases hkeys : m.pinSession with _ | keys
    · rw [hkeys] at h'
      obtain ⟨rfl, rfl, rfl⟩ := says_pure.mp h'
      exact ⟨rfl, failing_error nofun, .of_eq rfl hm⟩
    · rw [hkeys] at h'
      exact Quiet.random (fun drawn => Quiet.pure (failing_ok _) hm) _ _ _ h'
  · rw [if_neg hopen] at h'
    refine Quiet.andThen (Quiet.checked checksOk_check rfl hm) (fun devicePub s hs => ?_) _ _ _ h'
    exact Quiet.random fun drawn => Quiet.pure (failing_encrypt _) hs.keyed

theorem causes_writeSealed (serialized : Except ParseError (List UInt8)) (hm : m.Keyed) :
    Causes Written m (writeSealed crypto serialized) := by
  refine Causes.andThen steady_written (Quiet.pure (failing_parse _) hm) fun cleartext s hs => ?_
  refine Causes.andThen steady_written (quiet_sealed _ _ hs.keyed) fun blob t ht => ?_
  intro log r n h
  rcases says_andThen.mp h with ⟨e, rfl, hsaid⟩ | ⟨first, a, u, rest, rfl, hsaid, hrest⟩
  · obtain ⟨rfl, answer, rfl, hchecked⟩ := says_transmitChecked checksOk_check hsaid
    cases hchecked with
    | failed hnot he => exact ⟨.refused hnot he, .of_eq rfl ht.keyed⟩
  · obtain ⟨rfl, answer, rfl, hchecked⟩ := says_transmitChecked checksOk_check hsaid
    obtain ⟨rfl, rfl, rfl⟩ := says_pure.mp hrest
    cases hchecked with
    | ok => exact ⟨.through ⟨a, rfl⟩, .of_eq rfl ht.keyed⟩

/-- A write behind its own verify, which is sent only while the window is taken to be closed. A
refused verify ends it, so no write follows a PIN that was not accepted. -/
inductive Sent (pin : Option RustStr) : Effect crypto
  | direct {m n : OtpSession crypto.SessionKeys} {es : List Event} {r : Tried Unit}
      (hw : Wrote es r) (hn : Kept m n) : Sent pin m es r n
  | refused {m n : OtpSession crypto.SessionKeys} {answer : CommandAnswer}
      {e : OtpTransportError} (hclosed : m.pinVerified = false) (hpin : pin.isSome = true)
      (hnot : ¬ Succeeded answer) (he : e.IsFailure) (hn : Kept m n) :
      Sent pin m [.verify false answer] (.error e) n
  | unlocked {m n : OtpSession crypto.SessionKeys} {answer : CommandAnswer} {es : List Event}
      {r : Tried Unit} (hclosed : m.pinVerified = false) (hpin : pin.isSome = true)
      (hok : Succeeded answer) (hw : Wrote es r) (hn : Opened n) :
      Sent pin m (.verify false answer :: es) r n

theorem steady_sent (pin : Option RustStr) : (Sent pin : Effect crypto).Steady where
  unsent he hn := .direct (.unsent he) hn
  later := by
    intro m s es r n hs h
    cases h with
    | direct hw hn => exact .direct hw (hs.trans hn)
    | refused hclosed hpin hnot he hn =>
        exact .refused (hs.window.symm.trans hclosed) hpin hnot he (hs.trans hn)
    | unlocked hclosed hpin hok hw hn =>
        exact .unlocked (hs.window.symm.trans hclosed) hpin hok hw hn

theorem causes_pinned (pin : Option RustStr) {write : OtpTalk crypto (Tried Unit)}
    (hwrite : ∀ {s : OtpSession crypto.SessionKeys}, s.Keyed → Causes Written s write)
    (hm : m.Keyed) : Causes (Sent pin) m (pinned crypto pin write) := by
  have hdirect : ∀ {s : OtpSession crypto.SessionKeys}, s.Keyed → Causes (Sent pin) s write := by
    intro s hs log r n h
    have hw := hwrite hs _ _ _ h
    exact .direct hw.1 hw.2
  intro log r n h
  have h' := says_get_bind.mp h
  by_cases hopen : m.pinVerified = true
  · rw [if_pos hopen] at h'
    exact hdirect hm _ _ _ h'
  rw [if_neg hopen] at h'
  have hclosed := Bool.eq_false_iff.mpr hopen
  refine Causes.andThen (steady_sent pin) (quiet_pinIsSet hm) (fun isSet s hs => ?_) _ _ _ h'
  cases isSet with
  | false => exact hdirect hs.keyed
  | true =>
      rcases pin with _ | pin
      · exact .error (steady_sent none) nofun hs.keyed
      · intro log r n h
        have hclosed' := hs.window.trans hclosed
        rcases says_andThen.mp h with ⟨e, rfl, hsaid⟩ | ⟨first, a, t, rest, rfl, hsaid, hrest⟩
        · have hverified := causes_verifyPin false pin hs.keyed _ _ _ hsaid
          generalize events log = es at hverified
          cases hverified with
          | unsent he hn => exact .direct (.unsent he) hn
          | refused hnot he hn => exact .refused hclosed' rfl hnot he hn
        · have hverified := causes_verifyPin false pin hs.keyed _ _ _ hsaid
          rw [events_append]
          generalize events first = es at hverified
          cases hverified with
          | accepted hok ht =>
              obtain ⟨hw, hn⟩ := hwrite ht.keyed _ _ _ hrest
              exact .unlocked hclosed' rfl hok hw ⟨hn.window.trans ht.window, hn.keyed⟩

end Operations

end Keyroost.Token2Otp
