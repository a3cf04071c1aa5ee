import Keyroost.Import.RunSound
import Keyroost.Token2Otp.PinEvents
import Keyroost.Transport.Token2Import

/-!
# PIN attempts of an import to a Token2 OTP key

A write that goes through counts as proof of the PIN. Where every such write comes after the key has
accepted the PIN, no attempt is wasted: the import presents the PIN again only once it was accepted,
and never after it was refused.

The statements are about the events of `PinEvents`. `Sound` relates the log so far to what the store
remembers, and each function of `Token2Import` has a lemma on the events it adds, up to one command
(`withPin_says`) and one row of the plan. `noneWasted_runRows` is the induction over the rows, and
`import_wastes_no_attempt` begins where an import begins. In `fingerprint_import_wastes_attempt` the
session was opened by a fingerprint, and the condition does not hold.
-/

namespace Keyroost.Transport

open Keyroost.Import Keyroost.Token2Otp Session
open Dialogue (Says Asked)

/-! ### What is said of a run -/

def Accepted : Event → Prop
  | .verify _ answer => Succeeded answer
  | .write _ => False

/-- The key answered the PIN with another status word. -/
def Refused : Event → Prop
  | .verify _ answer => ∃ data sw, answer = .ok (data, sw) ∧ sw ≠ Sw.OK
  | .write _ => False

def Presented : Event → Prop
  | .verify _ _ => True
  | .write _ => False

/-- The import presents the PIN itself, behind a write that found the window closed. -/
def PresentedAgain : Event → Prop
  | .verify again _ => again = true
  | .write _ => False

def WentThrough : Event → Prop
  | .verify _ _ => False
  | .write answer => Succeeded answer

/-- Every event of the kind comes when the PIN is known to be right, from the start or because
the key has accepted it. -/
def OnceAccepted (kind : Event → Prop) (known : Prop) : List Event → Prop
  | [] => True
  | e :: es => (kind e → known) ∧ OnceAccepted kind (known ∨ Accepted e) es

structure NoneWasted (known : Prop) (es : List Event) : Prop where
  proven : OnceAccepted PresentedAgain known es
  once : es.Pairwise fun x y => Refused x → ¬ Presented y

def Known (known : Prop) (es : List Event) : Prop := known ∨ ∃ e ∈ es, Accepted e

theorem Known.append {known : Prop} {es : List Event} (h : Known known es) (more : List Event) :
    Known known (es ++ more) := by
  rcases h with h | ⟨e, he, haccepted⟩
  · exact .inl h
  · exact .inr ⟨e, List.mem_append_left _ he, haccepted⟩

theorem known_cons {known : Prop} {e : Event} {es : List Event} :
    Known known (e :: es) ↔ Known (known ∨ Accepted e) es := by
  rw [Known, Known, List.exists_mem_cons_iff, or_assoc]

theorem onceAccepted_append {kind : Event → Prop} {known : Prop} {es more : List Event} :
    OnceAccepted kind known (es ++ more) ↔
      OnceAccepted kind known es ∧ OnceAccepted kind (Known known es) more := by
  induction es generalizing known with
  | nil =>
      have hnil : Known known [] = known := by simp [Known]
      rw [hnil]
      exact ⟨fun h => ⟨trivial, h⟩, fun h => h.2⟩
  | cons e es ih =>
      have hcons : Known known (e :: es) = Known (known ∨ Accepted e) es := propext known_cons
      rw [List.cons_append, OnceAccepted, OnceAccepted, ih, hcons, and_assoc]

/-! ### Where an import stands -/

section Standing

variable {Keys : Type} {pin : Option RustStr} {known : Prop} {proven : Bool}
  {m n : OtpSession Keys} {es : List Event}

/-- No attempt was wasted and none refused; the PIN counts as proven only when it is known, and
once it is known the window is taken to be open. -/
structure Sound (known : Prop) (proven : Bool) (m : OtpSession Keys) (es : List Event) : Prop where
  kept : NoneWasted known es
  unrefused : ∀ e ∈ es, ¬ Refused e
  proven : proven = true → Known known es
  opened : Known known es → m.pinVerified = true
  keyed : m.Keyed

theorem noneWasted_push (hkept : NoneWasted known es) (hunrefused : ∀ e ∈ es, ¬ Refused e)
    {e : Event} (hknown : PresentedAgain e → Known known es) : NoneWasted known (es ++ [e]) := by
  refine ⟨onceAccepted_append.mpr ⟨hkept.proven, hknown, trivial⟩, ?_⟩
  rw [List.pairwise_append]
  exact ⟨hkept.once, List.pairwise_singleton _ _,
    fun x hx y _ href => absurd href (hunrefused x hx)⟩

theorem Sound.write (h : Sound known proven m es) (hn : Kept m n) (answer : CommandAnswer) :
    Sound known proven n (es ++ [.write answer]) where
  kept := noneWasted_push h.kept h.unrefused fun hagain => hagain.elim
  unrefused := by
    intro e he
    rcases List.mem_append.mp he with he | he
    · exact h.unrefused e he
    · rw [List.mem_singleton.mp he]
      exact id
  proven hp := (h.proven hp).append _
  opened := by
    rintro (hknown | ⟨e, he, haccepted⟩)
    · exact hn.window.trans (h.opened (.inl hknown))
    · rcases List.mem_append.mp he with he | he
      · exact hn.window.trans (h.opened (.inr ⟨e, he, haccepted⟩))
      · rw [List.mem_singleton.mp he] at haccepted
        exact haccepted.elim
  keyed := hn.keyed

theorem Sound.quiet (h : Sound known proven m es) (hn : Kept m n) : Sound known proven n es where
  kept := h.kept
  unrefused := h.unrefused
  proven := h.proven
  opened hknown := hn.window.trans (h.opened hknown)
  keyed := hn.keyed

theorem Sound.wrote (h : Sound known proven m es) (hn : Kept m n) {ws : List Event}
    {r : Token2Otp.Tried Unit} (hw : Wrote ws r) : Sound known proven n (es ++ ws) := by
  cases hw with
  | unsent =>
      rw [List.append_nil]
      exact h.quiet hn
  | refused => exact h.write hn _
  | through => exact h.write hn _

theorem Sound.accepted (h : Sound known proven m es) {again : Bool}
    (hagain : again = true → Known known es) {answer : CommandAnswer} (hok : Succeeded answer)
    (hn : Opened n) : Sound known proven n (es ++ [.verify again answer]) where
  kept := noneWasted_push h.kept h.unrefused hagain
  unrefused := by
    intro e he
    rcases List.mem_append.mp he with he | he
    · exact h.unrefused e he
    · rw [List.mem_singleton.mp he]
      rintro ⟨data, sw, hanswer, hsw⟩
      obtain ⟨data', hok⟩ := hok
      rw [hok] at hanswer
      cases hanswer
      exact hsw rfl
  proven hp := (h.proven hp).append _
  opened _ := hn.window
  keyed := hn.keyed

theorem Sound.refused (h : Sound known proven m es) {again : Bool}
    (hagain : again = true → Known known es) (answer : CommandAnswer) :
    NoneWasted known (es ++ [.verify again answer]) :=
  noneWasted_push h.kept h.unrefused hagain

theorem Sound.prove (h : Sound known proven m es) {proven' : Bool}
    (hp : proven' = true → Known known es) : Sound known proven' m es where
  kept := h.kept
  unrefused := h.unrefused
  proven := hp
  opened := h.opened
  keyed := h.keyed

/-- Every write that went through came once the PIN was known. -/
def WritesKnown (pin : Option RustStr) (known : Prop) (es : List Event) : Prop :=
  pin.isSome = true → OnceAccepted WentThrough known es

theorem WritesKnown.before {more : List Event} (h : WritesKnown pin known (es ++ more)) :
    WritesKnown pin known es := fun hpin => (onceAccepted_append.mp (h hpin)).1

/-- The write at the end went through, so the PIN is known. -/
theorem known_of_through {answer : CommandAnswer} (hok : Succeeded answer)
    (h : WritesKnown pin known (es ++ [.write answer])) (hpin : pin.isSome = true) :
    Known known (es ++ [.write answer]) :=
  Known.append ((onceAccepted_append.mp (h hpin)).2.1 hok) _

theorem known_of_wrote {ws : List Event} (hw : Wrote ws (.ok ()))
    (h : WritesKnown pin known (es ++ ws)) (hpin : pin.isSome = true) : Known known (es ++ ws) := by
  cases hw with
  | through hok => exact known_of_through hok h hpin

end Standing

/-! ### One command -/

section Commands

variable {crypto : OtpCrypto} {pcscText : PcscError → RustStr} {pin : Option RustStr}
  {known : Prop} {proven : Bool} {m n : OtpSession crypto.SessionKeys} {es ws : List Event}
  {log : List (Asked OtpAnswer)} {r : Token2Otp.Tried Unit}

/-- While the window is taken to be open, a write presents no PIN. -/
theorem wrote_of_sent (hopen : m.pinVerified = true) (h : Sent pin m ws r n) :
    Wrote ws r ∧ Kept m n := by
  cases h with
  | direct hw hn => exact ⟨hw, hn⟩
  | refused hclosed =>
      rw [hclosed] at hopen
      cases hopen
  | unlocked hclosed =>
      rw [hclosed] at hopen
      cases hopen

theorem Sound.sent (h : Sound known proven m es) (hs : Sent pin m ws r n) :
    NoneWasted known (es ++ ws) ∧ (r = .ok () → Sound known proven n (es ++ ws) ∧
      (WritesKnown pin known (es ++ ws) → pin.isSome = true → Known known (es ++ ws))) := by
  have hfirst : false = true → Known known es := fun hno => absurd hno Bool.false_ne_true
  cases hs with
  | direct hw hn =>
      have hsound := h.wrote hn hw
      refine ⟨hsound.kept, ?_⟩
      rintro rfl
      exact ⟨hsound, known_of_wrote hw⟩
  | refused =>
      refine ⟨h.refused hfirst _, ?_⟩
      intro hr
      cases hr
  | unlocked hclosed hpin hok hw hn =>
      rw [List.append_cons]
      have hsound := (h.accepted hfirst hok hn).wrote ⟨rfl, hn.keyed, id⟩ hw
      refine ⟨hsound.kept, ?_⟩
      rintro rfl
      exact ⟨hsound, known_of_wrote hw⟩

theorem token2Answer_ok {sw : UInt16} (h : token2Answer sw = .ok) : sw = Sw.OK := by
  by_contra hsw
  rw [token2Answer, if_neg hsw] at h
  repeat' split at h
  all_goals cases h

theorem classify_ok (hr : Failing r) (h : token2Classify pcscText r = .ok .ok) : r = .ok () := by
  rcases r with e | ⟨⟩
  · cases e with
    | applet a =>
        have hanswer : token2Answer a.statusWord = .ok := Except.ok.inj h
        exact absurd (token2Answer_ok hanswer) (hr.isFailure a rfl)
    | _ => cases h
  · rfl

theorem classify_fresh {e : StoreError} (h : token2Classify pcscText r = .error e) :
    e ≠ .exists_ := by
  rcases r with why | ⟨⟩
  · cases why with
    | applet a => cases h
    | pinRequired => cases h
    | _ =>
        cases h
        nofun
  · cases h

theorem verifyFailed_fresh (pcscText : PcscError → RustStr) (e : OtpTransportError) :
    verifyFailed pcscText e ≠ .exists_ := by
  cases e with
  | applet a =>
      rw [verifyFailed]
      split <;> nofun
  | _ => nofun

theorem failing_of_sent (h : Sent pin m ws r n) : Failing r := by
  have hwrote : ∀ {vs : List Event}, Wrote vs r → Failing r := by
    intro vs hw
    cases hw with
    | unsent he => exact failing_error he
    | refused _ he => exact failing_error he
    | through => exact failing_ok ()
  cases h with
  | direct hw => exact hwrote hw
  | refused _ _ _ he => exact failing_error he
  | unlocked _ _ _ hw => exact hwrote hw

/-- What a command leaves: nothing wasted, and a sound standing if it went through. -/
structure Advanced {Keys : Type} (pin : Option RustStr) (known : Prop) (es : List Event)
    (r : Except StoreError Unit) (proven : Bool) (n : OtpSession Keys) : Prop where
  kept : NoneWasted known es
  fresh : r ≠ .error .exists_
  sound : r = .ok () → WritesKnown pin known es → Sound known proven n es

theorem advanced_failed {text : RustStr} (h : NoneWasted known es) :
    Advanced pin known es (.error (.failed text)) proven n := ⟨h, nofun, nofun⟩

/-- The window was closed on a write: the PIN is presented once more if it is known. -/
theorem reopen_says {send : OtpTalk crypto (Token2Otp.Tried Unit)}
    (hsend : ∀ {s : OtpSession crypto.SessionKeys}, s.Keyed → Causes (Sent pin) s send)
    (hkept : NoneWasted known es) (h : proven = true → Sound known proven m es)
    {r : Except StoreError Token2Answer}
    (hsaid : Says (token2Reopen crypto pcscText pin proven send m) log (r, n)) :
    NoneWasted known (es ++ events log) ∧ (∀ e, r = .error e → e ≠ .exists_) ∧
      (r = .ok .ok → proven = true ∧ Sound known proven n (es ++ events log)) := by
  rcases pin with _ | p
  · obtain ⟨rfl, rfl, rfl⟩ := says_pure.mp hsaid
    rw [events_nil, List.append_nil]
    exact ⟨hkept, (by rintro _ ⟨⟩ ⟨⟩), nofun⟩
  cases proven with
  | false =>
      obtain ⟨rfl, rfl, rfl⟩ := says_pure.mp hsaid
      rw [events_nil, List.append_nil]
      exact ⟨hkept, (by rintro _ ⟨⟩ ⟨⟩), nofun⟩
  | true =>
      have hsound := h rfl
      have hknown : true = true → Known known es := hsound.proven
      obtain ⟨first, verified, s, rest, rfl, hverify, hrest⟩ := says_bind.mp hsaid
      have hcause := causes_verifyPin true p hsound.keyed _ _ _ hverify
      rw [events_append, ← List.append_assoc]
      generalize events first = vs at hcause
      rcases verified with e | ⟨⟩
      · obtain ⟨rfl, rfl, rfl⟩ := says_pure.mp hrest
        rw [events_nil, List.append_nil]
        refine ⟨?_, ?_, nofun⟩
        · cases hcause with
          | unsent =>
              rw [List.append_nil]
              exact hkept
          | refused => exact hsound.refused hknown _
        · rintro _ ⟨⟩
          exact verifyFailed_fresh pcscText e
      · cases hcause with
        | accepted hok hs =>
            have hopened := hsound.accepted hknown hok hs
            obtain ⟨second, sent, t, rest', rfl, hsent, hclassify⟩ := says_bind.mp hrest
            obtain ⟨rfl, rfl, rfl⟩ := says_pure.mp hclassify
            obtain ⟨hw, hn⟩ := wrote_of_sent hs.window (hsend hs.keyed _ _ _ hsent)
            rw [List.append_nil]
            have hdone := hopened.wrote hn hw
            exact ⟨hdone.kept, fun e he => classify_fresh he, fun _ => ⟨rfl, hdone⟩⟩

theorem report_ok {a : Token2Answer} (h : token2Report a = .ok ()) : a = .ok := by
  cases a with
  | ok => rfl
  | _ => cases h

theorem report_fresh (a : Token2Answer) : token2Report a ≠ .error .exists_ := by
  cases a <;> nofun

theorem withPin_says {send : OtpTalk crypto (Token2Otp.Tried Unit)}
    (hsend : ∀ {s : OtpSession crypto.SessionKeys}, s.Keyed → Causes (Sent pin) s send)
    (h : Sound known proven m es) {r : Except StoreError Unit} {proven' : Bool}
    (hsaid : Says (token2WithPin crypto pcscText pin proven send m) log ((r, proven'), n)) :
    Advanced pin known (es ++ events log) r proven' n := by
  obtain ⟨first, sent, s, rest, rfl, hfirst, hrest⟩ := says_bind.mp hsaid
  have hsent := hsend h.keyed _ _ _ hfirst
  have hfailing := failing_of_sent hsent
  obtain ⟨hkept, hthrough⟩ := h.sent hsent
  rw [events_append, ← List.append_assoc]
  cases hrefused : refusedByWrite proven pin sent with
  | some text =>
      rw [hrefused] at hrest
      obtain ⟨rfl, hpair, rfl⟩ := says_pure.mp hrest
      obtain ⟨rfl, rfl⟩ := Prod.mk.inj hpair
      rw [events_nil, List.append_nil]
      exact advanced_failed hkept
  | none =>
      rw [hrefused] at hrest
      obtain ⟨second, answer, t, last, rfl, hsettle, hlast⟩ := says_bind.mp hrest
      obtain ⟨rfl, hpair, rfl⟩ := says_pure.mp hlast
      rw [List.append_nil]
      by_cases hwindow : token2Classify pcscText sent = .ok .pinWindow
      · have hreopen : token2Settle crypto pcscText pin proven send sent =
            token2Reopen crypto pcscText pin proven send := by
          rw [token2Settle, hwindow]
        rw [hreopen] at hsettle
        have hsound : proven = true → Sound known proven s (es ++ events first) := by
          intro hp
          obtain ⟨hw, hn⟩ := wrote_of_sent (h.opened (h.proven hp)) hsent
          exact h.wrote hn hw
        obtain ⟨hdone, hfresh, hsettled⟩ := reopen_says hsend hkept hsound hsettle
        rcases answer with e | a
        · obtain ⟨rfl, rfl⟩ := Prod.mk.inj hpair
          exact ⟨hdone, fun he => hfresh e rfl (Except.error.inj he), nofun⟩
        · obtain ⟨rfl, rfl⟩ := Prod.mk.inj hpair
          refine ⟨hdone, report_fresh a, ?_⟩
          intro hok hwrites
          cases report_ok hok
          obtain ⟨rfl, hfinal⟩ := hsettled rfl
          exact hfinal
      · have hplain : token2Settle crypto pcscText pin proven send sent =
            pure (token2Classify pcscText sent) := by
          rw [token2Settle]
          split
          · contradiction
          · rfl
        rw [hplain] at hsettle
        obtain ⟨rfl, rfl, rfl⟩ := says_pure.mp hsettle
        rw [events_nil, List.append_nil]
        cases hclassify : token2Classify pcscText sent with
        | error e =>
            rw [hclassify] at hpair
            obtain ⟨rfl, rfl⟩ := Prod.mk.inj hpair
            refine ⟨hkept, ?_, nofun⟩
            rintro ⟨⟩
            exact classify_fresh hclassify rfl
        | ok a =>
            rw [hclassify] at hpair
            obtain ⟨rfl, rfl⟩ := Prod.mk.inj hpair
            refine ⟨hkept, report_fresh a, ?_⟩
            intro hok hwrites
            cases report_ok hok
            obtain ⟨hsound, hknown⟩ := hthrough (classify_ok hfailing hclassify)
            refine hsound.prove ?_
            intro hp
            rcases hproven : proven with _ | _
            · rw [hproven] at hp
              exact hknown hwrites hp
            · exact hsound.proven hproven

/-- A name that is taken is never what stops an entry before it is sent. -/
theorem fresh_bind {α β : Type} {x : Except StoreError α} {f : α → Except StoreError β}
    (hx : ∀ e, x = .error e → e ≠ .exists_) (hf : ∀ a e, f a = .error e → e ≠ .exists_) :
    ∀ e, x >>= f = .error e → e ≠ .exists_ := by
  intro e he
  rcases x with why | a
  · exact hx e (congrArg Except.error (Except.error.inj he))
  · exact hf a e he

theorem storedName_fresh (name : StoredName) :
    ∀ e, token2StoredName name = .error e → e ≠ .exists_ := by
  intro e he
  cases name with
  | token2 app account => cases he
  | _ =>
      cases he
      nofun

theorem algorithm_fresh (hash : HashAlg) : ∀ e, token2Algorithm hash = .error e → e ≠ .exists_ := by
  intro e he
  cases hash with
  | sha512 =>
      cases he
      nofun
  | _ => cases he

theorem kind_fresh (kind : OtpKind) : ∀ e, token2Kind kind = .error e → e ≠ .exists_ := by
  intro e he
  cases kind with
  | totp period =>
      rw [token2Kind] at he
      split at he
      · cases he
      · cases he
        nofun
  | hotp counter => cases he

theorem entry_fresh (name : StoredName) (entry : ImportEntry) (touch : Bool) :
    ∀ e, token2Entry name entry touch = .error e → e ≠ .exists_ := by
  refine fresh_bind (storedName_fresh name) ?_
  rintro ⟨app, account⟩
  refine fresh_bind (algorithm_fresh entry.hash) ?_
  intro algorithm
  refine fresh_bind (kind_fresh entry.kind) ?_
  rintro ⟨otpType, timestep⟩ e ⟨⟩

theorem add_says (h : Sound known proven m es) {name : StoredName} {entry : ImportEntry}
    {touch : Bool} {r : Except StoreError Unit} {proven' : Bool}
    (hsaid : Says (token2Add crypto pcscText pin proven name entry touch m) log ((r, proven'), n)) :
    Advanced pin known (es ++ events log) r proven' n := by
  rcases hentry : token2Entry name entry touch with e | w
  · rw [token2Add, hentry] at hsaid
    obtain ⟨rfl, hpair, rfl⟩ := says_pure.mp hsaid
    obtain ⟨rfl, rfl⟩ := Prod.mk.inj hpair
    rw [events_nil, List.append_nil]
    exact ⟨h.kept, fun he => entry_fresh name entry touch e hentry (Except.error.inj he), nofun⟩
  · rw [token2Add, hentry] at hsaid
    exact withPin_says (fun hs => causes_pinned pin (causes_writeSealed _) hs) h hsaid

theorem delete_says (h : Sound known proven m es) {name : StoredName}
    {r : Except StoreError Unit} {proven' : Bool}
    (hsaid : Says (token2Delete crypto pcscText pin proven name m) log ((r, proven'), n)) :
    Advanced pin known (es ++ events log) r proven' n := by
  rcases hname : token2StoredName name with e | ⟨app, account⟩
  · rw [token2Delete, hname] at hsaid
    obtain ⟨rfl, hpair, rfl⟩ := says_pure.mp hsaid
    obtain ⟨rfl, rfl⟩ := Prod.mk.inj hpair
    rw [events_nil, List.append_nil]
    exact ⟨h.kept, fun he => storedName_fresh name e hname (Except.error.inj he), nofun⟩
  · rw [token2Delete, hname] at hsaid
    exact withPin_says (fun hs => causes_pinned pin (causes_writeSealed _) hs) h hsaid

end Commands

/-! ### A whole run -/

section Runs

variable {crypto : OtpCrypto} {pcscText : PcscError → RustStr} {Key : Type}
  {machine : Dialogue.Machine OtpAnswer Key} {pin : Option RustStr} {known : Prop}
  {store next : Token2ImportStore crypto.SessionKeys Key}

/-- A store in a sound standing. -/
def Token2ImportStore.Sound {Keys Key : Type} (known : Prop) (store : Token2ImportStore Keys Key) :
    Prop :=
  Transport.Sound known store.pinProven store.session (events store.log)

theorem served_extends {command : OtpTalk crypto (Except StoreError Unit × Bool)}
    {r : Except StoreError Unit} (hserved : served crypto machine store command = (r, next)) :
    store.log <+: next.log := by
  obtain ⟨more, hlog, -⟩ :=
    Dialogue.says_serve machine (command store.session) store.key store.log
  have hnext : (served crypto machine store command).2.log = next.log := by rw [hserved]
  exact ⟨more, hlog.symm.trans hnext⟩

theorem served_advanced (machine : Dialogue.Machine OtpAnswer Key)
    (store : Token2ImportStore crypto.SessionKeys Key)
    {command : OtpTalk crypto (Except StoreError Unit × Bool)}
    (hcommand : ∀ log r proven n, Says (command store.session) log ((r, proven), n) →
      Advanced pin known (events store.log ++ events log) r proven n) :
    Advanced pin known (events (served crypto machine store command).2.log)
      (served crypto machine store command).1 (served crypto machine store command).2.pinProven
      (served crypto machine store command).2.session := by
  obtain ⟨more, hlog, hsaid⟩ :=
    Dialogue.says_serve machine (command store.session) store.key store.log
  have hadvanced := hcommand _ _ _ _ hsaid
  rw [← events_append, ← hlog] at hadvanced
  exact hadvanced

theorem Token2ImportStore.Sound.add (h : store.Sound known) {name : StoredName}
    {entry : ImportEntry} {touch : Bool} {r : Except StoreError Unit}
    (hadd : (token2Store crypto pcscText machine pin).add store name entry touch = (r, next)) :
    Advanced pin known (events next.log) r next.pinProven next.session := by
  have hcommand : ∀ log r proven n,
      Says (token2Add crypto pcscText pin store.pinProven name entry touch store.session) log
        ((r, proven), n) →
      Advanced pin known (events store.log ++ events log) r proven n :=
    fun _ _ _ _ => add_says h
  have hadvanced := served_advanced machine store hcommand
  have hserved : served crypto machine store
      (token2Add crypto pcscText pin store.pinProven name entry touch) = (r, next) := hadd
  rw [hserved] at hadvanced
  exact hadvanced

/-- The conversation only goes on. -/
theorem log_of_made {calls : List Call}
    (h : Made (token2Store crypto pcscText machine pin) store calls next) :
    store.log <+: next.log := by
  induction h with
  | nil store => exact List.prefix_rfl
  | add hadd _ ih => exact (served_extends hadd).trans ih
  | delete hdelete _ ih => exact (served_extends hdelete).trans ih

theorem WritesKnown.of_prefix (hlog : store.log <+: next.log)
    (h : WritesKnown pin known (events next.log)) : WritesKnown pin known (events store.log) := by
  obtain ⟨more, hmore⟩ := hlog
  rw [← hmore, events_append] at h
  exact h.before

/-- What a row leaves behind: nothing wasted, and a sound standing unless it stops the run. -/
structure RowServed {Keys Key : Type} (pin : Option RustStr) (known : Prop)
    (stop : Option Stop) (store : Token2ImportStore Keys Key) : Prop where
  kept : NoneWasted known (events store.log)
  sound : stop = none → WritesKnown pin known (events store.log) → store.Sound known

theorem rowServed_writeOne (h : store.Sound known) (file : ImportFile) (plan : Plan)
    (row : PlanRow) :
    RowServed pin known
      (writeOne file plan row (token2Store crypto pcscText machine pin) store).stop
      (writeOne file plan row (token2Store crypto pcscText machine pin) store).state := by
  obtain ⟨hrow, hmade, hstop⟩ :=
    writeOne_sound file plan row (token2Store crypto pcscText machine pin) store
  generalize writeOne file plan row (token2Store crypto pcscText machine pin) store = wrote at *
  obtain ⟨outcome, stop, state, calls⟩ := wrote
  have hidle : Made (token2Store crypto pcscText machine pin) store [] state →
      RowServed pin known stop state := by
    intro hmade
    cases hmade with
    | nil => exact ⟨h.kept, fun _ _ => h⟩
  cases hrow with
  | skipped | nameless | unjoined => exact hidle hmade
  | added =>
      cases hmade with
      | add hadd hrest =>
          cases hrest with
          | nil =>
              have hadvanced := h.add hadd
              exact ⟨hadvanced.kept, fun _ => hadvanced.sound rfl⟩
  | refused _ _ _ _ hnot =>
      cases hmade with
      | add hadd hrest =>
          cases hrest with
          | nil =>
              refine ⟨(h.add hadd).kept, ?_⟩
              rintro rfl
              rw [StopFits, hnot] at hstop
              obtain ⟨_, hsome, _⟩ := hstop
              cases hsome
  | there | kept | lost | replaced =>
      cases hmade with
      | add hadd => exact absurd rfl (h.add hadd).fresh

/-- Once a run has stopped, nothing is sent any more. -/
theorem runRows_stopped {σ : Type} (file : ImportFile) (plan : Plan) (keys : CodeStore σ)
    (stop : Stop) (s : σ) (rows : List PlanRow) :
    (runRows file plan keys (some stop) s rows).2.2 = s := by
  induction rows with
  | nil => rfl
  | cons row rows ih => exact ih

theorem noneWasted_runRows (h : store.Sound known) (file : ImportFile) (plan : Plan)
    (rows : List PlanRow)
    (hwrites : WritesKnown pin known (events
      (runRows file plan (token2Store crypto pcscText machine pin) none store rows).2.2.log)) :
    NoneWasted known (events
      (runRows file plan (token2Store crypto pcscText machine pin) none store rows).2.2.log) := by
  induction rows generalizing store with
  | nil => exact h.kept
  | cons row rows ih =>
      have hserved : RowServed pin known
          (writeOne file plan row (token2Store crypto pcscText machine pin) store).stop
          (writeOne file plan row (token2Store crypto pcscText machine pin) store).state :=
        rowServed_writeOne h file plan row
      simp only [runRows] at hwrites ⊢
      generalize writeOne file plan row (token2Store crypto pcscText machine pin) store = wrote at *
      obtain ⟨outcome, stop, state, calls⟩ := wrote
      cases stop with
      | some stop =>
          rw [runRows_stopped]
          exact hserved.kept
      | none =>
          have hlog := log_of_made (runRows_made file plan
            (token2Store crypto pcscText machine pin) none state rows)
          exact ih (hserved.sound rfl (hwrites.of_prefix hlog)) hwrites

end Runs

/-! ### From the start of an import -/

/-- How the key's window was opened before the import. Only a PIN that was typed is known to be
right; a fingerprint says nothing about a PIN. -/
inductive Unlock where
  | locked
  | fingerprint
  | typed (pin : RustStr)
deriving DecidableEq, Repr

/-- A session as an import finds it. -/
structure StartSession (Keys : Type) where
  session : OtpSession Keys
  unlock : Unlock
  window : session.pinVerified = true ↔ unlock ≠ .locked
  typed : session.typedPinVerified = true ↔ ∃ pin, unlock = .typed pin
  keyed : session.Keyed

/-- The key accepted the import's PIN before the import. -/
def KnownAtStart {Keys : Type} (pin : Option RustStr) (start : StartSession Keys) : Prop :=
  ∃ p, pin = some p ∧ start.unlock = .typed p

/-- A session unlocked by a typed PIN was unlocked with the PIN of the import. -/
def SamePin {Keys : Type} (pin : Option RustStr) (start : StartSession Keys) : Prop :=
  ∀ p q, pin = some p → start.unlock = .typed q → q = p

theorem sound_new {Keys Key : Type} {pin : Option RustStr} {start : StartSession Keys}
    (hsame : SamePin pin start) (key : Key) :
    (Token2ImportStore.new start.session pin key).Sound (KnownAtStart pin start) where
  kept := ⟨trivial, .nil⟩
  unrefused := by
    intro e he
    cases he
  proven := by
    intro hproven
    obtain ⟨hpin, htyped⟩ := Bool.and_eq_true_iff.mp hproven
    obtain ⟨p, rfl⟩ := Option.isSome_iff_exists.mp hpin
    obtain ⟨q, hq⟩ := start.typed.mp htyped
    cases hsame p q rfl hq
    exact .inl ⟨p, rfl, hq⟩
  opened := by
    rintro (⟨p, -, hp⟩ | ⟨e, he, -⟩)
    · refine start.window.mpr ?_
      rw [hp]
      nofun
    · cases he
  keyed := start.keyed

/-- What a whole import said to the key. -/
def importEvents (crypto : OtpCrypto) (pcscText : PcscError → RustStr) {Key : Type}
    (machine : Dialogue.Machine OtpAnswer Key) (key : Key) (pin : Option RustStr)
    (start : StartSession crypto.SessionKeys) (file : ImportFile) (plan : Plan) : List Event :=
  events (run file plan (token2Store crypto pcscText machine pin)
    (Token2ImportStore.new start.session pin key)).state.log

/-- **An import wastes no PIN attempt** where each write that goes through comes once the key has
accepted the PIN, and a PIN typed before is the import's. The key may answer anything else, at any
point of the run. -/
theorem import_wastes_no_attempt (crypto : OtpCrypto) (pcscText : PcscError → RustStr) {Key : Type}
    (machine : Dialogue.Machine OtpAnswer Key) (key : Key) (pin : Option RustStr)
    (start : StartSession crypto.SessionKeys) (file : ImportFile) (plan : Plan)
    (hsame : SamePin pin start)
    (hwrites : WritesKnown pin (KnownAtStart pin start)
      (importEvents crypto pcscText machine key pin start file plan)) :
    NoneWasted (KnownAtStart pin start)
      (importEvents crypto pcscText machine key pin start file plan) :=
  noneWasted_runRows (sound_new hsame key) file plan plan.writes hwrites

/-! ### Two codes behind a fingerprint -/

/-- Ciphers that leave the bytes as they are. -/
def clearCrypto : OtpCrypto where
  Agreement := Unit
  SessionKeys := Unit
  agreement _ := ()
  publicXy _ := List.replicate 64 0x00
  establishSession _ _ := .ok ()
  sessionDecryptRaw _ _ data := data
  buildVerifyPinData drawn _ pin rand := .ok (drawn ++ pin ++ rand)
  buildProtectedWriteData drawn _ cleartext := drawn ++ cleartext
  encryptSeedPayload drawn devicePub cleartext _ := .ok (drawn ++ devicePub ++ cleartext)

/-- A key with its answers prepared. -/
def preparedKey : Dialogue.Machine OtpAnswer (List (List UInt8 × UInt16))
  | key, .random => (List.replicate 16 0x00, key)
  | [], .command _ => (.ok ([], 0x6F00), [])
  | answer :: key, .command _ => (.ok answer, key)

def twentyOnes : List UInt8 := List.replicate 20 0x01

theorem twentyOnes_ne : twentyOnes ≠ [] := List.cons_ne_nil _ _

theorem length_twentyOnes : twentyOnes.length ≤ MAX_SECRET_BYTES := Nat.le_of_ble_eq_true rfl

theorem sixDigits : 1 ≤ (6 : UInt8) ∧ (6 : UInt8) ≤ 10 :=
  ⟨Nat.le_of_ble_eq_true rfl, Nat.le_of_ble_eq_true rfl⟩

theorem noIssuer : (none : Option RustStr) ≠ some [] := (Option.some_ne_none []).symm

theorem someAccount (account : Char) : some [account] ≠ some [] :=
  fun h => List.cons_ne_nil _ _ (Option.some.inj h)

theorem thirtySeconds : OtpKind.totp 30 ≠ .totp 0 :=
  fun h => Nat.succ_ne_zero 29 (congrArg UInt32.toNat (OtpKind.totp.inj h))

def codeOf (account : Char) : ImportEntry where
  issuer := none
  account := some [account]
  secret := ⟨twentyOnes, twentyOnes_ne, length_twentyOnes⟩
  hash := .sha1
  digits := 6
  kind := .totp 30
  issuer_ne := noIssuer
  account_ne := someAccount account
  digits_range := sixDigits
  period_ne := thirtySeconds

def twoCodes : ImportFile where
  format := .otpauthList
  items := [(0, 'a'), (1, 'b')].map fun (index, account) =>
    { index, label := [account], entry := .ok (codeOf account) }
  batch := none

def addBoth : Plan where
  store := .token2Otp
  rows := [(0, 'a'), (1, 'b')].map fun (index, account) =>
    { index, label := [account], name := some (.token2 [] [account]), verdict := .add,
      touch := false }
  capacity := none
  onKey := 0
  replace := false
  notes := []

/-- The PIN flag with a challenge. -/
def flagAnswer : List UInt8 × UInt16 := ([0x01, 0x08, 0x06, 0x08] ++ List.replicate 37 0x00, Sw.OK)

def lockedStart : StartSession Unit where
  session := {
    pinSession := none, pinVerified := false, typedPinVerified := false, pinPresent := none,
    fpPresent := none }
  unlock := .locked
  window := by decide
  typed := ⟨nofun, by rintro ⟨_, ⟨⟩⟩⟩
  keyed := nofun

def fingerprintStart : StartSession Unit where
  session := {
    pinSession := some (), pinVerified := true, typedPinVerified := false,
    pinPresent := some true, fpPresent := some true }
  unlock := .fingerprint
  window := by decide
  typed := ⟨nofun, by rintro ⟨_, ⟨⟩⟩⟩
  keyed _ := rfl

/-- The key takes the PIN and the first code, closes its window, and takes the PIN again and the
second code. -/
def twoUnlocks : List (List UInt8 × UInt16) :=
  [flagAnswer, flagAnswer, (List.replicate 64 0x00, Sw.OK), flagAnswer, ([], Sw.OK), ([], Sw.OK),
    ([], 0x6985), flagAnswer, ([], Sw.OK), ([], Sw.OK)]

theorem events_twoUnlocks (pcscText : PcscError → RustStr) :
    importEvents clearCrypto pcscText preparedKey twoUnlocks (some "1234".toList) lockedStart
        twoCodes addBoth =
      [.verify false (.ok ([], Sw.OK)), .write (.ok ([], Sw.OK)), .write (.ok ([], 0x6985)),
        .verify true (.ok ([], Sw.OK)), .write (.ok ([], Sw.OK))] := rfl

/-- The key takes the first code behind the fingerprint, closes its window, and refuses the PIN. -/
def neverAccepted : List (List UInt8 × UInt16) :=
  [([], Sw.OK), ([], 0x6985), flagAnswer, ([], 0x63C7)]

theorem events_neverAccepted (pcscText : PcscError → RustStr) :
    importEvents clearCrypto pcscText preparedKey neverAccepted (some "1234".toList)
        fingerprintStart twoCodes addBoth =
      [.write (.ok ([], Sw.OK)), .write (.ok ([], 0x6985)), .verify true (.ok ([], 0x63C7))] := rfl

theorem import_wastes_no_attempt_twoUnlocks :
    NoneWasted (KnownAtStart (some "1234".toList) lockedStart)
      (importEvents clearCrypto (fun _ => []) preparedKey twoUnlocks (some "1234".toList) lockedStart
        twoCodes addBoth) := by
  refine import_wastes_no_attempt clearCrypto (fun _ => []) preparedKey twoUnlocks _ lockedStart
    twoCodes addBoth ?_ ?_
  · rintro p q - ⟨⟩
  · intro _
    rw [events_twoUnlocks]
    have haccepted : Accepted (.verify false (.ok ([], Sw.OK))) := ⟨[], rfl⟩
    exact ⟨False.elim, fun _ => .inr haccepted, fun _ => .inl (.inr haccepted), False.elim,
      fun _ => .inl (.inl (.inl (.inr haccepted))), trivial⟩

/-- The PIN is presented again though the key has never accepted it. -/
theorem fingerprint_import_wastes_attempt :
    ¬ NoneWasted (KnownAtStart (some "1234".toList) fingerprintStart)
      (importEvents clearCrypto (fun _ => []) preparedKey neverAccepted (some "1234".toList)
        fingerprintStart twoCodes addBoth) := by
  rw [events_neverAccepted]
  rintro ⟨⟨-, -, hproven, -⟩, -⟩
  rcases hproven rfl with (⟨p, -, hp⟩ | hwrite) | hwrite
  · cases hp
  · exact hwrite
  · exact hwrite

end Keyroost.Transport
