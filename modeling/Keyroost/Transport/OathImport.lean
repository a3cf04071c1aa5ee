import Keyroost.Token2Otp.Error
import Keyroost.Transport.ImportStore
import Keyroost.Transport.OathApplet

/-!
# Writing an import to a protected OATH applet

One command is sent, and when the applet asks for its password the session validates again and sends
the command once more. An import to an applet that forgets its unlock whenever it likes does what it
does to an applet without a password. Modelled from `keyroost-transport/src/import.rs`.

The statement compares two stores of one write loop. `PlainApplet` is an applet without a password,
and the protected one is built around it (`describe`, `forgetful`). `Mirrors` relates their states,
`ensures_oathWithReauth` shows that one command leads to the same answer and to states that are
again related, and the write loop is then run over both (`oathImportStore_alike`).
-/

namespace Keyroost.Transport

open Keyroost.Import Keyroost.Oath Session OathSession
open Dialogue (Device Machine)
open Token2Otp (hex4)

/-! ### What the applet said -/

inductive OathAnswer where
  | ok
  | exists_
  | full
  | needsAuth
  | other (sw : UInt16)
deriving DecidableEq, Repr

def oathDeleteAnswer (sw : UInt16) : OathAnswer :=
  if sw = 0x9000 then .ok
  else if sw = 0x6A84 then .full
  else if sw = 0x6982 ∨ sw = 0x6985 then .needsAuth
  else .other sw

def oathPutAnswer (sw : UInt16) : OathAnswer :=
  if sw = 0x6983 then .exists_ else oathDeleteAnswer sw

/-- The report on the answer that is final. -/
def oathReport : OathAnswer → Except StoreError Unit
  | .ok => .ok ()
  | .exists_ => .error .exists_
  | .full => .error .full
  | .needsAuth =>
      .error (.failed "the key asked for its OATH password again and refused it".toList)
  | .other sw => .error (.failed ("the key refused it (status ".toList ++ hex4 sw ++ [')']))

def tooLong : StoreError := .failed "name and seed are too long for one command".toList

/-- `display` gives the text of any other error. -/
def oathTransportFailed (display : OathError → RustStr) : OathError → StoreError
  | .oathCredentialTooLong => tooLong
  | other => .failed (display other)

def passwordProtected (hint : RustStr) : StoreError :=
  .failed ("this key's authenticator storage is password-protected; ".toList ++ hint)

/-! ### The store -/

section Store

variable (display : OathError → RustStr) (family : OathFamily) (hint : RustStr)

/-- Send one command; when the applet asks for its password, VALIDATE again and retry once. The
second answer is final, whatever it is. -/
def oathWithReauth (random : RandomChallenge) (send : OathM (Attempt UInt16))
    (answer : UInt16 → OathAnswer) : OathM (Except StoreError Unit) := do
  match ← send with
  | .error e => return .error (oathTransportFailed display e)
  | .ok sw =>
      if answer sw = .needsAuth then
        match ← reauthenticate random with
        | .error e => return .error (oathTransportFailed display e)
        | .ok false => return .error (passwordProtected hint)
        | .ok true =>
            match ← send with
            | .error e => return .error (oathTransportFailed display e)
            | .ok sw => return oathReport (answer sw)
      else return oathReport (answer sw)

def oathStoredName : StoredName → Except StoreError RustStr
  | .oath n => .ok n
  | _ => .error (.failed "this entry has no OATH name to store it under".toList)

/-- A name past this limit makes the key stop responding. -/
def hardNameLimit : OathFamily → Option Nat
  | .solo2 => some SOLO2_NAME_MAX
  | _ => none

def nameRefusal (name : RustStr) : Option RustStr :=
  (hardNameLimit family).bind fun max =>
    if max < name.len then
      some ("the name is ".toList ++ RustStr.decimal name.len ++ " bytes; a ".toList ++
        (Store.oath family).deviceName.toList ++ " stores names up to ".toList ++
        RustStr.decimal max ++
        " bytes (a longer one makes the key stop responding until it is unplugged)".toList)
    else none

/-- The PUT of an add, unless it is refused unsent. -/
def oathPutOf (name : StoredName) (entry : ImportEntry) (touch : Bool) :
    Except StoreError PutParams := do
  let n ← oathStoredName name
  match nameRefusal family n with
  | some refusal => .error (.failed refusal)
  | none => putParams n entry touch

def oathAdd (random : RandomChallenge) (name : StoredName) (entry : ImportEntry) (touch : Bool) :
    OathM (Except StoreError Unit) :=
  match oathPutOf family name entry touch with
  | .error e => pure (.error e)
  | .ok params => oathWithReauth display hint random (putStatus params) oathPutAnswer

def oathDelete (random : RandomChallenge) (name : StoredName) : OathM (Except StoreError Unit) :=
  match oathStoredName name with
  | .error e => pure (.error e)
  | .ok n => oathWithReauth display hint random (deleteStatus n) oathDeleteAnswer

/-- A session, the device it talks to, and how often it has drawn random bytes. -/
structure OathRun (τ : Type) where
  session : OathSession
  device : τ
  drawn : Nat

/-- One call of the store on a device. -/
def OathRun.serve {τ R : Type} (machine : Machine CardAnswer τ) (p : OathM R) (s : OathRun τ) :
    R × OathRun τ :=
  let result := (p s.session).serve machine s.device []
  (result.1.1, { session := result.1.2, device := result.2.1, drawn := s.drawn + 1 })

/-- `OathImportStore` over a device, with a source of random bytes. -/
def oathImportStore {τ : Type} (machine : Machine CardAnswer τ) (rng : Nat → HostChallenge) :
    CodeStore (OathRun τ) where
  add s name entry touch :=
    s.serve machine (oathAdd display family hint (some (rng s.drawn)) name entry touch)
  delete s name := s.serve machine (oathDelete display hint (some (rng s.drawn)) name)

end Store

/-! ### An applet without a password -/

/-- How an applet that asks for no password answers PUT and DELETE. It never gives the two status
words by which a locked applet is told. -/
structure PlainApplet (γ : Type) where
  answer : γ → List UInt8 → FinalSw × γ
  asksNothing : ∀ g apdu, (answer g apdu).1.value ≠ 0x6982 ∧ (answer g apdu).1.value ≠ 0x6985

namespace PlainApplet

variable {γ : Type} (applet : PlainApplet γ)

/-- One command, sent once. -/
def send (built : Except BuildError (List UInt8)) (answer : UInt16 → OathAnswer) (g : γ) :
    Except StoreError Unit × γ :=
  match built with
  | .error _ => (.error tooLong, g)
  | .ok apdu =>
      let (sw, g) := applet.answer g apdu
      (oathReport (answer sw.value), g)

/-- An import store with nothing in front of the applet. -/
def store (family : OathFamily) : CodeStore γ where
  add g name entry touch :=
    match oathPutOf family name entry touch with
    | .error e => (.error e, g)
    | .ok params => applet.send (put params) oathPutAnswer g
  delete g name :=
    match oathStoredName name with
    | .error e => (.error e, g)
    | .ok n => applet.send (delete n) oathDeleteAnswer g

/-- The applet behind a password: it answers so while it is unlocked or has no password, refuses
without effect while it is not, and may forget an unlock after any command. -/
inductive Step : Device CardAnswer (OathApplet γ)
  | access {s t : OathApplet γ} {apdu : List UInt8} {answer : CardAnswer apdu}
      (haccess : readCommand apdu ≠ .other) (h : OathApplet.Step false s apdu answer t) :
      Step s apdu answer t
  | done {s : OathApplet γ} {apdu : List UInt8} (hother : readCommand apdu = .other)
      (hopen : s.key = none ∨ s.authorized = true) (authorized : Bool) (challenge : List UInt8) :
      Step s apdu (.ok [(applet.answer s.store apdu).1.sw1, (applet.answer s.store apdu).1.sw2])
        { s with store := (applet.answer s.store apdu).2, authorized, challenge }
  | locked {s : OathApplet γ} {apdu : List UInt8} (hother : readCommand apdu = .other)
      (hkey : s.key ≠ none) (hlocked : s.authorized = false) (sw2 : UInt8)
      (hsw : sw2 = 0x82 ∨ sw2 = 0x85) (challenge : List UInt8) :
      Step s apdu (.ok [0x69, sw2]) { s with challenge }

variable {applet}

/-- It is an applet. -/
theorem Step.toApplet {s t : OathApplet γ} {apdu : List UInt8} {answer : CardAnswer apdu}
    (h : Step applet s apdu answer t) : OathApplet.Step false s apdu answer t := by
  cases h with
  | access _ h => exact h
  | done hother => exact .other hother ⟨rfl, rfl, rfl, rfl⟩
  | locked hother => exact .other hother ⟨rfl, rfl, rfl, rfl⟩

variable {m : OathSession} {s : OathApplet γ}

/-- One PUT or DELETE: carried out while the applet is open, refused without effect otherwise. -/
theorem ensures_status {apdu : List UInt8} (hharmless : Harmless apdu = true) :
    Ensures (Step applet) (fun r n t => n = m ∧ t.key = s.key ∧
      (((s.key = none ∨ s.authorized = true) ∧ r = .ok (applet.answer s.store apdu).1.value ∧
          t.store = (applet.answer s.store apdu).2) ∨
        (s.key ≠ none ∧ s.authorized = false ∧ (r = .ok 0x6982 ∨ r = .ok 0x6985) ∧
          t.store = s.store)))
      (status (.ok apdu)) m s := by
  have hother := readCommand_harmless hharmless
  have hmore := (Applet.oath (moreData m.selectInfo)).moreDataSw_eq
  refine ensures_andThen (Dialogue.Always.bind ?_)
  rw [transmitApplet, MAX_RESPONSE_CHUNKS, transmitLoop]
  intro answer t hstep
  cases hstep with
  | access haccess => exact absurd hother haccess
  | done _ hopen authorized challenge =>
      obtain ⟨hmoreSw, hwrongLe⟩ := (applet.answer s.store apdu).1.final
      have hreceived : received (.ok [(applet.answer s.store apdu).1.sw1,
          (applet.answer s.store apdu).1.sw2]) = .ok [(applet.answer s.store apdu).1.sw1,
            (applet.answer s.store apdu).1.sw2] := rfl
      have hsplit : splitSw [(applet.answer s.store apdu).1.sw1,
          (applet.answer s.store apdu).1.sw2] = some ([], (applet.answer s.store apdu).1.sw1,
            (applet.answer s.store apdu).1.sw2) := splitSw_append [] _ _
      simp only [hreceived, hsplit, advanceExchange, classifySw, hmore, if_neg hmoreSw,
        if_neg hwrongLe]
      refine ok_andThen ?_
      exact ensures_pure ⟨rfl, rfl, .inl ⟨hopen, rfl, rfl⟩⟩
  | locked _ hkey hlocked sw2 hsw challenge =>
      have hreceived : received (.ok [0x69, sw2]) = .ok [0x69, sw2] := rfl
      have hsplit : splitSw [0x69, sw2] = some ([], 0x69, sw2) := splitSw_append [] _ _
      have hmoreSw : (0x69 : UInt8) ≠ 0x61 := by decide
      have hwrongLe : (0x69 : UInt8) ≠ 0x6C := by decide
      simp only [hreceived, hsplit, advanceExchange, classifySw, hmore, if_neg hmoreSw,
        if_neg hwrongLe]
      refine ok_andThen ?_
      refine ensures_pure ⟨rfl, rfl, .inr ⟨hkey, hlocked, ?_, rfl⟩⟩
      rcases hsw with rfl | rfl
      · exact .inl rfl
      · exact .inr rfl

/-- The session can unlock the applet it is in step with. -/
structure Unlocks (m : OathSession) (s : OathApplet γ) : Prop where
  inStep : InStep m s
  kept : s.key.isSome = true → m.accessKey.isSome = true

theorem ensures_oathWithReauth {display : OathError → RustStr} {hint : RustStr}
    {host : HostChallenge} {built : Except BuildError (List UInt8)} {answer : UInt16 → OathAnswer}
    (hbuilt : ∀ apdu, built = .ok apdu → Harmless apdu = true)
    (hanswer : ∀ sw, answer sw = .needsAuth ↔ sw = 0x6982 ∨ sw = 0x6985) (h : Unlocks m s) :
    Ensures (Step applet) (fun r n t => (r, t.store) = applet.send built answer s.store ∧
      Unlocks n t) (oathWithReauth display hint (some host) (status built) answer) m s := by
  rcases built with e | apdu
  · exact ensures_pure ⟨rfl, h⟩
  · have hharmless := hbuilt apdu rfl
    have hplain : ∀ g, answer (applet.answer g apdu).1.value ≠ .needsAuth := by
      intro g hneeds
      rcases (hanswer _).mp hneeds with heq | heq
      · exact (applet.asksNothing g apdu).1 heq
      · exact (applet.asksNothing g apdu).2 heq
    refine ensures_bind ((ensures_status hharmless).mono ?_)
    rintro r n t ⟨rfl, hkey, ⟨hopen, rfl, hstore⟩ | ⟨hsome, -, hr, hstore⟩⟩
    · dsimp only
      rw [if_neg (hplain s.store)]
      refine ensures_pure ⟨?_, h.inStep.same hkey, ?_⟩
      · rw [hstore]
        rfl
      · rw [hkey]
        exact h.kept
    · have hin : InStep n t := h.inStep.same hkey
      have hkept : n.accessKey.isSome = true := h.kept (Option.isSome_iff_ne_none.mpr hsome)
      have hagain : Ensures (Step applet) (fun r n t =>
          (r, t.store) = applet.send (.ok apdu) answer s.store ∧ Unlocks n t)
          (do
            match ← reauthenticate (some host) with
            | .error e => return .error (oathTransportFailed display e)
            | .ok false => return .error (passwordProtected hint)
            | .ok true =>
                match ← status (.ok apdu) with
                | .error e => return .error (oathTransportFailed display e)
                | .ok sw => return oathReport (answer sw)) n t := by
        have hreauth : Ensures (OathApplet.Step false) _ (reauthenticate (some host)) n t :=
          ensures_reauthenticate hin
        have hdevice := hreauth.of_device fun s q a t (h : Step applet s q a t) => h.toApplet
        refine ensures_bind (hdevice.mono ?_)
        rintro b k u ⟨hin', hkept', hkey', hstore', hdone⟩
        obtain ⟨rfl, hauthorized⟩ := hdone rfl rfl
        rw [hkept]
        refine ensures_bind ((ensures_status hharmless).mono ?_)
        rintro r k' u' ⟨rfl, hkey'', ⟨-, rfl, hstore''⟩ | ⟨-, hlocked, -, -⟩⟩
        · refine ensures_pure ⟨?_, hin'.same hkey'', fun _ => ?_⟩
          · rw [hstore'', hstore', hstore]
            rfl
          · rw [hkept']
            exact hkept
        · rw [hauthorized hkept] at hlocked
          cases hlocked
      rcases hr with rfl | rfl
      · dsimp only
        rw [if_pos ((hanswer _).mpr (.inl rfl))]
        exact hagain
      · dsimp only
        rw [if_pos ((hanswer _).mpr (.inr rfl))]
        exact hagain

/-! ### An applet that forgets -/

/-- What an applet says of itself, with a challenge of zeros. -/
def describe (s : OathApplet γ) : List Tlv :=
  ⟨Tag.name.code, s.deviceId.val, s.deviceId.property⟩ ::
    if s.key.isSome then [⟨CHALLENGE, zeroChallenge.val, by decide⟩] else []

theorem describes_describe (s : OathApplet γ) :
    Describes (describe s) { s with challenge := zeroChallenge.val } := by
  unfold describe
  cases hkey : s.key with
  | none => exact ⟨rfl, by simp only; rfl⟩
  | some key => exact ⟨rfl, by simp only; rfl⟩

variable (applet) in
/-- The applet behind a password as a machine, which forgets an unlock after one command. -/
def forgetful : Machine CardAnswer (OathApplet γ) := fun s apdu =>
  match readCommand apdu with
  | .select =>
      (.ok (frames (describe s) ++ [0x90, 0x00]),
        { s with challenge := zeroChallenge.val, authorized := s.key.isNone })
  | .validate response host =>
      match s.key with
      | none => (.ok [0x6A, 0x80], s)
      | some key =>
          if response = respond key s.challenge then
            (.ok (frames [⟨RESPONSE, respond key host, by rw [length_respond]; decide⟩] ++
              [0x90, 0x00]),
              { s with
                authorized := true
                accepted := s.accepted ++ [⟨key, s.challenge, host⟩] })
          else (.ok [0x6A, 0x80], s)
  | .setCode key challenge response =>
      if s.authorized = true ∧ response = respond key challenge then
        (.ok [0x90, 0x00], { s with key := some key })
      else (.ok [0x69, 0x82], s)
  | .clearCode =>
      if s.authorized = true then (.ok [0x90, 0x00], { s with key := none })
      else (.ok [0x69, 0x82], s)
  | .reset =>
      (.ok [0x90, 0x00], { s with formerIds := s.formerIds ++ [s.deviceId], key := none })
  | .malformed => (.ok [0x69, 0x82], s)
  | .other =>
      if s.key = none ∨ s.authorized = true then
        (.ok [(applet.answer s.store apdu).1.sw1, (applet.answer s.store apdu).1.sw2],
          { s with store := (applet.answer s.store apdu).2, authorized := false })
      else (.ok [0x69, 0x82], s)

def WRONG_DATA : FinalSw := ⟨0x6A, 0x80, by decide⟩

def SECURITY_STATUS : FinalSw := ⟨0x69, 0x82, by decide⟩

theorem step_access (data : List UInt8) (sw : FinalSw) {s t : OathApplet γ} {apdu : List UInt8}
    {command : AppletCommand} (hread : readCommand apdu = command) (hother : command ≠ .other)
    (hfits : data.length + 2 ≤ RECV_BUFFER) (h : s.Handles command data sw t) :
    Step applet s apdu (.ok (data ++ [sw.sw1, sw.sw2])) t := by
  subst hread
  exact .access hother (.answered hfits h)

theorem length_describe (s : OathApplet γ) : (frames (describe s)).length ≤ 300 := by
  have hid := s.deviceId.property
  unfold describe frames
  cases s.key with
  | none => simp [Tlv.frame]; omega
  | some key => simp [Tlv.frame, zeroChallenge]; omega

theorem step_forgetful (s : OathApplet γ) (apdu : List UInt8) :
    Step applet s apdu (forgetful applet s apdu).1 (forgetful applet s apdu).2 := by
  unfold forgetful
  cases hread : readCommand apdu with
  | select =>
      refine step_access _ SUCCESS hread (by simp) ?_
        (.select zeroChallenge.val _ _ (describes_describe s))
      have hlen := length_describe s
      have hroom : 302 ≤ RECV_BUFFER := by decide
      omega
  | validate response host =>
      cases hkey : s.key with
      | none =>
          exact step_access [] WRONG_DATA hread (by simp) (by decide)
            (.notValidated response host s.challenge [] WRONG_DATA s.authorized
              (by rw [hkey]; simp) (by decide))
      | some key =>
          dsimp only
          split
          · next hresponse =>
              rw [← hkey]
              refine step_access _ SUCCESS hread (by simp) ?_
                (.validated key response host s.challenge _ hkey hresponse rfl)
              simp only [frames, List.flatMap_cons, List.flatMap_nil, Tlv.frame, List.append_nil,
                List.length_cons, length_respond]
              decide
          · next hresponse =>
              refine step_access [] WRONG_DATA hread (by simp) (by decide)
                (.notValidated response host s.challenge [] WRONG_DATA s.authorized ?_ (by decide))
              intro key' hkey'
              obtain rfl := Option.some.inj (hkey.symm.trans hkey')
              exact hresponse
  | setCode key challenge response =>
      dsimp only
      split
      · next h =>
          exact step_access [] SUCCESS hread (by simp) (by decide)
            (.codeSet key challenge response s.challenge s.authorized h.1 h.2)
      · exact step_access [] SECURITY_STATUS hread (by simp) (by decide)
          (.refused _ [] SECURITY_STATUS s.challenge s.authorized (by simp) (by simp) (by simp) (by decide))
  | clearCode =>
      dsimp only
      split
      · next h =>
          exact step_access [] SUCCESS hread (by simp) (by decide)
            (.codeCleared s.challenge s.authorized h)
      · exact step_access [] SECURITY_STATUS hread (by simp) (by decide)
          (.refused _ [] SECURITY_STATUS s.challenge s.authorized (by simp) (by simp) (by simp) (by decide))
  | reset =>
      exact step_access [] SUCCESS hread (by simp) (by decide)
        (.wiped s.deviceId s.challenge s.authorized s.store)
  | malformed =>
      exact step_access [] SECURITY_STATUS hread (by simp) (by decide)
        (.refused _ [] SECURITY_STATUS s.challenge s.authorized (by simp) (by simp) (by simp) (by decide))
  | other =>
      dsimp only
      split
      · next hopen => exact .done hread hopen false s.challenge
      · next hclosed =>
          obtain ⟨hkey, hlocked⟩ := not_or.mp hclosed
          exact .locked hread hkey (Bool.eq_false_of_not_eq_true hlocked) 0x82 (.inl rfl)
            s.challenge

end PlainApplet

/-! ### Two stores that answer alike -/

section Alike

variable {σ τ : Type} {store : CodeStore σ} {store' : CodeStore τ} {R : σ → τ → Prop}

/-- Two stores answer every call alike from related states, and stay related. A run of calls then
goes the same way on both. -/
structure AnswerAlike (store : CodeStore σ) (store' : CodeStore τ) (R : σ → τ → Prop) : Prop where
  add : ∀ s t, R s t → ∀ name entry touch,
    (store.add s name entry touch).1 = (store'.add t name entry touch).1 ∧
      R (store.add s name entry touch).2 (store'.add t name entry touch).2
  delete : ∀ s t, R s t → ∀ name,
    (store.delete s name).1 = (store'.delete t name).1 ∧
      R (store.delete s name).2 (store'.delete t name).2

/-- Two rows written alike: same outcome, same stop, same calls. Only the states may differ, and
these are related. -/
structure WroteAlike (R : σ → τ → Prop) (w : Wrote σ) (w' : Wrote τ) : Prop where
  outcome : w.outcome = w'.outcome
  stop : w.stop = w'.stop
  calls : w.calls = w'.calls
  state : R w.state w'.state

theorem WroteAlike.of {end_ : Outcome × Option Stop} {s : σ} {t : τ} {calls : List Import.Call}
    (h : R s t) : WroteAlike R (.of end_ s calls) (.of end_ t calls) := ⟨rfl, rfl, rfl, h⟩

variable (h : AnswerAlike store store' R)
include h

theorem addAgain_alike {s : σ} {t : τ} (hR : R s t) (name : StoredName) (entry : ImportEntry)
    (touch : Bool) (calls : List Import.Call) :
    WroteAlike R (addAgain store s name entry touch calls)
      (addAgain store' t name entry touch calls) := by
  obtain ⟨hanswer, hstate⟩ := h.add s t hR name entry touch
  rcases hadd : store.add s name entry touch with ⟨answer, s'⟩
  rcases hadd' : store'.add t name entry touch with ⟨answer', t'⟩
  rw [hadd, hadd'] at hanswer hstate
  obtain rfl : answer = answer' := hanswer
  simp only [addAgain, hadd, hadd']
  rcases answer with e | u
  · exact .of hstate
  · exact .of hstate

theorem replaceEntry_alike {s : σ} {t : τ} (hR : R s t) (name : StoredName)
    (entry : ImportEntry) (touch : Bool) (calls : List Import.Call) :
    WroteAlike R (replaceEntry store s name entry touch calls)
      (replaceEntry store' t name entry touch calls) := by
  obtain ⟨hanswer, hstate⟩ := h.delete s t hR name
  rcases hdelete : store.delete s name with ⟨answer, s'⟩
  rcases hdelete' : store'.delete t name with ⟨answer', t'⟩
  rw [hdelete, hdelete'] at hanswer hstate
  obtain rfl : answer = answer' := hanswer
  simp only [replaceEntry, hdelete, hdelete']
  rcases answer with e | u
  · exact .of hstate
  · exact addAgain_alike h hstate name entry touch _

theorem writeEntry_alike {s : σ} {t : τ} (hR : R s t) (plan : Plan) (row : PlanRow)
    (name : StoredName) (entry : ImportEntry) :
    WroteAlike R (writeEntry plan row store s name entry)
      (writeEntry plan row store' t name entry) := by
  obtain ⟨hanswer, hstate⟩ := h.add s t hR name entry row.touch
  rcases hadd : store.add s name entry row.touch with ⟨answer, s'⟩
  rcases hadd' : store'.add t name entry row.touch with ⟨answer', t'⟩
  rw [hadd, hadd'] at hanswer hstate
  obtain rfl : answer = answer' := hanswer
  simp only [writeEntry, hadd, hadd']
  rcases answer with e | u
  · cases e with
    | full => exact .of hstate
    | failed m => exact .of hstate
    | exists_ =>
        dsimp only
        split
        · exact .of hstate
        · exact replaceEntry_alike h hstate name entry row.touch _
  · exact .of hstate

theorem writeOne_alike {s : σ} {t : τ} (hR : R s t) (file : ImportFile) (plan : Plan)
    (row : PlanRow) : WroteAlike R (writeOne file plan row store s)
      (writeOne file plan row store' t) := by
  unfold writeOne
  split
  · exact .of hR
  · split
    · exact writeEntry_alike h hR plan row _ _
    · exact .of hR

theorem runRows_alike (file : ImportFile) (plan : Plan) (rows : List PlanRow)
    (stop : Option Stop) {s : σ} {t : τ} (hR : R s t) :
    (runRows file plan store stop s rows).1 = (runRows file plan store' stop t rows).1 ∧
      (runRows file plan store stop s rows).2.1 = (runRows file plan store' stop t rows).2.1 ∧
      R (runRows file plan store stop s rows).2.2 (runRows file plan store' stop t rows).2.2 := by
  induction rows generalizing stop s t with
  | nil =>
      cases stop with
      | none => exact ⟨rfl, rfl, hR⟩
      | some stop => exact ⟨rfl, rfl, hR⟩
  | cons row rows ih =>
      cases stop with
      | some stop =>
          obtain ⟨hrows, hstop, hstate⟩ := ih (some stop) hR
          simp only [runRows]
          exact ⟨congrArg _ hrows, hstop, hstate⟩
      | none =>
          have hwrote := writeOne_alike h hR file plan row
          obtain ⟨hrows, hstop, hstate⟩ := ih (writeOne file plan row store s).stop hwrote.state
          rw [hwrote.stop] at hrows hstop hstate
          simp only [runRows]
          rw [hwrote.stop, hwrote.outcome, hwrote.calls]
          exact ⟨congrArg _ hrows, hstop, hstate⟩

end Alike

/-! ### Imports -/

section Imports

variable {γ : Type} {applet : PlainApplet γ} {display : OathError → RustStr}
  {family : OathFamily} {hint : RustStr} {machine : Machine CardAnswer (OathApplet γ)}
  {rng : Nat → HostChallenge}

/-- The session can unlock the applet, and the applet stores what the plain one stores. -/
def Mirrors (s : OathRun (OathApplet γ)) (g : γ) : Prop :=
  PlainApplet.Unlocks s.session s.device ∧ s.device.store = g

/-- A program that does what one plain command does. -/
theorem serve_alike (hmachine : ∀ s apdu,
      PlainApplet.Step applet s apdu (machine s apdu).1 (machine s apdu).2)
    {p : OathM (Except StoreError Unit)} {s : OathRun (OathApplet γ)}
    {plain : Except StoreError Unit × γ}
    (h : Ensures (PlainApplet.Step applet) (fun r n t => (r, t.store) = plain ∧
      PlainApplet.Unlocks n t) p s.session s.device) :
    (s.serve machine p).1 = plain.1 ∧ Mirrors (s.serve machine p).2 plain.2 := by
  obtain ⟨log, -, hruns⟩ := Dialogue.runs_serve hmachine (p s.session) s.device []
  obtain ⟨rfl, hunlocks⟩ := h.of_runs hruns
  exact ⟨rfl, hunlocks, rfl⟩

theorem oathImportStore_alike (hmachine : ∀ s apdu,
      PlainApplet.Step applet s apdu (machine s apdu).1 (machine s apdu).2) :
    AnswerAlike (oathImportStore display family hint machine rng) (applet.store family)
      Mirrors := by
  constructor
  · rintro s g ⟨hunlocks, rfl⟩ name entry touch
    apply serve_alike hmachine
    unfold oathAdd PlainApplet.store
    dsimp only
    rcases oathPutOf family name entry touch with e | params
    · exact ensures_pure ⟨rfl, hunlocks⟩
    · refine PlainApplet.ensures_oathWithReauth (fun _ h => (put_harmless h).2) (fun sw => ?_)
        hunlocks
      unfold oathPutAnswer oathDeleteAnswer
      grind
  · rintro s g ⟨hunlocks, rfl⟩ name
    apply serve_alike hmachine
    unfold oathDelete PlainApplet.store
    dsimp only
    rcases oathStoredName name with e | n
    · exact ensures_pure ⟨rfl, hunlocks⟩
    · refine PlainApplet.ensures_oathWithReauth (fun _ h => (delete_harmless h).2) (fun sw => ?_)
        hunlocks
      unfold oathDeleteAnswer
      grind

/-- **A password makes no difference to an import.** Over an applet that has a password and may
forget after every command that it was unlocked, with a session that keeps its key, every plan
is written with the same calls, the same answers and the same report as over that applet
without a password, and leaves the same accounts. Of the applet this takes that it says 6982 and
6985 for no other reason than that it is locked, ends PUT and DELETE with one status word, and has
its answers arrive; `rng` always has bytes to give. -/
theorem oath_import_unlocks_itself (hmachine : ∀ s apdu,
      PlainApplet.Step applet s apdu (machine s apdu).1 (machine s apdu).2)
    {s : OathRun (OathApplet γ)} (hunlocks : PlainApplet.Unlocks s.session s.device)
    (file : ImportFile) (plan : Plan) :
    let guarded := run file plan (oathImportStore display family hint machine rng) s
    let plain := run file plan (applet.store family) s.device.store
    guarded.rows = plain.rows ∧ guarded.report = plain.report ∧
      guarded.state.device.store = plain.state ∧
      PlainApplet.Unlocks guarded.state.session guarded.state.device := by
  have halike : AnswerAlike (oathImportStore display family hint machine rng)
      (applet.store family) Mirrors := oathImportStore_alike hmachine
  obtain ⟨hrows, hstop, hunlocks', hstore⟩ :=
    runRows_alike halike file plan plan.writes none (s := s) (t := s.device.store)
      ⟨hunlocks, rfl⟩
  refine ⟨hrows, ?_, hstore, hunlocks'⟩
  simp only [RunResult.report, run, hrows, hstop]

end Imports

/-- An applet that takes everything. -/
def roomyApplet : PlainApplet (List (List UInt8)) where
  answer g apdu := (SUCCESS, g ++ [apdu])
  asksNothing _ _ := (by decide : SUCCESS.value ≠ 0x6982 ∧ SUCCESS.value ≠ 0x6985)

def zeroKey : AccessKey := ⟨List.replicate 16 0, rfl⟩

/-- A session and a locked applet with the same key. -/
def lockedRun : OathRun (OathApplet (List (List UInt8))) where
  session := { selectInfo := { SelectInfo.default with challenge := some zeroChallenge.val },
               accessKey := some zeroKey }
  device :=
    { deviceId := ⟨[], by decide⟩, formerIds := [], key := some zeroKey.val, challenge := zeroChallenge.val,
      authorized := false, accepted := [], store := [] }
  drawn := 0

theorem oath_import_unlocks_itself_forgetful :
    (run longAccount (plan longAccount emptyYubiKey) (oathImportStore (fun _ => []) .other []
        (PlainApplet.forgetful roomyApplet) fun _ => zeroChallenge) lockedRun).report =
      (run longAccount (plan longAccount emptyYubiKey) (roomyApplet.store .other) []).report :=
  (oath_import_unlocks_itself PlainApplet.step_forgetful
    (s := lockedRun) ⟨⟨fun _ h => congrArg (fun k : AccessKey => some k.val) (Option.some.inj h),
      rfl⟩, fun _ => rfl⟩ longAccount (plan longAccount emptyYubiKey)).2.1

end Keyroost.Transport
