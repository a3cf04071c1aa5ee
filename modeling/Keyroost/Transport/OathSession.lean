import Keyroost.Library.Session
import Keyroost.Oath.Access
import Keyroost.Transport.IsoCard

/-!
# OATH sessions

A session with an OATH applet on one reader, from `keyroost-transport/src/oath.rs`: what SELECT said
of the applet, and the access key it keeps so that it can VALIDATE again. No session keeps a key
that the card has not vouched for, whatever the card does.

Operations are programs over the session, with the card's answers and the random challenges as the
replies to their questions. Those that have nothing to do with the password send commands of a few
kinds only and leave the key alone (`Quiet`), so that a run of calls is left with the few that are
not. `Vouches` is what the log has to show for a kept key: a VALIDATE that the card proved, or a SET
CODE that it took. `kept_key_was_vouched_for` is about any calls, and its sample unlocks a session,
changes the password and unlocks it again.
-/

namespace Keyroost.Transport

open Proto Oath
open Dialogue (Device Asked Says)

/-- The errors of an OATH session. -/
inductive OathError where
  | transport (e : TransportError)
  | oathPasswordRejected
  | oathParse (e : ParseError)
  | oathNoTouch (action : String)
  | oathCredentialTooLong
deriving DecidableEq, Repr

/-- An open session, but for the card it talks to: what SELECT told of the applet, and the access
key where one was proved or set. -/
structure OathSession where
  selectInfo : SelectInfo
  accessKey : Option AccessKey
deriving DecidableEq, Repr

/-- The result of a call. -/
abbrev Attempt (α : Type) : Type := Except OathError α

/-- A program on a session. -/
abbrev OathM : Type → Type := Session CardAnswer OathSession

/-- `random_challenge`: eight bytes, unless the random number generator fails. -/
abbrev RandomChallenge : Type := Option HostChallenge

namespace OathSession

open Session

/-- Before SELECT has answered. -/
def new : OathSession := { selectInfo := .default, accessKey := none }

def moreData (info : SelectInfo) : MoreData :=
  if info.serial.isSome then .getResponse else .sendRemaining

def transmitFull (apdu : List UInt8) : OathM (Attempt (List UInt8 × UInt16)) := fun m =>
  transmitApplet (Applet.oath (moreData m.selectInfo)).io apdu >>= fun r =>
    .done (r.mapError .transport, m)

def okOrApdu (label : String) (sw : UInt16) : Attempt Unit :=
  if sw = 0x9000 then .ok ()
  else .error (.transport (.apdu label (sw >>> 8).toUInt8 sw.toUInt8))

/-- One command of which the status word alone counts. -/
def send (apdu : List UInt8) (judge : UInt16 → Attempt Unit)
    (change : OathSession → OathSession) : OathM (Attempt Unit) :=
  andThen (transmitFull apdu) fun (_, sw) =>
    match judge sw with
    | .error e => pure (.error e)
    | .ok () => do
        modify change
        return .ok ()

def select : OathM (Attempt Unit) :=
  andThen (transmitFull Oath.select) fun (data, sw) =>
    match okOrApdu "select oath applet" sw with
    | .error e => pure (.error e)
    | .ok () =>
        match parseSelect data with
        | .error e => pure (.error (.oathParse e))
        | .ok info => do
            modify fun m => { m with selectInfo := info }
            return .ok ()

/-! ### The password -/

def mutualAuthFailed : OathError :=
  .transport (.malformedResponse "OATH card failed mutual authentication")

/-- What the answer to a VALIDATE means. -/
def judgeValidate (key : AccessKey) (hostChallenge : HostChallenge) (data : List UInt8)
    (sw : UInt16) : Attempt Unit :=
  if sw = 0x6A80 ∨ sw = 0x6982 then .error .oathPasswordRejected
  else
    match okOrApdu "oath validate" sw with
    | .error e => .error e
    | .ok () =>
        match verifyValidate key.val hostChallenge.val data with
        | .error e => .error (.oathParse e)
        | .ok true => .ok ()
        | .ok false => .error mutualAuthFailed

def validateWith (random : RandomChallenge) (key : AccessKey) : OathM (Attempt Unit) := do
  match (← get).selectInfo.challenge with
  | none => return .ok ()
  | some cardChallenge =>
      match random with
      | none => return .error (.transport .hostRngFailed)
      | some hostChallenge =>
          andThen (transmitFull (Oath.validate key.val cardChallenge hostChallenge.val))
            fun (data, sw) => pure (judgeValidate key hostChallenge data sw)

def unlock (random : RandomChallenge) (password : RustStr) : OathM (Attempt Unit) := do
  let m ← get
  if m.selectInfo.challenge.isNone then return .ok ()
  else
    let key := deriveAccessKey password m.selectInfo.deviceId
    andThen (validateWith random key) fun _ => do
      modify fun m => { m with accessKey := some key }
      return .ok ()

def reauthenticate (random : RandomChallenge) : OathM (Attempt Bool) := do
  match (← get).accessKey with
  | none => return .ok false
  | some key =>
      andThen select fun _ => do
        if (← get).selectInfo.challenge.isNone then return .ok true
        else andThen (validateWith random key) fun _ => return .ok true

def setPassword (random : RandomChallenge) (password : RustStr) : OathM (Attempt Unit) := do
  let key := deriveAccessKey password (← get).selectInfo.deviceId
  match random with
  | none => return .error (.transport .hostRngFailed)
  | some challenge =>
      send (setCode key.val challenge.val) (okOrApdu "oath set code") fun m =>
        { selectInfo := { m.selectInfo with challenge := some challenge.val },
          accessKey := some key }

/-- The session of an applet without a password. -/
def open_ (m : OathSession) : OathSession :=
  { selectInfo := { m.selectInfo with challenge := none }, accessKey := none }

def clearPassword : OathM (Attempt Unit) := send clearCode (okOrApdu "oath clear code") open_

/-- `6982` from an applet with no password is the key waiting for a touch it didn't get. -/
def writeAnswer (m : OathSession) (label action : String) (sw : UInt16) : Attempt Unit :=
  if sw = 0x6982 ∧ ¬ m.selectInfo.passwordRequired then .error (.oathNoTouch action)
  else okOrApdu label sw

def factoryReset : OathM (Attempt Unit) := do
  send Oath.reset (writeAnswer (← get) "oath reset" "reset its Authenticator app") open_

/-! ### Accounts -/

def list : OathM (Attempt Listing) := do
  let plain : OathM (Attempt Listing) := andThen (transmitFull Oath.list) fun (data, sw) =>
    match okOrApdu "oath list" sw with
    | .error e => pure (.error e)
    | .ok () => pure ((parseList data).mapError .oathParse)
  if (← get).selectInfo.serial.isSome then
    andThen (transmitFull listWithProperties) fun (data, sw) =>
      if sw = 0x9000 then
        match parseListWithProperties data with
        | .ok listing => pure (.ok listing)
        | .error _ => plain
      else plain
  else plain

/-- A CALCULATE that was built, or an error if it was not. -/
def calculated (built : Except BuildError (List UInt8)) (label : String) : OathM (Attempt OtpCode) :=
  match built with
  | .error _ => pure (.error .oathCredentialTooLong)
  | .ok apdu => andThen (transmitFull apdu) fun (data, sw) => do
      match writeAnswer (← get) label "compute the code" sw with
      | .error e => return .error e
      | .ok () => return (parseCalculate data).mapError .oathParse

def calculateTotp (name : RustStr) (unixTime : UInt64) (period : UInt32) : OathM (Attempt OtpCode) :=
  calculated (calculate name (totpChallenge unixTime period)) "oath calculate"

def calculateHotp (name : RustStr) : OathM (Attempt OtpCode) :=
  calculated (Oath.calculateHotp name) "oath calculate (hotp)"

def calculateAll (unixTime : UInt64) : OathM (Attempt CalculateAll) :=
  andThen (transmitFull (Oath.calculateAll (totpChallenge unixTime 30))) fun (data, sw) =>
    match okOrApdu "oath calculate all" sw with
    | .error e => pure (.error e)
    | .ok () => pure ((parseCalculateAll data).mapError .oathParse)

/-- The status word of a command that was built. -/
def status (built : Except BuildError (List UInt8)) : OathM (Attempt UInt16) :=
  match built with
  | .error _ => pure (.error .oathCredentialTooLong)
  | .ok apdu => andThen (transmitFull apdu) fun (_, sw) => pure (.ok sw)

def putStatus (params : PutParams) : OathM (Attempt UInt16) := status (Oath.put params)

def deleteStatus (name : RustStr) : OathM (Attempt UInt16) := status (Oath.delete name)

def put (params : PutParams) : OathM (Attempt Unit) :=
  andThen (putStatus params) fun sw => do
    return writeAnswer (← get) "oath put" "save the account" sw

def delete (name : RustStr) : OathM (Attempt Unit) :=
  andThen (deleteStatus name) fun sw => do
    return writeAnswer (← get) "oath delete" "delete the account" sw

/-! ### Commands that have nothing to do with the password -/

/-- Neither SELECT nor VALIDATE, SET CODE or RESET. -/
def Harmless : List UInt8 → Bool
  | _ :: ins :: p1 :: _ =>
      ins ≠ INS_VALIDATE && ins ≠ INS_SET_CODE && ins ≠ 0x04 && !(ins = INS_SELECT && p1 = 0x04)
  | _ => true

theorem harmless_resendWithLe {original : List UInt8} (hlong : 4 ≤ original.length) (le : UInt8) :
    4 ≤ (resendWithLe original le).length ∧
      Harmless (resendWithLe original le) = Harmless original := by
  have heq : ∃ endsInLe : Bool, resendWithLe original le =
      if endsInLe = true then original.set (original.length - 1) le else original ++ [le] :=
    ⟨_, rfl⟩
  obtain ⟨endsInLe, heq⟩ := heq
  rcases original with _ | ⟨cla, _ | ⟨ins, _ | ⟨p1, rest⟩⟩⟩
  · cases hlong
  · simp at hlong
  · simp at hlong
  · rw [heq]
    cases endsInLe with
    | true =>
        rcases rest with _ | ⟨p2, rest⟩
        · simp at hlong
        · refine ⟨?_, rfl⟩
          rw [if_pos rfl, List.length_set]
          exact hlong
    | false =>
        refine ⟨?_, rfl⟩
        rw [if_neg Bool.false_ne_true, List.length_append]
        exact Nat.le_add_right_of_le hlong

variable {σ : Type} {D : Device CardAnswer σ} {J : σ → Prop}

theorem asks_transmitLoop {io : AppletIo} (hget : 4 ≤ io.getResponse.length)
    (hgetHarmless : Harmless io.getResponse = true) {left : Nat} {toSend acc : List UInt8}
    (hlong : 4 ≤ toSend.length) (hharmless : Harmless toSend = true) :
    (transmitLoop io left toSend acc).Asks fun apdu => Harmless apdu = true := by
  induction left generalizing toSend acc with
  | zero =>
      rw [transmitLoop]
      refine ⟨hharmless, fun answer => ?_⟩
      rcases hanswer : received answer with e | resp
      · simp only [hanswer]
        exact trivial
      · rcases hsplit : splitSw resp with _ | ⟨data, sw1, sw2⟩
        · simp only [hanswer, hsplit]
          exact trivial
        · simp only [hanswer, hsplit]
          exact trivial
  | succ left ih =>
      rw [transmitLoop]
      refine ⟨hharmless, fun answer => ?_⟩
      rcases hanswer : received answer with e | resp
      · simp only [hanswer]
        exact trivial
      · rcases hsplit : splitSw resp with _ | ⟨data, sw1, sw2⟩
        · simp only [hanswer, hsplit]
          exact trivial
        · have hresend : ∀ original, 4 ≤ original.length → Harmless original = true → ∀ le acc,
              Dialogue.Asks (fun apdu => Harmless apdu = true) (if MAX_REASSEMBLED_RESPONSE <
                List.length acc then Dialogue.done (.error REASSEMBLY_LIMIT)
                else transmitLoop io left (resendWithLe original le) acc) := by
            intro original hlen horiginal le acc
            obtain ⟨hlen', heq⟩ := harmless_resendWithLe hlen le
            split
            · exact trivial
            · exact ih hlen' (heq.trans horiginal)
          simp only [hanswer, hsplit, advanceExchange]
          cases classifySw sw1 io.moreDataSw sw2 with
          | done => exact trivial
          | moreData => exact hresend _ hget hgetHarmless _ _
          | wrongLe le => exact hresend _ hlong hharmless _ _

/-- A call that leaves the session as it is, and sends nothing that has to do with the
password. -/
structure Quiet {α : Type} (p : OathM (Attempt α)) : Prop where
  keeps : ∀ {σ : Type} (D : Device CardAnswer σ) (J : σ → Prop),
    (∀ s apdu a t, Harmless apdu = true → D s apdu a t → J s → J t) →
      ∀ m s, J s → Ensures D (fun _ n t => n = m ∧ J t) p m s

namespace Quiet

variable {α β : Type}

theorem pure (r : Attempt α) : Quiet (Pure.pure r) :=
  ⟨fun _ _ _ _ _ hs => ensures_pure ⟨rfl, hs⟩⟩

theorem andThen {p : OathM (Attempt α)} {f : α → OathM (Attempt β)} (hp : Quiet p)
    (hf : ∀ a, Quiet (f a)) : Quiet (Session.andThen p f) := by
  refine ⟨fun D J hJ m s hs => ensures_andThen ((hp.keeps D J hJ m s hs).mono ?_)⟩
  rintro r n t ⟨rfl, ht⟩
  exact ⟨fun _ _ => ⟨rfl, ht⟩, fun a _ => (hf a).keeps D J hJ n t ht⟩

theorem get {f : OathSession → OathM (Attempt α)} (h : ∀ m, Quiet (f m)) :
    Quiet (MonadState.get >>= f) :=
  ⟨fun D J hJ m s hs => (h m).keeps D J hJ m s hs⟩

theorem transmitFull {apdu : List UInt8} (hlong : 4 ≤ apdu.length)
    (hharmless : Harmless apdu = true) : Quiet (transmitFull apdu) := by
  refine ⟨fun D J hJ m s hs => ?_⟩
  have hget : 4 ≤ (Applet.oath (moreData m.selectInfo)).io.getResponse.length ∧
      Harmless (Applet.oath (moreData m.selectInfo)).io.getResponse = true := by
    cases moreData m.selectInfo <;> exact ⟨by decide, by decide⟩
  have hasks : (transmitLoop (Applet.oath (moreData m.selectInfo)).io MAX_RESPONSE_CHUNKS apdu
      []).Asks fun apdu => Harmless apdu = true :=
    asks_transmitLoop hget.1 hget.2 hlong hharmless
  exact Dialogue.Always.bind
    ((always_of_asks hasks (fun s q a t => hJ s q a t) hs).mono fun _ _ ht => ⟨rfl, ht⟩)

end Quiet

/-- A command framed by `finish_apdu` has its instruction. -/
theorem finishApdu_harmless {ins p1 p2 : UInt8} {data apdu : List UInt8}
    (h : finishApdu ins p1 p2 data = .ok apdu) :
    4 ≤ apdu.length ∧ Harmless apdu = Harmless [0x00, ins, p1] := by
  unfold finishApdu tryBuildApdu at h
  split at h
  · cases h
  · next hbuild =>
      split at hbuild
      · cases hbuild
      · cases hbuild
        cases h
        refine ⟨?_, rfl⟩
        exact Nat.le_add_left 4 _

theorem put_harmless {params : PutParams} {apdu : List UInt8} (h : Oath.put params = .ok apdu) :
    4 ≤ apdu.length ∧ Harmless apdu = true := by
  unfold Oath.put at h
  obtain ⟨data, -, h⟩ := Checks.bind_eq_ok.mp h
  obtain ⟨data, -, h⟩ := Checks.bind_eq_ok.mp h
  dsimp only at h
  split at h
  · obtain ⟨data, -, h⟩ := Checks.bind_eq_ok.mp h
    exact finishApdu_harmless h
  · exact finishApdu_harmless h

theorem delete_harmless {name : RustStr} {apdu : List UInt8} (h : Oath.delete name = .ok apdu) :
    4 ≤ apdu.length ∧ Harmless apdu = true := by
  unfold Oath.delete at h
  obtain ⟨data, -, h⟩ := Checks.bind_eq_ok.mp h
  exact finishApdu_harmless h

theorem calculateWith_harmless {name : RustStr} {challenge apdu : List UInt8}
    (h : calculateWith name challenge = .ok apdu) :
    4 ≤ apdu.length ∧ Harmless apdu = true := by
  unfold calculateWith at h
  obtain ⟨data, -, h⟩ := Checks.bind_eq_ok.mp h
  obtain ⟨framed, hframed, h⟩ := Checks.bind_eq_ok.mp h
  cases h
  obtain ⟨hlong, hharmless⟩ := finishApdu_harmless hframed
  rcases framed with _ | ⟨cla, _ | ⟨ins, _ | ⟨p1, rest⟩⟩⟩
  · cases hlong
  · simp at hlong
  · simp at hlong
  · refine ⟨?_, hharmless⟩
    rw [withLe, List.length_append]
    exact Nat.le_add_right_of_le hlong

theorem quiet_status {built : Except BuildError (List UInt8)}
    (h : ∀ apdu, built = .ok apdu → 4 ≤ apdu.length ∧ Harmless apdu = true) :
    Quiet (status built) := by
  rcases built with e | apdu
  · exact .pure _
  · obtain ⟨hlong, hharmless⟩ := h apdu rfl
    exact (Quiet.transmitFull hlong hharmless).andThen fun _ => .pure _

theorem quiet_calculated {built : Except BuildError (List UInt8)} {label : String}
    (h : ∀ apdu, built = .ok apdu → 4 ≤ apdu.length ∧ Harmless apdu = true) :
    Quiet (calculated built label) := by
  rcases built with e | apdu
  · exact .pure _
  · obtain ⟨hlong, hharmless⟩ := h apdu rfl
    refine (Quiet.transmitFull hlong hharmless).andThen fun (data, sw) => .get fun m => ?_
    split
    · exact .pure _
    · exact .pure _

theorem quiet_list : Quiet list := by
  have hplain : Quiet (andThen (transmitFull Oath.list) fun (data, sw) =>
      match okOrApdu "oath list" sw with
      | .error e => Pure.pure (.error e)
      | .ok () => Pure.pure ((parseList data).mapError .oathParse)) := by
    refine (Quiet.transmitFull (by decide) (by decide)).andThen fun (data, sw) => ?_
    dsimp only
    split
    · exact .pure _
    · exact .pure _
  refine .get fun m => ?_
  split
  · refine (Quiet.transmitFull (by decide) (by decide)).andThen fun (data, sw) => ?_
    dsimp only
    split
    · split
      · exact .pure _
      · exact hplain
    · exact hplain
  · exact hplain

theorem quiet_calculateAll (unixTime : UInt64) : Quiet (calculateAll unixTime) := by
  refine (Quiet.transmitFull ?_ rfl).andThen fun (data, sw) => ?_
  · exact Nat.le_add_left 4 _
  · dsimp only
    split
    · exact .pure _
    · exact .pure _

/-! ### Runs of calls -/

/-- A call on a session, with the random bytes it draws. -/
inductive Call where
  | unlock (random : RandomChallenge) (password : RustStr)
  | reauthenticate (random : RandomChallenge)
  | setPassword (random : RandomChallenge) (password : RustStr)
  | clearPassword
  | factoryReset
  | list
  | calculateTotp (name : RustStr) (unixTime : UInt64) (period : UInt32)
  | calculateHotp (name : RustStr)
  | calculateAll (unixTime : UInt64)
  | putStatus (params : PutParams)
  | put (params : PutParams)
  | deleteStatus (name : RustStr)
  | delete (name : RustStr)

namespace Call

/-- A call without the value it gives. -/
def perform : Call → OathM (Attempt Unit)
  | .unlock random password => OathSession.unlock random password
  | .reauthenticate random => andThen (OathSession.reauthenticate random) fun _ => pure (.ok ())
  | .setPassword random password => OathSession.setPassword random password
  | .clearPassword => OathSession.clearPassword
  | .factoryReset => OathSession.factoryReset
  | .list => andThen OathSession.list fun _ => pure (.ok ())
  | .calculateTotp name unixTime period =>
      andThen (OathSession.calculateTotp name unixTime period) fun _ => pure (.ok ())
  | .calculateHotp name => andThen (OathSession.calculateHotp name) fun _ => pure (.ok ())
  | .calculateAll unixTime => andThen (OathSession.calculateAll unixTime) fun _ => pure (.ok ())
  | .putStatus params => andThen (OathSession.putStatus params) fun _ => pure (.ok ())
  | .put params => OathSession.put params
  | .deleteStatus name => andThen (OathSession.deleteStatus name) fun _ => pure (.ok ())
  | .delete name => OathSession.delete name

def random : Call → RandomChallenge
  | .unlock random _ | .reauthenticate random | .setPassword random _ => random
  | _ => none

/-- Whether a call has to do with the password. -/
def access : Call → Bool
  | .unlock _ _ | .reauthenticate _ | .setPassword _ _ | .clearPassword | .factoryReset => true
  | _ => false

theorem quiet {call : Call} (h : call.access = false) : Quiet call.perform := by
  cases call with
  | list => exact quiet_list.andThen fun _ => .pure _
  | calculateTotp name unixTime period =>
      exact (quiet_calculated fun _ => calculateWith_harmless).andThen fun _ => .pure _
  | calculateHotp name =>
      exact (quiet_calculated fun _ => calculateWith_harmless).andThen fun _ => .pure _
  | calculateAll unixTime => exact (quiet_calculateAll unixTime).andThen fun _ => .pure _
  | putStatus params => exact (quiet_status fun _ => put_harmless).andThen fun _ => .pure _
  | deleteStatus name => exact (quiet_status fun _ => delete_harmless).andThen fun _ => .pure _
  | put params =>
      exact (quiet_status fun _ => put_harmless).andThen fun _ => .get fun _ => .pure _
  | delete name =>
      exact (quiet_status fun _ => delete_harmless).andThen fun _ => .get fun _ => .pure _
  | _ => cases h

end Call

def performAll : List Call → OathM (List (Attempt Unit))
  | [] => return []
  | call :: calls => do
      let result ← call.perform
      let results ← performAll calls
      return result :: results

/-! ### What a kept key was vouched for with -/

section Vouched

variable {m n : OathSession} {log : List (Asked CardAnswer)} {apdu : List UInt8}
  {random : RandomChallenge} {key : AccessKey}

theorem says_transmitFull {r : Attempt (List UInt8 × UInt16)} :
    Says (transmitFull apdu m) log (r, n) ↔ ∃ answer,
      Says (transmitApplet (Applet.oath (moreData m.selectInfo)).io apdu) log answer ∧
        r = answer.mapError .transport ∧ n = m := by
  rw [transmitFull, Dialogue.says_bind]
  constructor
  · rintro ⟨first, answer, rest, rfl, hfirst, hrest⟩
    obtain ⟨rfl, hpair⟩ := Dialogue.says_done.mp hrest
    obtain ⟨rfl, rfl⟩ := Prod.mk.inj hpair
    rw [List.append_nil]
    exact ⟨answer, hfirst, rfl, rfl⟩
  · rintro ⟨answer, hfirst, rfl, rfl⟩
    exact ⟨log, answer, [], (List.append_nil log).symm, hfirst, .done⟩

theorem Quiet.unchanged {α : Type} {p : OathM (Attempt α)} (h : Quiet p) {r : Attempt α}
    (hrun : Says (p m) log (r, n)) : n = m :=
  ((h.keeps _ (fun _ => True) (fun _ _ _ _ _ _ _ => trivial) m () trivial).of_runs hrun).1

theorem okOrApdu_eq_ok {label : String} {sw : UInt16} :
    okOrApdu label sw = .ok () ↔ sw = 0x9000 := by
  unfold okOrApdu
  split
  · next h => exact ⟨fun _ => h, fun _ => rfl⟩
  · next h => exact ⟨nofun, fun heq => absurd heq h⟩

theorem writeAnswer_eq_ok {label action : String} {sw : UInt16}
    (h : writeAnswer m label action sw = .ok ()) : sw = 0x9000 := by
  unfold writeAnswer at h
  split at h
  · cases h
  · exact okOrApdu_eq_ok.mp h

/-- The card answered a VALIDATE with the HMAC of a challenge that the host drew. -/
def Proves (random : RandomChallenge) (log : List (Asked CardAnswer)) (key : AccessKey) : Prop :=
  ∃ applet cardChallenge hostChallenge data, random = some hostChallenge ∧
    Says (transmitApplet (Applet.oath applet).io
      (Oath.validate key.val cardChallenge hostChallenge.val)) log (.ok (data, 0x9000)) ∧
    verifyValidate key.val hostChallenge.val data = .ok true

/-- The card took the key in a SET CODE. -/
def Installs (log : List (Asked CardAnswer)) (key : AccessKey) : Prop :=
  ∃ applet challenge data, Says (transmitApplet (Applet.oath applet).io
    (setCode key.val challenge)) log (.ok (data, 0x9000))

theorem judgeValidate_eq_ok {hostChallenge : HostChallenge} {data : List UInt8} {sw : UInt16}
    (h : judgeValidate key hostChallenge data sw = .ok ()) :
    sw = 0x9000 ∧ verifyValidate key.val hostChallenge.val data = .ok true := by
  unfold judgeValidate at h
  split at h
  · cases h
  · split at h
    · cases h
    · next hok =>
        split at h
        · cases h
        · next hverify => exact ⟨okOrApdu_eq_ok.mp hok, hverify⟩
        · cases h

theorem says_validateWith {r : Attempt Unit}
    (h : Says (validateWith random key m) log (r, n)) :
    n = m ∧ (r = .ok () → m.selectInfo.challenge.isSome = true → Proves random log key) := by
  unfold validateWith at h
  rw [says_get_bind] at h
  rcases hchallenge : m.selectInfo.challenge with _ | cardChallenge
  · simp only [hchallenge] at h
    obtain ⟨-, -, rfl⟩ := says_pure.mp h
    exact ⟨rfl, fun _ hsome => nomatch hsome⟩
  · rcases random with _ | hostChallenge
    · simp only [hchallenge] at h
      obtain ⟨-, rfl, rfl⟩ := says_pure.mp h
      exact ⟨rfl, nofun⟩
    · simp only [hchallenge] at h
      rcases says_andThen.mp h with ⟨e, rfl, hsend⟩ | ⟨first, ⟨data, sw⟩, n', rest, rfl, hsend, hrest⟩
      · obtain ⟨-, -, -, rfl⟩ := says_transmitFull.mp hsend
        exact ⟨rfl, nofun⟩
      · obtain ⟨answer, hanswer, hmap, rfl⟩ := says_transmitFull.mp hsend
        obtain ⟨rfl, hjudge, rfl⟩ := says_pure.mp hrest
        refine ⟨rfl, fun hok _ => ?_⟩
        obtain ⟨rfl, hverify⟩ := judgeValidate_eq_ok (hjudge.symm.trans hok)
        rcases answer with e | answer
        · cases hmap
        · cases hmap
          rw [List.append_nil]
          exact ⟨_, cardChallenge, hostChallenge, data, rfl, hanswer, hverify⟩

theorem says_send {judge : UInt16 → Attempt Unit} {change : OathSession → OathSession}
    (hjudge : ∀ sw, judge sw = .ok () → sw = 0x9000) {r : Attempt Unit}
    (h : Says (send apdu judge change m) log (r, n)) :
    (∀ e, r = .error e → n = m) ∧ (r = .ok () → n = change m ∧ ∃ data,
      Says (transmitApplet (Applet.oath (moreData m.selectInfo)).io apdu) log
        (.ok (data, 0x9000))) := by
  rcases says_andThen.mp h with ⟨e, rfl, hsend⟩ | ⟨first, ⟨data, sw⟩, n', rest, rfl, hsend, hrest⟩
  · obtain ⟨-, -, -, rfl⟩ := says_transmitFull.mp hsend
    exact ⟨fun _ _ => rfl, nofun⟩
  · obtain ⟨answer, hanswer, hmap, rfl⟩ := says_transmitFull.mp hsend
    rcases hj : judge sw with e | u
    · simp only [hj] at hrest
      obtain ⟨-, rfl, rfl⟩ := says_pure.mp hrest
      exact ⟨fun _ _ => rfl, nofun⟩
    · simp only [hj] at hrest
      rw [says_modify_bind] at hrest
      obtain ⟨rfl, rfl, rfl⟩ := says_pure.mp hrest
      obtain rfl := hjudge sw hj
      rcases answer with e | answer
      · cases hmap
      · cases hmap
        rw [List.append_nil]
        exact ⟨nofun, fun _ => ⟨rfl, data, hanswer⟩⟩

/-- `select` changes nothing but what is known of the applet. -/
theorem says_select {r : Attempt Unit} (h : Says (select m) log (r, n)) :
    n.accessKey = m.accessKey := by
  rcases says_andThen.mp h with ⟨e, rfl, hsend⟩ | ⟨first, ⟨data, sw⟩, n', rest, rfl, hsend, hrest⟩
  · obtain ⟨-, -, -, rfl⟩ := says_transmitFull.mp hsend
    rfl
  · obtain ⟨-, -, -, rfl⟩ := says_transmitFull.mp hsend
    rcases hok : okOrApdu "select oath applet" sw with e | u
    · simp only [hok] at hrest
      obtain ⟨-, -, rfl⟩ := says_pure.mp hrest
      rfl
    · rcases hparse : parseSelect data with e | info
      · simp only [hok, hparse] at hrest
        obtain ⟨-, -, rfl⟩ := says_pure.mp hrest
        rfl
      · simp only [hok, hparse] at hrest
        rw [says_modify_bind] at hrest
        obtain ⟨-, -, rfl⟩ := says_pure.mp hrest
        rfl

theorem says_reauthenticate {r : Attempt Bool}
    (h : Says (reauthenticate random m) log (r, n)) :
    n.accessKey = m.accessKey ∧ (r = .ok true → ∃ key, m.accessKey = some key ∧
      (n.selectInfo.passwordRequired = true →
        ∃ before part, log = before ++ part ∧ Proves random part key)) := by
  unfold reauthenticate at h
  rw [says_get_bind] at h
  rcases hkey : m.accessKey with _ | key
  · simp only [hkey] at h
    obtain ⟨-, rfl, rfl⟩ := says_pure.mp h
    exact ⟨hkey, nofun⟩
  · simp only [hkey] at h
    rcases says_andThen.mp h with ⟨e, rfl, hselect⟩ | ⟨first, u, n', rest, rfl, hselect, hrest⟩
    · exact ⟨(says_select hselect).trans hkey, nofun⟩
    · have hkept := (says_select hselect).trans hkey
      rw [says_get_bind] at hrest
      rcases hchallenge : n'.selectInfo.challenge with _ | cardChallenge
      · simp only [hchallenge, Option.isNone_none, if_true] at hrest
        obtain ⟨-, -, rfl⟩ := says_pure.mp hrest
        refine ⟨hkept, fun _ => ⟨key, rfl, fun hrequired => ?_⟩⟩
        rw [SelectInfo.passwordRequired, hchallenge] at hrequired
        cases hrequired
      · simp only [hchallenge, Option.isNone_some, Bool.false_eq_true, if_false] at hrest
        rcases says_andThen.mp hrest with
          ⟨e, rfl, hvalidate⟩ | ⟨part, u, n'', last, rfl, hvalidate, hlast⟩
        · obtain ⟨rfl, -⟩ := says_validateWith hvalidate
          exact ⟨hkept, nofun⟩
        · obtain ⟨rfl, hproves⟩ := says_validateWith hvalidate
          obtain ⟨rfl, -, rfl⟩ := says_pure.mp hlast
          refine ⟨hkept, fun _ => ⟨key, rfl, fun _ => ⟨first, part, ?_, hproves rfl ?_⟩⟩⟩
          · rw [List.append_nil]
          · rw [hchallenge]
            rfl

/-- The card vouched for the key in an exchange of the call. -/
def Vouches (call : Call) (log : List (Asked CardAnswer)) (key : AccessKey) : Prop :=
  Proves call.random log key ∨ Installs log key

/-- What a call does to the kept key: nothing, unless it succeeds. -/
theorem Call.says_key {call : Call} {r : Attempt Unit}
    (h : Says (call.perform m) log (r, n)) :
    n.accessKey = m.accessKey ∨ r = .ok () ∧ ∀ key, n.accessKey = some key →
      Vouches call log key := by
  cases haccess : call.access with
  | false => exact .inl (congrArg accessKey ((Call.quiet haccess).unchanged h))
  | true =>
      cases call with
      | unlock random password =>
          change Says (OathSession.unlock random password m) log (r, n) at h
          unfold OathSession.unlock at h
          rw [says_get_bind] at h
          rcases hchallenge : m.selectInfo.challenge with _ | cardChallenge
          · simp only [hchallenge, Option.isNone_none, if_true] at h
            obtain ⟨-, -, rfl⟩ := says_pure.mp h
            exact .inl rfl
          · simp only [hchallenge, Option.isNone_some, Bool.false_eq_true, if_false] at h
            rcases says_andThen.mp h with
              ⟨e, rfl, hvalidate⟩ | ⟨part, u, n', rest, rfl, hvalidate, hrest⟩
            · obtain ⟨rfl, -⟩ := says_validateWith hvalidate
              exact .inl rfl
            · obtain ⟨rfl, hproves⟩ := says_validateWith hvalidate
              rw [says_modify_bind] at hrest
              obtain ⟨rfl, rfl, rfl⟩ := says_pure.mp hrest
              refine .inr ⟨rfl, fun key hkey => .inl ?_⟩
              have hsame := Option.some.inj hkey
              subst hsame
              rw [List.append_nil]
              refine hproves rfl ?_
              rw [hchallenge]
              rfl
      | reauthenticate random =>
          rcases says_andThen.mp h with ⟨e, rfl, hrun⟩ | ⟨first, b, n', rest, rfl, hrun, hrest⟩
          · exact .inl (says_reauthenticate hrun).1
          · obtain ⟨-, -, rfl⟩ := says_pure.mp hrest
            exact .inl (says_reauthenticate hrun).1
      | setPassword random password =>
          change Says (OathSession.setPassword random password m) log (r, n) at h
          unfold OathSession.setPassword at h
          rw [says_get_bind] at h
          rcases random with _ | challenge
          · obtain ⟨-, -, rfl⟩ := says_pure.mp h
            exact .inl rfl
          · obtain ⟨herror, hok⟩ := says_send (fun _ => okOrApdu_eq_ok.mp) h
            rcases r with e | u
            · exact .inl (congrArg accessKey (herror e rfl))
            · obtain ⟨rfl, data, hsend⟩ := hok rfl
              refine .inr ⟨rfl, fun key hkey => .inr ?_⟩
              have hsame := Option.some.inj hkey
              subst hsame
              exact ⟨_, _, data, hsend⟩
      | clearPassword =>
          obtain ⟨herror, hok⟩ := says_send (fun _ => okOrApdu_eq_ok.mp) h
          rcases r with e | u
          · exact .inl (congrArg accessKey (herror e rfl))
          · obtain ⟨rfl, -⟩ := hok rfl
            exact .inr ⟨rfl, nofun⟩
      | factoryReset =>
          change Says (OathSession.factoryReset m) log (r, n) at h
          unfold OathSession.factoryReset at h
          rw [says_get_bind] at h
          obtain ⟨herror, hok⟩ := says_send (fun _ => writeAnswer_eq_ok) h
          rcases r with e | u
          · exact .inl (congrArg accessKey (herror e rfl))
          · obtain ⟨rfl, -⟩ := hok rfl
            exact .inr ⟨rfl, nofun⟩
      | _ => cases haccess

theorem says_performAll {calls : List Call} {results : List (Attempt Unit)}
    (h : Says (performAll calls m) log (results, n)) :
    ∀ key, n.accessKey = some key → m.accessKey = some key ∨
      ∃ call ∈ calls, ∃ before part after, log = before ++ part ++ after ∧
        Vouches call part key := by
  induction calls generalizing m log results with
  | nil =>
      obtain ⟨-, -, rfl⟩ := says_pure.mp h
      exact fun key hkey => .inl hkey
  | cons call calls ih =>
      obtain ⟨first, r, n', rest, rfl, hcall, hrest⟩ := says_bind.mp h
      obtain ⟨later, results', n'', last, rfl, hcalls, hpure⟩ := says_bind.mp hrest
      obtain ⟨rfl, -, rfl⟩ := says_pure.mp hpure
      intro key hkey
      rw [List.append_nil]
      rcases ih hcalls key hkey with hbefore | ⟨call', hmem, before, part, after, rfl, hvouch⟩
      · rcases Call.says_key hcall with hsame | ⟨-, hvouch⟩
        · exact .inl (hsame.symm.trans hbefore)
        · exact .inr ⟨call, List.mem_cons_self, [], first, later, rfl, hvouch key hbefore⟩
      · refine .inr ⟨call', List.mem_cons_of_mem _ hmem, first ++ before, part, after, ?_, hvouch⟩
        simp only [List.append_assoc]

/-- **A kept key was vouched for.** Whatever a card answers, a session that began without a key
and made any calls keeps one only when the card proved it in a VALIDATE, with the HMAC of a
challenge that the host drew for that call, or took it in a SET CODE; and `reauthenticate`
reports the applet unlocked only when its key was proved anew or the applet has no password. -/
theorem kept_key_was_vouched_for {calls : List Call} {results : List (Attempt Unit)}
    (hfresh : m.accessKey = none) (h : Says (performAll calls m) log (results, n)) :
    (∀ key, n.accessKey = some key → ∃ call ∈ calls, ∃ before part after,
      log = before ++ part ++ after ∧ Vouches call part key) ∧
    ∀ again last k, Says (reauthenticate again n) last (.ok true, k) →
      ∃ key, n.accessKey = some key ∧ (k.selectInfo.passwordRequired = true →
        ∃ before part, last = before ++ part ∧ Proves again part key) := by
  refine ⟨fun key hkey => ?_, fun again last k hagain => (says_reauthenticate hagain).2 rfl⟩
  rcases says_performAll h key hkey with hbefore | hvouch
  · rw [hfresh] at hbefore
    cases hbefore
  · exact hvouch

end Vouched

/-! ### A session that unlocks, and unlocks again -/

def zeroChallenge : HostChallenge := ⟨List.replicate 8 0, rfl⟩

/-- A command that the card answers at once. -/
theorem says_transmitFull_taken {m : OathSession} {apdu data : List UInt8}
    (hfits : data.length + 2 ≤ RECV_BUFFER) :
    Says (transmitFull apdu m) [⟨apdu, .ok (data ++ [0x90, 0x00])⟩] (.ok (data, 0x9000), m) := by
  refine says_transmitFull.mpr ⟨.ok (data, 0x9000), ?_, rfl, rfl⟩
  rw [transmitApplet, MAX_RESPONSE_CHUNKS, transmitLoop]
  refine Says.ask _ ?_
  have hreceived : received (.ok (data ++ [0x90, 0x00])) = .ok (data ++ [0x90, 0x00]) :=
    received_of_le (by rw [List.length_append]; exact hfits)
  have hmore := (Applet.oath (moreData m.selectInfo)).moreDataSw_eq
  simp only [hreceived, splitSw_append, advanceExchange, classifySw, hmore]
  exact Says.done

theorem says_send_taken {m : OathSession} {apdu : List UInt8} {judge : UInt16 → Attempt Unit}
    {change : OathSession → OathSession} (hjudge : judge 0x9000 = .ok ()) :
    Says (send apdu judge change m) [⟨apdu, .ok [0x90, 0x00]⟩] (.ok (), change m) := by
  refine says_andThen.mpr (.inr ⟨_, ([], 0x9000), m, [], (List.append_nil _).symm,
    says_transmitFull_taken (show ([] : List UInt8).length + 2 ≤ RECV_BUFFER by decide), ?_⟩)
  simp only [hjudge]
  exact Says.done

/-- The applet's proof that it holds the key. -/
def proof (key host : List UInt8) : List UInt8 := pushTlv RESPONSE (respond key host)

theorem verifyValidate_proof (key host : List UInt8) :
    verifyValidate key host (proof key host) = .ok true := by
  have hlen : (respond key host).length < 256 := by
    rw [respond, length_hmacSha1]
    decide
  refine verifyValidate_eq_true.mpr ⟨[⟨RESPONSE, respond key host, hlen⟩], ?_, ?_⟩
  · rw [← parseTlvs_frames, frames, List.flatMap_cons, List.flatMap_nil, List.append_nil]
    rfl
  · have hfirst : List.find? (fun t : Tlv => t.tag = RESPONSE)
        [⟨RESPONSE, respond key host, hlen⟩] = some ⟨RESPONSE, respond key host, hlen⟩ :=
      List.find?_cons_of_pos (decide_eq_true rfl)
    rw [findTag, hfirst]
    rfl

theorem judgeValidate_proof (key : AccessKey) (host : HostChallenge) :
    judgeValidate key host (proof key.val host.val) 0x9000 = .ok () := by
  have hok : okOrApdu "oath validate" 0x9000 = .ok () := if_pos rfl
  have hproved := verifyValidate_proof key.val host.val
  rw [judgeValidate, if_neg (by decide), hok]
  generalize verifyValidate key.val host.val (proof key.val host.val) = verdict at hproved ⊢
  rw [hproved]

theorem length_proof (key host : List UInt8) : (proof key host).length + 2 ≤ RECV_BUFFER := by
  rw [proof, pushTlv, List.length_cons, List.length_cons, respond, length_hmacSha1]
  decide

/-- A VALIDATE that the applet answers with its proof. -/
theorem says_validateWith_taken {m : OathSession} {key : AccessKey} {host : HostChallenge}
    {challenge : List UInt8} (hchallenge : m.selectInfo.challenge = some challenge) :
    Says (validateWith (some host) key m)
      [⟨Oath.validate key.val challenge host.val, .ok (proof key.val host.val ++ [0x90, 0x00])⟩]
      (.ok (), m) := by
  unfold validateWith
  rw [says_get_bind]
  simp only [hchallenge]
  refine says_andThen.mpr (.inr ⟨_, (proof key.val host.val, 0x9000), m, [],
    (List.append_nil _).symm, says_transmitFull_taken (length_proof _ _), ?_⟩)
  dsimp only
  rw [judgeValidate_proof]
  exact Says.done

/-- What SELECT says of an applet with the device id `AB` and a password. -/
def lockedAnswer : List UInt8 := [0x71, 0x01, 0xAB, 0x74, 0x02, 0x01, 0x02]

def lockedInfo : SelectInfo :=
  { SelectInfo.default with deviceId := [0xAB], challenge := some [0x01, 0x02] }

def lockedSession : OathSession := { selectInfo := lockedInfo, accessKey := none }

/-- The key of the password `p` on that applet. -/
def keyOfP : AccessKey := deriveAccessKey ['p'] [0xAB]

def unlockedSession : OathSession := { lockedSession with accessKey := some keyOfP }

/-- The session is unlocked, and its key is replaced by that of the password `q`. -/
def unlockThenChange : List Call :=
  [.unlock (some zeroChallenge) ['p'], .setPassword (some zeroChallenge) ['q']]

/-- The key of the password `q` on that applet. -/
def keyOfQ : AccessKey := deriveAccessKey ['q'] [0xAB]

def changedSession : OathSession :=
  { selectInfo := { lockedInfo with challenge := some zeroChallenge.val },
    accessKey := some keyOfQ }

def unlockLine : Asked CardAnswer :=
  ⟨Oath.validate keyOfP.val [0x01, 0x02] zeroChallenge.val,
    .ok (proof keyOfP.val zeroChallenge.val ++ [0x90, 0x00])⟩

def changeLine : Asked CardAnswer := ⟨setCode keyOfQ.val zeroChallenge.val, .ok [0x90, 0x00]⟩

theorem says_unlockThenChange : Says (performAll unlockThenChange lockedSession)
    [unlockLine, changeLine] ([.ok (), .ok ()], changedSession) := by
  have hunlock : Says ((Call.unlock (some zeroChallenge) ['p']).perform lockedSession)
      [unlockLine] (.ok (), unlockedSession) :=
    says_andThen.mpr (.inr ⟨_, (), lockedSession, [], (List.append_nil _).symm,
      says_validateWith_taken rfl, Says.done⟩)
  have hchange : Says ((Call.setPassword (some zeroChallenge) ['q']).perform unlockedSession)
      [changeLine] (.ok (), changedSession) := says_send_taken rfl
  have hrest : Says (performAll [.setPassword (some zeroChallenge) ['q']] unlockedSession)
      [changeLine] ([.ok ()], changedSession) :=
    says_bind.mpr ⟨_, _, _, [], (List.append_nil _).symm, hchange, Says.done⟩
  exact says_bind.mpr ⟨[unlockLine], _, _, [changeLine], rfl, hunlock,
    says_bind.mpr ⟨_, _, _, [], (List.append_nil _).symm, hrest, Says.done⟩⟩

/-- The applet is selected anew, poses its challenge and proves the new key. -/
def againLines : List (Asked CardAnswer) :=
  [⟨Oath.select, .ok (lockedAnswer ++ [0x90, 0x00])⟩,
    ⟨Oath.validate keyOfQ.val [0x01, 0x02] zeroChallenge.val,
      .ok (proof keyOfQ.val zeroChallenge.val ++ [0x90, 0x00])⟩]

theorem parseSelect_lockedAnswer : parseSelect lockedAnswer = .ok lockedInfo := by
  have hframes : lockedAnswer =
      frames [⟨Tag.name.code, [0xAB], by decide⟩, ⟨CHALLENGE, [0x01, 0x02], by decide⟩] := rfl
  rw [parseSelect, hframes, parseTlvs_frames]
  rfl

theorem says_again : Says (reauthenticate (some zeroChallenge) changedSession) againLines
    (.ok true, { lockedSession with accessKey := some keyOfQ }) := by
  have hselect : Says (select changedSession) [⟨Oath.select, .ok (lockedAnswer ++ [0x90, 0x00])⟩]
      (.ok (), { lockedSession with accessKey := some keyOfQ }) := by
    have hok : okOrApdu "select oath applet" 0x9000 = .ok () := rfl
    refine says_andThen.mpr (.inr ⟨_, (lockedAnswer, 0x9000), changedSession, [],
      (List.append_nil _).symm, says_transmitFull_taken (by decide), ?_⟩)
    simp only [hok, parseSelect_lockedAnswer]
    exact Says.done
  refine says_andThen.mpr (.inr ⟨_, (), _, _, rfl, hselect, ?_⟩)
  exact says_andThen.mpr (.inr ⟨_, (), _, [], (List.append_nil _).symm,
    says_validateWith_taken rfl, Says.done⟩)

/-- A session that is unlocked, changes the password and unlocks itself again. -/
theorem kept_key_was_vouched_for_setPassword :
    (∃ call ∈ unlockThenChange, ∃ before part after,
      [unlockLine, changeLine] = before ++ part ++ after ∧ Vouches call part keyOfQ) ∧
    ∃ key, changedSession.accessKey = some key ∧ (lockedInfo.passwordRequired = true →
      ∃ before part, againLines = before ++ part ∧ Proves (some zeroChallenge) part key) :=
  have hboth := kept_key_was_vouched_for rfl says_unlockThenChange
  ⟨hboth.1 keyOfQ rfl, hboth.2 _ againLines _ says_again⟩

end OathSession

end Keyroost.Transport
