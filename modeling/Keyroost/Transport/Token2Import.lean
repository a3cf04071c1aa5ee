import Keyroost.Import.Run
import Keyroost.Token2Otp.PinSession

/-!
# Writing an import to a Token2 OTP key

One command is sent, and when the key has closed its window the PIN is verified again and the
command sent once more, if the PIN has worked before. Modelled from
`keyroost-transport/src/import.rs`, over the sessions of `PinSession`.

What the key answered is judged by its status word (`token2Classify`), and an entry is turned into
what the key stores with the checks of the source, whose refusals are reported before anything is
sent. The store remembers whether the PIN of the import has worked (`proven`); what sets that is the
subject of `Token2PinAttempts`.
-/

namespace Keyroost.Transport

open Keyroost.Import Keyroost.Token2Otp Session

/-! ### What the key said -/

inductive Token2Answer where
  | ok
  | full
  | pinWindow
  | pinBlocked
  | other (sw : UInt16)
deriving DecidableEq, Repr

def token2Answer (sw : UInt16) : Token2Answer :=
  if sw = Sw.OK then .ok
  else if sw = Sw.NOT_ENOUGH_SPACE then .full
  else if sw = Sw.PIN_INVALID ∨ sw = Sw.PIN_CONDITIONS_NOT_SATISFIED then .pinWindow
  else if sw = Sw.PIN_LOCKED then .pinBlocked
  else .other sw

section Store

variable (crypto : OtpCrypto) (pcscText : PcscError → RustStr)

def token2Classify (r : Token2Otp.Tried Unit) : Except StoreError Token2Answer :=
  match r with
  | .ok () => .ok .ok
  | .error (.applet e) => .ok (token2Answer e.statusWord)
  | .error .pinRequired => .ok .pinWindow
  | .error other => .error (.failed (other.display pcscText))

def TOKEN2_PIN_BLOCKED : RustStr := "the key's OTP PIN is blocked".toList

def TOKEN2_PIN_WINDOW_CLOSED : RustStr :=
  "the key closed its OTP PIN window; nothing more was ".toList ++
    "sent, so no PIN attempt was used. Run the import again.".toList

/-- The text of a PIN that the write itself had refused. -/
def refusedByWrite (proven : Bool) (pin : Option RustStr) : Token2Otp.Tried Unit → Option RustStr
  | .error (.applet .pinInvalid) =>
      if !proven && pin.isSome then some OtpError.pinInvalid.display else none
  | .error (.applet (.pinInvalidRetries n)) => some (OtpError.pinInvalidRetries n).display
  | _ => none

/-- The report on a verify that failed. -/
def verifyFailed (e : OtpTransportError) : StoreError :=
  match e with
  | .applet a =>
      if token2Answer a.statusWord = .pinBlocked then .failed TOKEN2_PIN_BLOCKED
      else .failed (e.display pcscText)
  | _ => .failed (e.display pcscText)

/-- The report on the answer that is final. -/
def token2Report : Token2Answer → Except StoreError Unit
  | .ok => .ok ()
  | .full => .error .full
  | .pinWindow => .error (.failed "the key asked for its OTP PIN again and refused it".toList)
  | .pinBlocked => .error (.failed TOKEN2_PIN_BLOCKED)
  | .other sw => .error (.failed ("the key refused it (status ".toList ++ hex4 sw ++ [')']))

/-- The answer to a closed window: the PIN again, if it is proven, and the command once more. -/
def token2Reopen (pin : Option RustStr) (proven : Bool)
    (send : OtpTalk crypto (Token2Otp.Tried Unit)) : OtpTalk crypto (Except StoreError Token2Answer) :=
  match pin with
  | none => return .error (.failed "the key asks for its OTP PIN".toList)
  | some p =>
      if !proven then return .error (.failed TOKEN2_PIN_WINDOW_CLOSED)
      else do
        match ← verifyPin crypto true p with
        | .error e => return .error (verifyFailed pcscText e)
        | .ok () => return token2Classify pcscText (← send)

/-- The final answer to a command, after a closed window was opened again. -/
def token2Settle (pin : Option RustStr) (proven : Bool)
    (send : OtpTalk crypto (Token2Otp.Tried Unit)) (first : Token2Otp.Tried Unit) : OtpTalk crypto (Except StoreError Token2Answer) :=
  match token2Classify pcscText first with
  | .ok .pinWindow => token2Reopen crypto pcscText pin proven send
  | answer => pure answer

/-- What is reported of the final answer. A command that went through proves the PIN. -/
def token2Finish (pin : Option RustStr) (proven : Bool) :
    Except StoreError Token2Answer → Except StoreError Unit × Bool
  | .error e => (.error e, proven)
  | .ok a => (token2Report a, proven || (decide (a = .ok) && pin.isSome))

/-- Sends one command. The flag says that the PIN is proven, before and afterwards. -/
def token2WithPin (pin : Option RustStr) (proven : Bool)
    (send : OtpTalk crypto (Token2Otp.Tried Unit)) :
    OtpTalk crypto (Except StoreError Unit × Bool) := do
  let first ← send
  match refusedByWrite proven pin first with
  | some text => return (.error (.failed text), proven)
  | none => return token2Finish pin proven (← token2Settle crypto pcscText pin proven send first)

/-! ### The store -/

def token2StoredName : StoredName → Except StoreError (RustStr × RustStr)
  | .token2 app account => .ok (app, account)
  | _ => .error (.failed "this entry has no Token2 name to store it under".toList)

def token2Algorithm : HashAlg → Except StoreError Token2Otp.Algorithm
  | .sha1 => .ok .sha1
  | .sha256 => .ok .sha256
  | .sha512 => .error (.failed "this Token2 key doesn't take SHA-512 codes".toList)

/-- The type of code and the time step, which a counter-based code has as well. -/
def token2Kind : OtpKind → Except StoreError (OtpType × UInt16)
  | .totp period =>
      if period.toNat < 2 ^ 16 then .ok (.totp, period.toUInt16)
      else .error (.failed ("this Token2 key doesn't take a ".toList ++
        RustStr.decimal period.toNat ++ " s period".toList))
  | .hotp _ => .ok (.hotp, 30)

def token2WriteEntry (app account : RustStr) (entry : ImportEntry) (touch : Bool) :
    Except StoreError WriteEntry := do
  let algorithm ← token2Algorithm entry.hash
  let (otpType, timestep) ← token2Kind entry.kind
  return {
    otpType, algorithm, timestep
    codeLength := entry.digits
    buttonRequired := touch
    appName := app
    accountName := account
    seed := entry.secret.val }

def token2Entry (name : StoredName) (entry : ImportEntry) (touch : Bool) :
    Except StoreError WriteEntry := do
  let (app, account) ← token2StoredName name
  token2WriteEntry app account entry touch

def token2Add (pin : Option RustStr) (proven : Bool) (name : StoredName) (entry : ImportEntry)
    (touch : Bool) : OtpTalk crypto (Except StoreError Unit × Bool) :=
  match token2Entry name entry touch with
  | .error e => return (.error e, proven)
  | .ok w => token2WithPin crypto pcscText pin proven (writeEntryPinned crypto w pin)

def token2Delete (pin : Option RustStr) (proven : Bool) (name : StoredName) :
    OtpTalk crypto (Except StoreError Unit × Bool) :=
  match token2StoredName name with
  | .error e => return (.error e, proven)
  | .ok (app, account) =>
      token2WithPin crypto pcscText pin proven (deleteEntryPinned crypto app account pin)

/-- What an import keeps between its commands: the session, whether the PIN is proven, and the
key with the conversation so far. -/
structure Token2ImportStore (Keys Key : Type) where
  session : OtpSession Keys
  pinProven : Bool
  key : Key
  log : List (Dialogue.Asked OtpAnswer)

/-- A PIN typed on this session counts as proven. -/
def Token2ImportStore.new {Keys Key : Type} (session : OtpSession Keys) (pin : Option RustStr)
    (key : Key) : Token2ImportStore Keys Key where
  session := session
  pinProven := pin.isSome && session.typedPinVerified
  key := key
  log := []

variable {Key : Type} (machine : Dialogue.Machine OtpAnswer Key) (pin : Option RustStr)

/-- One command of the store. -/
def served (store : Token2ImportStore crypto.SessionKeys Key)
    (command : OtpTalk crypto (Except StoreError Unit × Bool)) :
    Except StoreError Unit × Token2ImportStore crypto.SessionKeys Key :=
  let (((answer, pinProven), session), key, log) :=
    (command store.session).serve machine store.key store.log
  (answer, { session, pinProven, key, log })

def token2Store : CodeStore (Token2ImportStore crypto.SessionKeys Key) where
  add store name entry touch :=
    served crypto machine store (token2Add crypto pcscText pin store.pinProven name entry touch)
  delete store name :=
    served crypto machine store (token2Delete crypto pcscText pin store.pinProven name)

end Store

end Keyroost.Transport
