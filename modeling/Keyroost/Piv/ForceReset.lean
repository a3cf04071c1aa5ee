import Keyroost.Library.Dialogue
import Keyroost.Piv.Commands
import Keyroost.Piv.StatusWord

/-!
# The PIV factory reset of a card whose PIN and PUK are unknown

A bare RESET first. Only where the card refuses it for its precondition are wrong guesses spent: on
the PIN, then, if RESET is refused once more, on the PUK. The card's answers, the session's own
reads and the random numbers are the environment's. Modelled from `keyroost-transport/src/piv.rs`.

The two guessing loops are one definition, `blockCredential`, with the command, the cap and the
verdict on an accepted guess as parameters, as in the source. A guess that would repeat the last one
has its last digit changed, and the loop ends at a report that the credential is blocked, at its
cap, or at any answer that is no refusal. The stages are separate functions, so that what each of
them may send can be stated on its own.
-/

namespace Keyroost.Piv

open Transport Dialogue

/-! ### The environment -/

def GUESS_LEN : Nat := 8

/-- What `getrandom` fills in for one guess. -/
structure Entropy where
  bytes : List UInt8
  size : bytes.length = GUESS_LEN
deriving DecidableEq, Repr

/-- What the reset asks for: an APDU through `transmit_full`, a read of the session (its
quirk, its reported management key algorithm, its re-selection, its status, a PIN reference's
metadata), or random bytes. -/
inductive ResetAsk where
  | transmit (apdu : List UInt8)
  | resetFailsIfManagementKeyIsAes
  | reportedManagementKeyAlgorithm
  | refresh
  | status
  | metadata (keyRef : UInt8)
  | getrandom
deriving DecidableEq, Repr

/-- Of a status only the PIN's remaining tries are used, of metadata only the retries. -/
@[reducible] def ResetAnswer : ResetAsk → Type
  | .transmit _ => Except LinkError (List UInt8 × UInt16)
  | .resetFailsIfManagementKeyIsAes => Bool
  | .reportedManagementKeyAlgorithm => Option MgmtAlg
  | .refresh => Except LinkError Unit
  | .status => Except LinkError (Option UInt8)
  | .metadata _ => Option (Option (UInt8 × UInt8))
  | .getrandom => Option Entropy

abbrev ResetTalk : Type → Type := Dialogue ResetAnswer

/-! ### Guesses -/

/-- How many wrong guesses are made to block a PIN or PUK. -/
def blockAttemptsCap (reported : Option UInt8) : Nat :=
  min ((reported.map UInt8.toNat).getD 10) 20 + 2

def credentialGuessFrom (raw : Entropy) (previous : Option (List UInt8)) : List UInt8 :=
  let guess := raw.bytes.map fun byte => 0x30 + byte % 10
  if previous = some guess then
    let last := GUESS_LEN - 1
    guess.set last (0x30 + (guess.getD last 0 - 0x30 + 1) % 10)
  else guess

def randomCredentialGuess (previous : Option (List UInt8)) : ResetTalk (Tried (List UInt8)) :=
  .ask .getrandom fun filled =>
    match filled with
    | none => .done (.error .hostRngFailed)
    | some raw => .done (.ok (credentialGuessFrom raw previous))

/-! ### The commands -/

def pinResult (answer : Except LinkError (List UInt8 × UInt16)) : Tried Unit :=
  match answer with
  | .error e => .error e.toTransport
  | .ok (_, sw) => mapPinSw sw

/-- Send a command with a PIN or PUK and read its status word. -/
def presentPin (apdu : Except PinLengthError (List UInt8)) : ResetTalk (Tried Unit) :=
  match apdu with
  | .error _ => .done (.error .pivBadPinLength)
  | .ok apdu => .ask (.transmit apdu) fun answer => .done (pinResult answer)

/-- `PivSession::verify_pin`. -/
def sessionVerifyPin (pin : List UInt8) : ResetTalk (Tried Unit) := presentPin (verifyPin pin)

/-- `PivSession::unblock_pin`. -/
def sessionUnblockPin (puk newPin : List UInt8) : ResetTalk (Tried Unit) :=
  presentPin (unblockPin puk newPin)

/-- The guard in front of RESET: an applet whose RESET fails over an AES management key. -/
def checkManagementKey : ResetTalk (Tried Unit) :=
  .ask .resetFailsIfManagementKeyIsAes fun quirky =>
    if quirky then
      .ask .reportedManagementKeyAlgorithm fun alg =>
        match alg with
        | some .tripleDes | none => .done (.ok ())
        | some alg => .done (.error (.pivResetManagementKeyMustBe3Des alg))
    else .done (.ok ())

def RESET_LABEL : String := "piv reset"

/-- The three refusals of RESET for its precondition. -/
def resetRefused (sw : UInt16) : Bool :=
  sw == SW_AUTH_BLOCKED || sw == SW_CONDITIONS_NOT_SATISFIED || sw == SW_SECURITY_NOT_SATISFIED

/-- The RESET command itself. A re-selection that fails afterwards is not reported. -/
def sendReset : ResetTalk (Tried Unit) :=
  .ask (.transmit reset) fun answer =>
    match answer with
    | .error e => .done (.error e.toTransport)
    | .ok (_, sw) =>
        if resetRefused sw then .done (.error .pivResetNotAllowed)
        else
          match okOrWrite RESET_LABEL sw with
          | .error e => .done (.error e)
          | .ok () => .ask .refresh fun _ => .done (.ok ())

/-- `PivSession::reset`. -/
def sessionReset : ResetTalk (Tried Unit) := checkManagementKey.andThen fun _ => sendReset

/-! ### The stages -/

inductive FactoryResetOutcome where
  | wiped
  | wipedGlobal
  | wipedKeyRestoreFailed
deriving DecidableEq, Repr

/-- Guess until the card reports the credential blocked (`true`) or the attempts are used
up. `accepted` is the error of a guess that turns out right, if that ends the loop. -/
def blockCredential (present : List UInt8 → ResetTalk (Tried Unit))
    (accepted : Option TransportError) :
    Nat → Option (List UInt8) → ResetTalk (Tried Bool)
  | 0, _ => .done (.ok false)
  | attempts + 1, previous =>
      (randomCredentialGuess previous).andThen fun guess => do
        match ← present guess with
        | .ok () =>
            match accepted with
            | some e => return .error e
            | none => blockCredential present accepted attempts (some guess)
        | .error (.pivPinRejected (some 0)) => return .ok true
        | .error (.pivPinRejected _) => blockCredential present accepted attempts (some guess)
        | .error e => return .error e

def RECOVERY_PIN : List UInt8 := [0x31, 0x32, 0x33, 0x34, 0x35, 0x36]

def blockPin : Nat → ResetTalk (Tried Bool) :=
  fun attempts => blockCredential sessionVerifyPin none attempts none

def blockPuk : Nat → ResetTalk (Tried Bool) :=
  fun attempts => blockCredential (sessionUnblockPin · RECOVERY_PIN)
    (some .pivPukGuessAccepted) attempts none

def PIN_NOT_BLOCKED : String :=
  "the PIV PIN would not report itself blocked within the attempt cap, so the card was NOT " ++
  "wiped — its keys and certificates are still there and its PIN retry counter has been " ++
  "spent down. Re-run the factory reset to finish."

def PUK_NOT_BLOCKED : String :=
  "the PIV PUK would not report itself blocked within the attempt cap. The PIN is now " ++
  "blocked but the card was NOT wiped — re-run the factory reset to finish, or unblock the " ++
  "PIN with the PUK if you know it."

def RESET_REFUSED_FOR_GOOD : String :=
  "the PIN and the PUK are now both blocked, but the card refused the RESET instruction, so " ++
  "the PIV applet was NOT wiped. Its keys and certificates are still on the card and there " ++
  "is no keyroost command that can finish this — `keyroostctl piv reset` sends the very " ++
  "instruction the card just refused. The PIV part of the card is unusable until whoever " ++
  "issued or made it resets it with their own tooling. Any non-PIV applets on the same key " ++
  "(FIDO, OATH, OpenPGP) are unaffected."

def mapResetStageError (e : TransportError) : TransportError :=
  match e with
  | .pivResetNotAllowed => .pivResetIncomplete RESET_REFUSED_FOR_GOOD
  | .apdu label sw1 sw2 =>
      if label = RESET_LABEL ∧ (sw1 = 0x6D ∧ sw2 = 0x00 ∨ sw1 = 0x6A ∧ sw2 = 0x81) then
        .pivResetIncomplete RESET_REFUSED_FOR_GOOD
      else e
  | _ => e

/-- A RESET that ends the procedure unless the card refuses it for its precondition. -/
def resetOr (next : ResetTalk (Tried FactoryResetOutcome)) :
    ResetTalk (Tried FactoryResetOutcome) := do
  match ← sessionReset with
  | .ok () => return .ok .wiped
  | .error .pivResetNotAllowed => next
  | .error e => return .error e

/-- Both counters are spent: the last RESET. -/
def lastReset : ResetTalk (Tried FactoryResetOutcome) := do
  match ← sessionReset with
  | .ok () => return .ok .wiped
  | .error e => return .error (mapResetStageError e)

def pukStage : ResetTalk (Tried FactoryResetOutcome) :=
  .ask (.metadata PIN_REF_PUK) fun md =>
    let pukTries := (md.bind fun retries => retries).map Prod.fst
    (blockPuk (blockAttemptsCap pukTries)).andThen fun pukBlocked =>
      if pukBlocked then lastReset
      else .done (.error (.pivResetIncomplete PUK_NOT_BLOCKED))

def pinStage : ResetTalk (Tried FactoryResetOutcome) :=
  .ask .status fun status =>
    match status with
    | .error e => .done (.error e.toTransport)
    | .ok pinRetries =>
        (blockPin (blockAttemptsCap pinRetries)).andThen fun blocked =>
          if blocked then resetOr pukStage
          else .done (.error (.pivResetIncomplete PIN_NOT_BLOCKED))

/-- `PivSession::force_reset`. -/
def forceReset : ResetTalk (Tried FactoryResetOutcome) := resetOr pinStage

end Keyroost.Piv
