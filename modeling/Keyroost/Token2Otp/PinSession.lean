import Keyroost.Library.Session
import Keyroost.Token2Otp.Error

/-!
# Sessions with a PIN

A session agrees on keys with the OTP applet, verifies the PIN with them and writes entries. Once
the PIN was verified the key's window is taken to be open. Modelled from
`keyroost-transport/src/token2otp.rs`, with the commands of `keyroost-token2otp/src/lib.rs`.

The key agreement and the ciphers are a parameter (`OtpCrypto`). A session keeps its keys, whether
the PIN was verified, and what it has read of the key's flags; one without keys makes new ones
before it verifies or seals anything (`ensureSession`). `pinned` is the pattern that the writes of
an import share: verify if the window may be closed, then write.
-/

namespace Keyroost.Token2Otp

open Session

/-! ### The PIN flag -/

structure PinFlag where
  algId : UInt8
  retriesLeft : UInt8
  pinLen : UInt8
  maxRetries : UInt8
  fpEnable : Bool
  /-- The IV and the encrypted challenge of a verify. -/
  challenge : Option (List UInt8 × List UInt8)
deriving DecidableEq, Repr

def PinFlag.isSet (flag : PinFlag) : Bool := flag.pinLen != 0

def PinFlag.parse (data : List UInt8) : Except ParseError PinFlag :=
  match data with
  | algId :: retriesLeft :: pinLen :: maxRetries :: _ =>
      .ok {
        algId, retriesLeft, pinLen, maxRetries
        fpEnable := data[4]?.any (· != 0)
        challenge :=
          if 41 ≤ data.length then some ((data.drop 9).take 16, (data.drop 25).take 16)
          else none }
  | _ => .error .truncated

def PIN_FLAG_LC_BASE : UInt8 := 0x04

def PIN_FLAG_LC_PRIME : UInt8 := 0x09

def PIN_FLAG_LC_CHALLENGE : UInt8 := 0x29

/-! ### What is asked -/

/-- A command to the applet. Beside the bytes of a verify stands who asked for it: a write that
found its window closed, or the import again. -/
inductive OtpCommand where
  | readPinFlag (lc : UInt8)
  | readAgreementPubkey (hostXy : List UInt8)
  | verifyPin (again : Bool) (data : List UInt8)
  | getEcdhPubkey
  | writeSeed (blob : List UInt8)
deriving DecidableEq, Repr

/-- A command, or bytes of the host's random numbers. -/
inductive OtpAsk where
  | command (c : OtpCommand)
  | random
deriving DecidableEq, Repr

/-- What a transport reports when it fails. -/
abbrev TransportFailure : Type := { e : OtpTransportError // e.IsFailure }

@[reducible] def OtpAnswer : OtpAsk → Type
  | .command _ => Except TransportFailure (List UInt8 × UInt16)
  | .random => List UInt8

/-- The key agreement and the ciphers that a session rests on. Where one draws random numbers,
they come first. -/
structure OtpCrypto where
  Agreement : Type
  SessionKeys : Type
  agreement : List UInt8 → Agreement
  publicXy : Agreement → List UInt8
  establishSession : Agreement → List UInt8 → Except EncryptError SessionKeys
  sessionDecryptRaw : SessionKeys → List UInt8 → List UInt8 → List UInt8
  buildVerifyPinData :
    List UInt8 → SessionKeys → List UInt8 → List UInt8 → Except EncryptError (List UInt8)
  buildProtectedWriteData : List UInt8 → SessionKeys → List UInt8 → List UInt8
  encryptSeedPayload :
    List UInt8 → List UInt8 → List UInt8 → List UInt8 → Except EncryptError (List UInt8)

structure OtpSession (Keys : Type) where
  pinSession : Option Keys
  pinVerified : Bool
  typedPinVerified : Bool
  pinPresent : Option Bool
  fpPresent : Option Bool
deriving DecidableEq, Repr

section Operations

variable (crypto : OtpCrypto)

abbrev OtpTalk : Type → Type := Session OtpAnswer (OtpSession crypto.SessionKeys)

abbrev Tried (α : Type) : Type := Except OtpTransportError α

def transmit (c : OtpCommand) : OtpTalk crypto (Tried (List UInt8 × UInt16)) := do
  return (← ask (OtpAsk.command c)).mapError Subtype.val

/-- A command whose status word is checked. -/
def transmitChecked (check : UInt16 → Except OtpError Unit) (c : OtpCommand) :
    OtpTalk crypto (Tried (List UInt8)) :=
  andThen (transmit crypto c) fun (data, sw) => pure ((check sw).mapError .applet |>.map fun _ => data)

/-! ### Keys and PIN -/

def AGREEMENT_LEN : Nat := 64

def openSession : OtpTalk crypto (Tried Unit) :=
  andThen (transmitChecked crypto OtpError.check (.readPinFlag PIN_FLAG_LC_PRIME)) fun _ => do
    let agreement := crypto.agreement (← ask OtpAsk.random)
    andThen (transmitChecked crypto OtpError.check
        (.readAgreementPubkey (crypto.publicXy agreement))) fun data =>
      if data.length < AGREEMENT_LEN then return .error (.parse .truncated)
      else
        andThen (pure ((crypto.establishSession agreement (data.take AGREEMENT_LEN)).mapError
            .encrypt)) fun keys => do
          modify fun s =>
            { s with pinSession := some keys, pinVerified := false, typedPinVerified := false }
          return .ok ()

def ensureSession : OtpTalk crypto (Tried Unit) := do
  if (← get).pinSession.isNone then openSession crypto else return .ok ()

/-- Verifies the PIN, which opens the key's window. The PIN is sent only under the challenge of a
flag that says that one is set. -/
def verifyPin (again : Bool) (pin : RustStr) : OtpTalk crypto (Tried Unit) :=
  andThen (ensureSession crypto) fun _ =>
  andThen (transmitChecked crypto OtpError.checkPin (.readPinFlag PIN_FLAG_LC_CHALLENGE)) fun data =>
  andThen (pure ((PinFlag.parse data).mapError .parse)) fun flag =>
  if !flag.isSet then return .error .pinRequired
  else
    match flag.challenge with
    | none => return .error (.parse .truncated)
    | some (iv, encRand) => do
        match (← get).pinSession with
        | none => return .error .pinSessionMissing
        | some keys =>
            let rand := crypto.sessionDecryptRaw keys iv encRand
            if rand.length ≠ 16 then return .error (.encrypt .badCiphertext)
            else do
              let drawn ← ask OtpAsk.random
              andThen (pure ((crypto.buildVerifyPinData drawn keys pin.asBytes rand).mapError
                  .encrypt)) fun data =>
                andThen (transmitChecked crypto OtpError.checkPin (.verifyPin again data)) fun _ => do
                  modify fun s => { s with pinVerified := true, typedPinVerified := true }
                  return .ok ()

/-- The answers of an applet without the PIN commands. -/
def NO_PIN_FEATURE_ANSWERS : List UInt16 := [0x6D00, 0x6E00, 0x6A86, 0x6AF8, 0x6700]

/-- The flag that an answer to the flag read gives, none if the key has no PIN feature. -/
def pinFlagOf (data : List UInt8) (sw : UInt16) : Tried (Option PinFlag) :=
  if sw = Sw.OK then .ok (PinFlag.parse data).toOption
  else if sw ∈ NO_PIN_FEATURE_ANSWERS then .ok none
  else (OtpError.check sw).mapError .applet |>.map fun _ => none

def pinStatus : OtpTalk crypto (Tried (Option PinFlag)) :=
  andThen (transmit crypto (.readPinFlag PIN_FLAG_LC_BASE)) fun (data, sw) =>
  andThen (pure (pinFlagOf data sw)) fun flag => do
    modify fun s =>
      { s with pinPresent := flag.map (·.isSet), fpPresent := flag.map (·.fpEnable) }
    return .ok flag

def pinIsSet : OtpTalk crypto (Tried Bool) :=
  andThen (pinStatus crypto) fun flag => return .ok (flag.any (·.isSet))

/-! ### Writes -/

def IV_OTP : List UInt8 :=
  [0x9D, 0xD8, 0x91, 0x8E, 0x34, 0xF3, 0xCC, 0xAB, 0x08, 0xCB, 0x75, 0x18, 0xF7, 0x19, 0x38, 0xF1]

/-- Sealed with the session's keys once the PIN was verified, else for the key's public key. -/
def sealed (cleartext iv : List UInt8) : OtpTalk crypto (Tried (List UInt8)) := do
  let session ← get
  if session.pinVerified then
    match session.pinSession with
    | none => return .error (.parse .truncated)
    | some keys => return .ok (crypto.buildProtectedWriteData (← ask OtpAsk.random) keys cleartext)
  else
    andThen (transmitChecked crypto OtpError.check .getEcdhPubkey) fun devicePub => do
      let drawn ← ask OtpAsk.random
      return (crypto.encryptSeedPayload drawn devicePub cleartext iv).mapError .encrypt

/-- Seals what was serialized and writes it. -/
def writeSealed (serialized : Except ParseError (List UInt8)) : OtpTalk crypto (Tried Unit) :=
  andThen (pure (serialized.mapError .parse)) fun cleartext =>
  andThen (sealed crypto cleartext IV_OTP) fun blob =>
  andThen (transmitChecked crypto OtpError.check (.writeSeed blob)) fun _ => return .ok ()

def writeEntry (entry : WriteEntry) : OtpTalk crypto (Tried Unit) :=
  writeSealed crypto (serializeWriteEntry entry)

def deleteEntry (appName accountName : RustStr) : OtpTalk crypto (Tried Unit) :=
  writeSealed crypto (serializeDeleteEntry appName accountName)

/-- Verifies the PIN of a key that has one unless its window is taken to be open, and writes. -/
def pinned (pin : Option RustStr) (write : OtpTalk crypto (Tried Unit)) :
    OtpTalk crypto (Tried Unit) := do
  if (← get).pinVerified then write
  else
    andThen (pinIsSet crypto) fun isSet =>
      if isSet then
        match pin with
        | none => return .error .pinRequired
        | some pin => andThen (verifyPin crypto false pin) fun _ => write
      else write

def writeEntryPinned (entry : WriteEntry) (pin : Option RustStr) : OtpTalk crypto (Tried Unit) :=
  pinned crypto pin (writeEntry crypto entry)

def deleteEntryPinned (appName accountName : RustStr) (pin : Option RustStr) :
    OtpTalk crypto (Tried Unit) :=
  pinned crypto pin (deleteEntry crypto appName accountName)

end Operations

end Keyroost.Token2Otp
