import Keyroost.Library.Handling
import Keyroost.Piv.ForceReset
import Keyroost.Piv.ManagementKey
import Keyroost.Piv.VersionFloor

/-!
# The PIV factory reset, whatever the card offers

A card is wiped by its PIV applet's RESET, or as a whole by the RESET CARD of another applet that
has to be selected for it. Which of them is tried, and what has to be shown to the card before,
follows from what is known of the applet. Modelled from `keyroost-transport/src/piv.rs` and
`keyroost-piv/src/lib.rs`.

The plan is a pure function of the applet's facts (`planFactoryReset`); carrying it out is a program
over the questions of the session, which remembers which applet is selected. Two kinds of work are
embedded in it whole, the reset of a card whose PIN and PUK are unknown (`ForceReset`) and the
operations on the management key (`ManagementKey`), each with the answers of this session put under
its own questions.
-/

namespace Keyroost.Piv

open Transport Proto Dialogue Session

/-! ### Selection -/

def INS_SELECT : UInt8 := 0xA4
def INS_SELECT_P1_BY_AID : UInt8 := 0x04

def AID_FULL : List UInt8 :=
  [0xA0, 0x00, 0x00, 0x03, 0x08, 0x00, 0x00, 0x10, 0x00, 0x01, 0x00]

def AID : List UInt8 := [0xA0, 0x00, 0x00, 0x03, 0x08]

def selectByAid (aid : List UInt8) : List UInt8 :=
  buildApdu 0x00 INS_SELECT INS_SELECT_P1_BY_AID 0x00 aid ++ [0x00]

def selectFull : List UInt8 := selectByAid AID_FULL

def selectShort : List UInt8 := selectByAid AID

/-- What a session asks for: an APDU of `transmit_full` once PIV is selected as far as the
session knows, one of `transmit_full_raw`, random bytes, or a read of its own, which goes to PIV
or to its caches. -/
inductive FactoryAsk where
  | transmit (apdu : List UInt8)
  | transmitRaw (apdu : List UInt8)
  | getrandom (len : Nat)
  | resetFailsIfManagementKeyIsAes
  | reportedManagementKeyAlgorithm
  | reportsManagementKey
  | fingerprint
  | status
  | metadata (keyRef : UInt8)
deriving DecidableEq, Repr

abbrev Sent : Type := Except LinkError (List UInt8 × UInt16)

@[reducible] def FactoryAnswer : FactoryAsk → Type
  | .transmit _ | .transmitRaw _ => Sent
  | .getrandom len => Option { bytes : List UInt8 // bytes.length = len }
  | .resetFailsIfManagementKeyIsAes | .reportsManagementKey => Bool
  | .reportedManagementKeyAlgorithm => Option MgmtAlg
  | .fingerprint => Unit
  | .status => Except LinkError (Option UInt8)
  | .metadata _ => Option (Option (UInt8 × UInt8))

/-- A session keeps whether it has selected PIV. -/
abbrev FactoryM : Type → Type := Session FactoryAnswer Bool

def askFor (q : FactoryAsk) : FactoryM (FactoryAnswer q) := ask q

def sendRaw (apdu : List UInt8) : FactoryM Sent := askFor (.transmitRaw apdu)

def judgeSelect (label : String) (sw : UInt16) : FactoryM (Except LinkError Unit) := do
  set (decide (sw = SW_OK))
  return if sw = SW_OK then .ok ()
    else .error (.selectRefused label (sw >>> 8).toUInt8 sw.toUInt8)

/-- `PivSession::select`. An exchange that fails leaves the flag as it was. -/
def sessionSelect : FactoryM (Except LinkError Unit) :=
  andThen (sendRaw selectFull) fun (_, sw) =>
    if sw = SW_NOT_FOUND then
      andThen (sendRaw selectShort) fun (_, sw) =>
        if sw = SW_NOT_FOUND then do
          set false
          return .error .noPivApplet
        else judgeSelect "select piv applet (short aid)" sw
    else judgeSelect "select piv applet" sw

def ensureSelected : FactoryM (Except LinkError Unit) := do
  if ← get then return .ok () else sessionSelect

def transmitFull (apdu : List UInt8) : FactoryM Sent :=
  andThen ensureSelected fun _ => askFor (.transmit apdu)

/-- `PivSession::refresh`, of which the fingerprint is only read again. -/
def sessionRefresh : FactoryM (Except LinkError Unit) :=
  andThen sessionSelect fun _ => do
    let _ ← askFor .fingerprint
    return .ok ()

/-! ### The applet that resets the whole card -/

def HID_CRESCENDO_ACA_AID : List UInt8 := [0xA0, 0x00, 0x00, 0x00, 0x79, 0x10, 0x00]
def HID_CRESCENDO_ACA_GET_CHALLENGE : List UInt8 := [0x00, 0x84, 0x00, 0x01, 0x00]
def HID_CRESCENDO_ACA_PIN_REF : UInt8 := 0x00
def HID_CRESCENDO_ACA_RESET_CARD : List UInt8 := [0x00, 0x38, 0x00, 0x00]
def HID_CRESCENDO_ACA_FACTORY_XAUTH_KEY : List UInt8 := List.replicate 24 0x00
def HID_CRESCENDO_ACA_PIN_AFTER_RESET : List UInt8 := List.replicate 8 0x30

def hidCrescendoXauthKeyAlg : Nat → Option MgmtAlg
  | 8 => some .tripleDes
  | 16 => some .aes128
  | _ => none

def hidCrescendoAcaExternalAuthenticate (hostCryptogram : List UInt8) : List UInt8 :=
  [0x00, 0x82, 0x00, 0x01, hostCryptogram.length.toUInt8] ++ hostCryptogram

def hidCrescendoAcaPutXauthKey (alg : MgmtAlg) (key : List UInt8) : Option (List UInt8) :=
  if alg ≠ .tripleDes ∧ alg ≠ .aes128 then none
  else if key.length ≠ alg.keyLen then none
  else
    let data :=
      [0x00, alg.id, (key.length + 1).toUInt8, key.length.toUInt8] ++ key ++ [0x00]
    some ([0x00, 0xD8, 0x01, 0x00, data.length.toUInt8] ++ data)

def verifyPinAt (reference : UInt8) (pin : List UInt8) : Except PinLengthError (List UInt8) := do
  return buildApdu 0x00 INS_VERIFY 0x00 reference (← padPin pin)

def sendAca (apdu : List UInt8) : FactoryM (Mgmt (List UInt8 × UInt16)) := do
  return (← sendRaw apdu).mapError fun e => .transport e.toTransport

def verifyPinHidCrescendoAca (pin : List UInt8) : FactoryM (Mgmt Unit) :=
  match verifyPinAt HID_CRESCENDO_ACA_PIN_REF pin with
  | .error _ => return .error (.transport .pivBadPinLength)
  | .ok apdu => andThen (sendAca apdu) fun (_, sw) => return lift (mapPinSw sw)

section Aca

variable (cipher : MgmtCipher)

def hostCryptogram (key challenge : List UInt8) (sw : UInt16) : Mgmt (List UInt8) := do
  lift (okOrApdu "piv aca get challenge" sw)
  match hidCrescendoXauthKeyAlg challenge.length with
  | none => .error .badKeyLength
  | some alg =>
      if key.length ≠ alg.keyLen then .error .badKeyLength
      else blockCrypt cipher alg key challenge .encrypt

def acaXauthUnlock (key : List UInt8) : FactoryM (Mgmt Unit) :=
  andThen (sendAca HID_CRESCENDO_ACA_GET_CHALLENGE) fun (challenge, sw) =>
    match hostCryptogram cipher key challenge sw with
    | .error e => return .error e
    | .ok cryptogram =>
        andThen (sendAca (hidCrescendoAcaExternalAuthenticate cryptogram)) fun (_, sw) =>
          return if sw ≠ SW_OK then .error .managementAuthFailed else .ok ()

def acaUnlock : CurrentMgmtAuth → FactoryM (Mgmt Unit)
  | .pin pin => verifyPinHidCrescendoAca pin
  | .key key => acaXauthUnlock cipher key

/-- Select the applet, and PIV again whatever comes of it. -/
def inAca {α : Type} (talk : FactoryM (Mgmt α)) : FactoryM (Mgmt α) := do
  let result ← andThen (sendAca (selectByAid HID_CRESCENDO_ACA_AID)) fun (_, sw) =>
    match lift (okOrApdu "piv aca select" sw) with
    | .error e => return .error e
    | .ok () => talk
  let _ ← sessionSelect
  return result

def authenticateManagementHidCrescendoAca (key : List UInt8) : FactoryM (Mgmt Unit) :=
  inAca (acaXauthUnlock cipher key)

/-- `hid_crescendo_aca_put_xauth_key_op` of a key to install. -/
def hidCrescendoAcaPutXauthKeyOp (current : CurrentMgmtAuth) (alg : MgmtAlg)
    (key : List UInt8) : FactoryM (Mgmt Unit) :=
  inAca (andThen (acaUnlock cipher current) fun _ =>
    match hidCrescendoAcaPutXauthKey alg key with
    | none => return .error .badKeyLength
    | some apdu => andThen (sendAca apdu) fun (_, sw) =>
        return lift (okOrWrite "piv aca put xauth key" sw))

/-- The key that the card was delivered with is put back. The reset stands even if that fails. -/
def restoreXauthKey (restoreKey : List UInt8) : FactoryM FactoryResetOutcome := do
  match ← verifyPinHidCrescendoAca HID_CRESCENDO_ACA_PIN_AFTER_RESET with
  | .error _ => return .wipedKeyRestoreFailed
  | .ok () =>
      match hidCrescendoAcaPutXauthKey .tripleDes restoreKey with
      | none => return .wipedKeyRestoreFailed
      | some apdu =>
          match ← sendAca apdu with
          | .ok (_, sw) => return if sw = SW_OK then .wipedGlobal else .wipedKeyRestoreFailed
          | .error _ => return .wipedKeyRestoreFailed

def hidCrescendoAcaResetCard (restoreKey : List UInt8) (current : CurrentMgmtAuth) :
    FactoryM (Mgmt FactoryResetOutcome) :=
  inAca (andThen (acaUnlock cipher current) fun _ =>
    andThen (sendAca HID_CRESCENDO_ACA_RESET_CARD) fun (_, sw) =>
      match lift (okOrWrite "piv aca reset card" sw) with
      | .error e => return .error e
      | .ok () => do return .ok (← restoreXauthKey restoreKey))

end Aca

/-! ### The session under the two kinds of work -/

/-- A reset's questions. -/
def answerReset : (q : ResetAsk) → FactoryM (ResetAnswer q)
  | .transmit apdu => transmitFull apdu
  | .resetFailsIfManagementKeyIsAes => askFor .resetFailsIfManagementKeyIsAes
  | .reportedManagementKeyAlgorithm => askFor .reportedManagementKeyAlgorithm
  | .refresh => sessionRefresh
  | .status => askFor .status
  | .metadata keyRef => askFor (.metadata keyRef)
  | .getrandom => do
      return (← askFor (.getrandom GUESS_LEN) : Option { b : List UInt8 // b.length = _ }).map
        fun filled => ⟨filled.val, filled.property⟩

/-- The questions of management. -/
def answerMgmt (cipher : MgmtCipher) : (q : MgmtAsk) → FactoryM (MgmtAnswer q)
  | .transmit apdu => transmitFull apdu
  | .getrandom len => askFor (.getrandom len)
  | .reportedManagementKeyAlgorithm => askFor .reportedManagementKeyAlgorithm
  | .reportsManagementKey => askFor .reportsManagementKey
  | .authenticateAca key => authenticateManagementHidCrescendoAca cipher key
  | .putXauthKey current alg key => hidCrescendoAcaPutXauthKeyOp cipher current alg key

/-! ### The plan -/

/-- What the identity of the applet, resolved before, says of it: which resets it has, what one
needs, and the key its management is shipped with where that is known. -/
structure FactoryApplet where
  reset : FeatureGate
  resetGlobal : FeatureGate
  resetNeedsManagementAuth : Bool
  default9bManagementKey : Option (List UInt8)
  mgmt : MgmtApplet
deriving DecidableEq, Repr

inductive FactoryResetPlan where
  | unsupported
  | needsManagementAuth
  | unverified
  | burnPinPukThenReset
deriving DecidableEq, Repr

inductive PivResetPreview where
  | unsupported
  | global
  | piv (plan : FactoryResetPlan)
deriving DecidableEq, Repr

def planFactoryReset (applet : FactoryApplet) : FactoryResetPlan :=
  match applet.reset with
  | .unsupported => .unsupported
  | .unverified => .unverified
  | .supported =>
      if applet.resetNeedsManagementAuth then .needsManagementAuth else .burnPinPukThenReset

def previewFactoryReset (applet : FactoryApplet) : PivResetPreview :=
  if applet.resetGlobal ≠ .unsupported then .global
  else
    match planFactoryReset applet with
    | .unsupported => .unsupported
    | plan => .piv plan

/-! ### The factory reset -/

/-- `plain` is an error that is reported as it is. The others say at which stage the reset went
wrong, with the error of that stage. -/
inductive FactoryResetError where
  | plain (e : TransportError)
  | pivResetUnsupported
  | pivResetNeedsManagementAuth
  | pivResetGlobalFailed (e : MgmtError)
  | pivResetManagementAuthFailed (e : MgmtError)
  | pivResetUnverifiedFailed (e : TransportError)
  | pivResetForcedFailed (e : TransportError)
deriving DecidableEq, Repr

abbrev FactoryReset : Type := Except FactoryResetError FactoryResetOutcome

section Reset

variable (cipher : MgmtCipher) (applet : FactoryApplet) (hint : Option MgmtAlg)

def resetNow : FactoryM (Tried Unit) := sessionReset.handle answerReset

/-- A RESET that is the whole reset. -/
def bareReset (failed : TransportError → FactoryResetError) : FactoryM FactoryReset := do
  match ← resetNow with
  | .ok () => return .ok .wiped
  | .error e => return .error (failed e)

/-- RESET, and what `force_reset` does if the card refuses it. -/
def escalatingReset : FactoryM FactoryReset := do
  return (← forceReset.handle answerReset).mapError .plain

def authenticateNow (current : CurrentMgmtAuth) : FactoryM (Mgmt Unit) := do
  let (result, _) ←
    (authenticateManagementCurrent cipher applet.mgmt current hint).handle (answerMgmt cipher)
  return result

/-- Prove the management key or its stand-in first, then reset. -/
def authenticateThenReset (current : CurrentMgmtAuth) : FactoryM (Mgmt Unit) :=
  andThen (authenticateNow cipher applet hint current) fun _ => do return lift (← resetNow)

/-- The reset of the PIV applet alone. -/
def resetPiv (current : Option CurrentMgmtAuth) : FactoryM FactoryReset :=
  match planFactoryReset applet with
  | .unsupported => return .error .pivResetUnsupported
  | .needsManagementAuth =>
      match current with
      | none => return .error .pivResetNeedsManagementAuth
      | some current => do
          match ← authenticateThenReset cipher applet hint current with
          | .ok () => return .ok .wiped
          | .error e => return .error (.pivResetManagementAuthFailed e)
  | .unverified => bareReset .pivResetUnverifiedFailed
  | .burnPinPukThenReset => escalatingReset

/-- `PivSession::factory_reset`. -/
def factoryReset (current : Option CurrentMgmtAuth) : FactoryM FactoryReset :=
  if applet.resetGlobal ≠ .unsupported then
    match current with
    | none => return .error .pivResetNeedsManagementAuth
    | some credential => do
        let restoreKey :=
          applet.default9bManagementKey.getD HID_CRESCENDO_ACA_FACTORY_XAUTH_KEY
        match ← hidCrescendoAcaResetCard cipher restoreKey credential with
        | .ok outcome => return .ok outcome
        | .error e =>
            -- A guess at the mechanism that was wrong has touched nothing.
            if applet.resetGlobal = .unverified then resetPiv cipher applet hint current
            else return .error (.pivResetGlobalFailed e)
  else resetPiv cipher applet hint current

end Reset

inductive ResetRoute where
  | refuse
  | bareUnverified
  | bareForced
  | escalating
deriving DecidableEq, Repr

def resetRoute (gate : FeatureGate) (sendIfListedUnsupported : Bool) : ResetRoute :=
  match gate with
  | .supported => .escalating
  | .unverified => .bareUnverified
  | .unsupported => if sendIfListedUnsupported then .bareForced else .refuse

/-- `PivSession::force_reset_if_known_supported`, which leaves the other applets alone. -/
def forceResetIfKnownSupported (gate : FeatureGate) (sendIfListedUnsupported : Bool) :
    FactoryM FactoryReset :=
  match resetRoute gate sendIfListedUnsupported with
  | .refuse => return .error .pivResetUnsupported
  | .bareUnverified => bareReset .pivResetUnverifiedFailed
  | .bareForced => bareReset .pivResetForcedFailed
  | .escalating => escalatingReset

end Keyroost.Piv
