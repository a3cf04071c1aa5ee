import Keyroost.Ctap.PinProtocol

/-!
# PIN commands

The host's side of authenticatorClientPIN, from `keyroost-ctap/src/client_pin.rs`: what a key
reports of itself, the protocol that is preferred, the key agreement, and the commands that set a
PIN, change it, and take a token for it. Keys and IVs drawn at random are arguments.

An operation is a program that may fail, over the link to a device (`PinOp`): the requests it has
sent so far and the device's state stay when it fails. Each command of the source is a `do` block
in that monad, with its checks in the source's order, so that a PIN of a length that is not allowed
is refused before anything is sent. `PinRuns` says what each of them sends, and `PinKept` what
comes of it.
-/

namespace Keyroost.Ctap

open Cbor

namespace Cbor.Value

def asArray : Value → Option (List Value)
  | array items => some items
  | _ => none

def asBool : Value → Option Bool
  | bool b => some b
  | _ => none

end Cbor.Value

namespace ClientPin

def CTAP2_GET_INFO : UInt8 := 0x04
def CTAP2_CLIENT_PIN : UInt8 := 0x06

def KEY_PIN_PROTOCOL : UInt64 := 0x01
def KEY_SUB_COMMAND : UInt64 := 0x02
def KEY_KEY_AGREEMENT : UInt64 := 0x03
def KEY_PIN_UV_AUTH_PARAM : UInt64 := 0x04
def KEY_NEW_PIN_ENC : UInt64 := 0x05
def KEY_PIN_HASH_ENC : UInt64 := 0x06
def KEY_PERMISSIONS : UInt64 := 0x09
def KEY_RP_ID : UInt64 := 0x0A

def SUB_GET_PIN_RETRIES : UInt8 := 0x01
def SUB_GET_KEY_AGREEMENT : UInt8 := 0x02
def SUB_SET_PIN : UInt8 := 0x03
def SUB_CHANGE_PIN : UInt8 := 0x04
def SUB_GET_PIN_TOKEN : UInt8 := 0x05
def SUB_GET_PIN_UV_AUTH_TOKEN_USING_PIN : UInt8 := 0x09

/-- What stops a PIN command: an error of CTAP, an argument that the host itself refuses, or a PIN
that has to be changed first. -/
inductive PinFailure where
  | ctap (e : CtapError)
  | invalidArgument (message : String)
  | pinChangeRequired
deriving DecidableEq, Repr

/-! ### What a key reports of itself -/

/-- What the PIN commands read of getInfo. `forcePinChange` is `none` where the key does not say,
which is not the same as a key that says no. -/
structure PinInfo where
  options : List (RustStr × Bool)
  pinUvAuthProtocols : List UInt64
  forcePinChange : Option Bool
deriving DecidableEq, Repr

def PinInfo.empty : PinInfo := { options := [], pinUvAuthProtocols := [], forcePinChange := none }

def PinInfo.option (info : PinInfo) (name : RustStr) : Option Bool :=
  info.options.findSome? fun o => if o.1 = name then some o.2 else none

def collectUInts (v : Value) : List UInt64 := (v.asArray.getD []).filterMap Value.asUInt

def collectNamedBools (v : Value) : List (RustStr × Bool) :=
  (v.asMap.getD []).filterMap fun e => e.1.asText.bind fun k => e.2.asBool.map fun b => (k, b)

/-- One turn over the map of getInfo. -/
def PinInfo.turn (info : PinInfo) (entry : Value × Value) : PinInfo :=
  match entry.1.asUInt with
  | none => info
  | some key =>
      if key = 0x04 then { info with options := collectNamedBools entry.2 }
      else if key = 0x06 then { info with pinUvAuthProtocols := collectUInts entry.2 }
      else if key = 0x0C then { info with forcePinChange := entry.2.asBool }
      else info

def parseAuthenticatorInfo (v : Value) : Except CtapError PinInfo :=
  match v.asMap with
  | none => .error (.invalidResponseShape "expected map at top level")
  | some map => .ok (map.foldl PinInfo.turn .empty)

/-- The first protocol of the list that the host implements, else the first version. -/
def selectPinProtocol : List UInt64 → SelectedPinProtocol
  | [] => .v1
  | p :: supported =>
      if p = PIN_PROTOCOL_V2.toUInt64 then .v2
      else if p = PIN_PROTOCOL_V1.toUInt64 then .v1
      else selectPinProtocol supported

/-! ### Operations on a key -/

/-- An operation on a device over a link to it. -/
abbrev PinOp (σ : Type) := ExceptT PinFailure (StateM (Link σ))

section

variable {σ : Type}

/-- A result that needs no device. -/
def PinOp.ofExcept {α : Type} (r : Except PinFailure α) : PinOp σ α := fun l => (r, l)

def PinOp.ofCtap {α : Type} (r : Except CtapError α) : PinOp σ α := .ofExcept (r.mapError .ctap)

variable (dev : Device σ)

def transactPin (payload : List UInt8) : PinOp σ (List UInt8) := fun l =>
  let (resp, l) := transact dev payload l
  (resp.mapError .ctap, l)

/-- The bytes after a zero status. -/
def splitStatus : List UInt8 → Except CtapError (List UInt8)
  | [] => .error .emptyResponse
  | status :: body => if status ≠ 0 then .error (.statusCode status) else .ok body

/-- The first item of some bytes. -/
def decodeFirst (body : List UInt8) : Except CtapError Value :=
  match decode body with
  | .error e => .error (.cbor e)
  | .ok (value, _) => .ok value

def getInfo : PinOp σ PinInfo := do
  let resp ← transactPin dev [CTAP2_GET_INFO]
  .ofCtap do parseAuthenticatorInfo (← decodeFirst (← splitStatus resp))

def readPinResponse (resp : List UInt8) : Except CtapError PinResponse := do
  let body ← splitStatus resp
  if body = [] then return .empty
  parsePinResponse (← decodeFirst body)

def dispatchPin (req : List UInt8) : PinOp σ PinResponse := do
  let resp ← transactPin dev (CTAP2_CLIENT_PIN :: req)
  .ofCtap (readPinResponse resp)

/-- The entries of a request. -/
def requestEntries (protocol : UInt32) (sub : UInt8) (extra : List (Value × Value)) :
    List (Value × Value) :=
  [(.uInt KEY_PIN_PROTOCOL, .uInt protocol.toUInt64),
    (.uInt KEY_SUB_COMMAND, .uInt sub.toUInt64)] ++ extra

def buildRequestExtra (protocol : UInt32) (sub : UInt8) (extra : List (Value × Value)) :
    List UInt8 :=
  encode (.map (requestEntries protocol sub extra))

/-- A COSE key for ECDH on P-256. -/
def coseP256Public (xy : Bytes32 × Bytes32) : Value :=
  .map [(.uInt 1, .uInt 2), (.uInt 3, .nInt 24), (.nInt 0, .uInt 1), (.nInt 1, .bytes xy.1.val),
    (.nInt 2, .bytes xy.2.val)]

def getPinRetries : PinOp σ UInt32 := do
  let resp ← dispatchPin dev (buildRequestExtra PIN_PROTOCOL_V1 SUB_GET_PIN_RETRIES [])
  match resp.retries with
  | none => .ofCtap (.error (.invalidResponseShape "missing retries"))
  | some retries => return retries

def getKeyAgreement (protocol : UInt32) : PinOp σ (Bytes32 × Bytes32) := do
  let resp ← dispatchPin dev (buildRequestExtra protocol SUB_GET_KEY_AGREEMENT [])
  match resp.keyAgreement with
  | none => .ofCtap (.error (.invalidResponseShape "missing keyAgreement"))
  | some xy => return xy

def negotiateProtocol : PinOp σ SelectedPinProtocol := do
  return selectPinProtocol (← getInfo dev).pinUvAuthProtocols

def validatePin (pin : RustStr) : Except PinFailure Unit :=
  if 4 ≤ pin.len ∧ pin.len ≤ 63 then .ok ()
  else .error (.invalidArgument "PIN must be 4..=63 UTF-8 bytes")

variable {Key : Type} (c : PinCrypto Key)

/-- The protocol with its secret, from the key pair `own` and the device's public key. -/
def keyAgreement (own : Key) (chosen : SelectedPinProtocol) : PinOp σ PinProtocol := do
  let peer ← getKeyAgreement dev chosen.version
  match c.sharedSecret chosen own peer with
  | .error _ => .ofCtap (.error (.invalidResponseShape "invalid peer keyAgreement point"))
  | .ok proto => return proto

def setPin (own : Key) (iv : Iv) (newPin : RustStr) : PinOp σ Unit := do
  .ofExcept (validatePin newPin)
  let chosen ← negotiateProtocol dev
  let proto ← keyAgreement dev c own chosen
  let newPinEnc := proto.encrypt c iv (padPinTo64 newPin)
  let pinAuth := proto.authenticate c newPinEnc
  let _ ← dispatchPin dev (buildRequestExtra chosen.version SUB_SET_PIN
    [(.uInt KEY_KEY_AGREEMENT, coseP256Public (c.publicXy own)),
      (.uInt KEY_PIN_UV_AUTH_PARAM, .bytes pinAuth), (.uInt KEY_NEW_PIN_ENC, .bytes newPinEnc)])
  return ()

/-- Each of the two ciphertexts has its own IV. The parameter covers both, and both are under the
key that was agreed for this command alone. -/
def changePin (own : Key) (iv iv' : Iv) (oldPin newPin : RustStr) : PinOp σ Unit := do
  .ofExcept (validatePin newPin)
  let chosen ← negotiateProtocol dev
  let proto ← keyAgreement dev c own chosen
  let newPinEnc := proto.encrypt c iv (padPinTo64 newPin)
  let pinHashEnc := proto.encrypt c iv' (c.left16Sha256 oldPin.asBytes)
  let pinAuth := proto.authenticate c (newPinEnc ++ pinHashEnc)
  let _ ← dispatchPin dev (buildRequestExtra chosen.version SUB_CHANGE_PIN
    [(.uInt KEY_KEY_AGREEMENT, coseP256Public (c.publicXy own)),
      (.uInt KEY_PIN_UV_AUTH_PARAM, .bytes pinAuth), (.uInt KEY_NEW_PIN_ENC, .bytes newPinEnc),
      (.uInt KEY_PIN_HASH_ENC, .bytes pinHashEnc)])
  return ()

/-- A key that asks for another PIN refuses a token request with the status of a refused new PIN. -/
def tokenFailure : PinFailure → PinFailure
  | .ctap (.statusCode 0x37) => .pinChangeRequired
  | other => other

def dispatchTokenRequest (req : List UInt8) : PinOp σ PinResponse := fun l =>
  let (resp, l) := dispatchPin dev req l
  (resp.mapError tokenFailure, l)

def checkTokenLen (token : List UInt8) : Except CtapError (List UInt8) :=
  if token.length = 16 ∨ token.length = 32 then .ok token
  else .error (.invalidResponseShape "pinUvAuthToken is not 16 or 32 bytes")

/-- The token of a response. `name` is what the errors call it. -/
def tokenOf (name : String) (proto : PinProtocol) (chosen : SelectedPinProtocol)
    (resp : PinResponse) : Except CtapError PinUvAuthToken :=
  match resp.pinTokenEnc with
  | none => .error (.invalidResponseShape ("missing " ++ name))
  | some encToken =>
      match proto.decrypt c encToken with
      | .error _ => .error (.invalidResponseShape (name ++ " decrypt failed"))
      | .ok token =>
          (checkTokenLen token).map fun token => { protocol := chosen.version, token }

/-- Both token commands: the hash of the PIN encrypted, and what else the command has. -/
def tokenRequest (sub : UInt8) (name : String) (more : List (Value × Value)) (own : Key) (iv : Iv)
    (pin : RustStr) (chosen : SelectedPinProtocol) : PinOp σ PinUvAuthToken := do
  let proto ← keyAgreement dev c own chosen
  let pinHashEnc := proto.encrypt c iv (c.left16Sha256 pin.asBytes)
  let resp ← dispatchTokenRequest dev (buildRequestExtra chosen.version sub
    ([(.uInt KEY_KEY_AGREEMENT, coseP256Public (c.publicXy own)),
      (.uInt KEY_PIN_HASH_ENC, .bytes pinHashEnc)] ++ more))
  .ofCtap (tokenOf c name proto chosen resp)

def tokenLegacy (own : Key) (iv : Iv) (pin : RustStr) (chosen : SelectedPinProtocol) :
    PinOp σ PinUvAuthToken :=
  tokenRequest dev c SUB_GET_PIN_TOKEN "pinToken" [] own iv pin chosen

/-- The entries of the command with permissions alone. -/
def permissionEntries (permissions : UInt32) (rpId : Option RustStr) : List (Value × Value) :=
  (.uInt KEY_PERMISSIONS, .uInt permissions.toUInt64) ::
    (rpId.map fun rp => (Value.uInt KEY_RP_ID, Value.text rp)).toList

def tokenWithPermissions (own : Key) (iv : Iv) (pin : RustStr) (permissions : UInt32)
    (rpId : Option RustStr) (chosen : SelectedPinProtocol) : PinOp σ PinUvAuthToken :=
  tokenRequest dev c SUB_GET_PIN_UV_AUTH_TOKEN_USING_PIN "pinUvAuthToken"
    (permissionEntries permissions rpId) own iv pin chosen

def getPinToken (own : Key) (iv : Iv) (pin : RustStr) : PinOp σ PinUvAuthToken := do
  let chosen ← negotiateProtocol dev
  tokenLegacy dev c own iv pin chosen

def getPinUvAuthTokenWithPermissions (own : Key) (iv : Iv) (pin : RustStr) (permissions : UInt32)
    (rpId : Option RustStr) : PinOp σ PinUvAuthToken := do
  let chosen ← negotiateProtocol dev
  tokenWithPermissions dev c own iv pin permissions rpId chosen

/-- With permissions where the key offers that command. -/
def getPinUvAuthToken (own : Key) (iv : Iv) (pin : RustStr) (info : PinInfo)
    (permissions : UInt32) : PinOp σ PinUvAuthToken :=
  if info.forcePinChange = some true then .ofExcept (.error .pinChangeRequired)
  else
    let chosen := selectPinProtocol info.pinUvAuthProtocols
    if info.option "pinUvAuthToken".toList = some true then
      tokenWithPermissions dev c own iv pin permissions none chosen
    else tokenLegacy dev c own iv pin chosen

end

end ClientPin

end Keyroost.Ctap
