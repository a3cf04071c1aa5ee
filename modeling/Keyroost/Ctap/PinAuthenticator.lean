import Keyroost.Ctap.CborRoundTrip
import Keyroost.Ctap.ClientPin

/-!
# An authenticator that follows the PIN rules

What CTAP 2.1 asks of an authenticator that keeps a PIN, from its own side: which requests it
answers, what it checks, what it keeps of a PIN, and which token it hands out. Nothing here is
translated from the host's code: `PinAuthenticator` is the other party to
`keyroost-ctap/src/client_pin.rs`.

Its state is the PIN that is set, as the bytes left when the zeros at the end are taken off, the
attempts left, how many keys and tokens it has used up, and the token in use. A request is decoded
from the payload's bytes. The parameter of one that sets or changes a PIN is checked before
anything else of it, and a new PIN that does not decrypt to 64 bytes is refused. `device` answers
the requests that the host's operations send.
-/

namespace Keyroost.Ctap

open Cbor

/-- The parameters of a PIN request, each of them present or not, as they are read from the map that
was sent. -/
structure PinRequest where
  protocol : Option UInt64
  subCommand : Option UInt64
  keyAgreement : Option (Bytes32 × Bytes32)
  pinUvAuthParam : Option (List UInt8)
  newPinEnc : Option (List UInt8)
  pinHashEnc : Option (List UInt8)
  permissions : Option UInt64
  rpId : Option RustStr
deriving DecidableEq, Repr

namespace PinRequest

def ofValue (v : Value) : PinRequest where
  protocol := (v.getUIntKey 1).bind Value.asUInt
  subCommand := (v.getUIntKey 2).bind Value.asUInt
  keyAgreement := ((v.getUIntKey 3).bind Value.asMap).bind agreementOf
  pinUvAuthParam := (v.getUIntKey 4).bind Value.asBytes
  newPinEnc := (v.getUIntKey 5).bind Value.asBytes
  pinHashEnc := (v.getUIntKey 6).bind Value.asBytes
  permissions := (v.getUIntKey 9).bind Value.asUInt
  rpId := (v.getUIntKey 10).bind Value.asText

/-- The PIN command and one map, with nothing behind it. -/
def ofPayload : List UInt8 → Option PinRequest
  | [] => none
  | command :: body =>
      if command ≠ 0x06 then none
      else
        match decode body with
        | .ok (.map entries, []) => some (ofValue (.map entries))
        | _ => none

/-- What a request's parameter authenticates. -/
def ciphertexts (r : PinRequest) : List UInt8 := r.newPinEnc.getD [] ++ r.pinHashEnc.getD []

end PinRequest

/-- An authenticator: what it reports of itself, the keys it agrees with, its IVs and its tokens
one after another, which PINs are to its policy, and which permissions it grants. -/
structure PinAuthenticator {Key : Type} (c : PinCrypto Key) where
  entries : List (Value × Value)
  keys : SelectedPinProtocol → Nat → Key
  ivs : Nat → Iv
  tokens : Nat → {t : List UInt8 // t.length = 16 ∨ t.length = 32}
  accepts : List UInt8 → Bool
  grants : Option UInt64 → Option RustStr → Bool
  entries_sized : (Value.map entries).Sized
  entries_nesting : (Value.map entries).nesting ≤ DECODE_DEPTH_LIMIT

/-- An authenticator's PIN, of which it keeps the hash alone, the attempts left, how many keys and
tokens it used up, and the token in use. -/
structure PinState where
  pin : Option (List UInt8)
  retries : Nat
  turn : Nat
  token : Option (List UInt8)
deriving DecidableEq, Repr

/-- A response, and the state after it. -/
abbrev PinAnswer : Type := List UInt8 × PinState

namespace PinAuthenticator

def INVALID_PARAMETER : UInt8 := 0x02
def INVALID_CBOR : UInt8 := 0x12
def PIN_INVALID : UInt8 := 0x31
def PIN_BLOCKED : UInt8 := 0x32
def PIN_AUTH_INVALID : UInt8 := 0x33
def PIN_NOT_SET : UInt8 := 0x35
def PIN_POLICY_VIOLATION : UInt8 := 0x37
def INVALID_SUBCOMMAND : UInt8 := 0x3e
def UNAUTHORIZED_PERMISSION : UInt8 := 0x40

def MAX_RETRIES : Nat := 8

/-- The protocol of a number: the second has to be reported, and so has the first where the
second is. -/
def protocolOf (protocols : List UInt64) (p : UInt64) : Option SelectedPinProtocol :=
  if p = 2 ∧ 2 ∈ protocols then some .v2
  else if p = 1 ∧ (1 ∈ protocols ∨ 2 ∉ protocols) then some .v1
  else none

variable {Key : Type} {c : PinCrypto Key} (auth : PinAuthenticator c)

/-- What a host reads of the report. -/
def info : ClientPin.PinInfo := auth.entries.foldl ClientPin.PinInfo.turn .empty

def protocols : List UInt64 := auth.info.pinUvAuthProtocols

/-- The secret shared with the sender of a request. -/
def secretFor (st : PinState) (r : PinRequest) : Option PinProtocol :=
  (r.protocol.bind (protocolOf auth.protocols)).bind fun p =>
    r.keyAgreement.bind fun peer => (c.sharedSecret p (auth.keys p st.turn) peer).toOption

/-- What is kept of the PIN. -/
def storedHash (c : PinCrypto Key) (st : PinState) : Option (List UInt8) :=
  st.pin.map c.left16Sha256

def paramValid (c : PinCrypto Key) (proto : PinProtocol) (r : PinRequest) : Bool :=
  decide (r.pinUvAuthParam = some (proto.authenticate c r.ciphertexts))

/-- The new PIN: 64 bytes without the zeros they end in. -/
def newPinOf (c : PinCrypto Key) (proto : PinProtocol) (r : PinRequest) : Option (List UInt8) :=
  r.newPinEnc.bind fun enc => (proto.decrypt c enc).toOption.bind fun padded =>
    if padded.length = 64 then some (Padding.strip 0 padded) else none

/-- The hash of a PIN that a request presents. -/
def presentedHash (c : PinCrypto Key) (proto : PinProtocol) (r : PinRequest) :
    Option (List UInt8) :=
  r.pinHashEnc.bind fun enc => (proto.decrypt c enc).toOption

def refuse (status : UInt8) (st : PinState) : PinAnswer := ([status], st)

def storePin (st : PinState) (new : Option (List UInt8)) : PinAnswer :=
  match new with
  | none => refuse INVALID_PARAMETER st
  | some pin =>
      if auth.accepts pin = false then refuse PIN_POLICY_VIOLATION st
      else
        ([0x00], { pin := some pin, retries := MAX_RETRIES, turn := st.turn + 1, token := none })

/-- The presented hash is compared with the one kept, as long as attempts are left. -/
def checkPin (c : PinCrypto Key) (st : PinState) (r : PinRequest) (proto : PinProtocol) :
    Except PinAnswer PinState :=
  match storedHash c st with
  | none => .error (refuse PIN_NOT_SET st)
  | some hash =>
      if st.retries = 0 then .error (refuse PIN_BLOCKED st)
      else if presentedHash c proto r = some hash then .ok { st with retries := MAX_RETRIES }
      else
        .error (refuse PIN_INVALID
          { st with retries := st.retries - 1, turn := st.turn + 1 })

def handleSetPin (st : PinState) (r : PinRequest) (proto : PinProtocol) : PinAnswer :=
  if st.pin.isSome = true ∨ paramValid c proto r = false then refuse PIN_AUTH_INVALID st
  else auth.storePin st (newPinOf c proto r)

def handleChangePin (st : PinState) (r : PinRequest) (proto : PinProtocol) : PinAnswer :=
  if paramValid c proto r = false then refuse PIN_AUTH_INVALID st
  else
    match checkPin c st r proto with
    | .error answer => answer
    | .ok st => auth.storePin st (newPinOf c proto r)

/-- The legacy command asks for no permission. -/
def permits (r : PinRequest) : Bool :=
  decide (r.subCommand = some 5) || auth.grants r.permissions r.rpId

/-- The next token, encrypted for the host. -/
def tokenResponse (st : PinState) (proto : PinProtocol) : List UInt8 :=
  0x00 :: encode (.map
    [(.uInt 2, .bytes (proto.encrypt c (auth.ivs st.turn) (auth.tokens st.turn).val))])

def handleToken (st : PinState) (r : PinRequest) (proto : PinProtocol) : PinAnswer :=
  if auth.permits r = false then refuse UNAUTHORIZED_PERMISSION st
  else
    match checkPin c st r proto with
    | .error answer => answer
    | .ok st =>
        (auth.tokenResponse st proto,
          { st with turn := st.turn + 1, token := some (auth.tokens st.turn).val })

/-- The public key for a protocol. -/
def agreementResponse (st : PinState) (p : SelectedPinProtocol) : List UInt8 :=
  0x00 :: encode (.map [(.uInt 1, ClientPin.coseP256Public (c.publicXy (auth.keys p st.turn)))])

def handleAgreement (st : PinState) (r : PinRequest) : PinAnswer :=
  match r.protocol.bind (protocolOf auth.protocols) with
  | none => refuse INVALID_PARAMETER st
  | some p => (auth.agreementResponse st p, st)

def handle (st : PinState) (r : PinRequest) : PinAnswer :=
  if r.subCommand = some 1 then
    (0x00 :: encode (.map [(.uInt 3, .uInt st.retries.toUInt64)]), st)
  else if r.subCommand = some 2 then auth.handleAgreement st r
  else
    match auth.secretFor st r with
    | none => refuse INVALID_PARAMETER st
    | some proto =>
        if r.subCommand = some 3 then auth.handleSetPin st r proto
        else if r.subCommand = some 4 then auth.handleChangePin st r proto
        else if r.subCommand = some 5 ∨ r.subCommand = some 9 then auth.handleToken st r proto
        else refuse INVALID_SUBCOMMAND st

def respond (st : PinState) (payload : List UInt8) : PinAnswer :=
  if payload = [0x04] then (0x00 :: encode (.map auth.entries), st)
  else
    match PinRequest.ofPayload payload with
    | none => refuse INVALID_CBOR st
    | some r => auth.handle st r

def device : Device PinState := fun st payload =>
  let (resp, st) := auth.respond st payload
  (.ok resp, st)

end PinAuthenticator

end Keyroost.Ctap
