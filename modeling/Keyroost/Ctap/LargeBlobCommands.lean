import Keyroost.Ctap.LargeBlobs

/-!
# Reading and writing the array on a key

The two loops of authenticatorLargeBlobs, from `keyroost-ctap/src/large_blobs.rs`: `readAll`
fetches fragments until one is short, `write` sends them with the total in the first only.

A device is a function from its state and a request to a response and its next state; beside the
device's state a `Link` keeps the requests sent so far, so that a statement can speak of them. Each
loop ends by its own measure, the reader's by its ceiling on the array's size and the writer's by
the bytes that are left. A token's protocol decides how a fragment is authenticated
(`writeAuthParam`).
-/

namespace Keyroost.Ctap

open Cbor

def CTAP2_LARGE_BLOBS : UInt8 := 0x0c

def KEY_GET : UInt64 := 1
def KEY_SET : UInt64 := 2
def KEY_OFFSET : UInt64 := 3
def KEY_LENGTH : UInt64 := 4
def KEY_PIN_UV_AUTH_PARAM : UInt64 := 5
def KEY_PIN_UV_AUTH_PROTOCOL : UInt64 := 6

def RESP_CONFIG : UInt64 := 1

def DEFAULT_MAX_MSG_SIZE : UInt64 := 1024
def MSG_SIZE_OVERHEAD : UInt64 := 64

/-- How much `read` takes in before it refuses to go on. -/
def MAX_READ : Nat := 64 * 1024

/-- What the transfer reads of an authenticator's getInfo. An authenticator that reports no message
size is taken to have one of 1024 bytes. -/
structure AuthenticatorInfo where
  maxMsgSize : Option UInt64
deriving DecidableEq, Repr

/-- Largest fragment of a `set` or `get`: 64 less than the message size, at least 1. -/
def maxFragmentLength (info : AuthenticatorInfo) : { n : Nat // 0 < n } :=
  let max := info.maxMsgSize.getD DEFAULT_MAX_MSG_SIZE
  ⟨Nat.max (max.toNat - MSG_SIZE_OVERHEAD.toNat) 1,
    Nat.lt_of_lt_of_le Nat.zero_lt_one (Nat.le_max_right _ _)⟩

/-! ### The link to a device -/

/-- One exchange of a CTAPHID_CBOR message. -/
abbrev Device (σ : Type) := σ → List UInt8 → Except CtapError (List UInt8) × σ

/-- The device's state, and the requests sent so far. The source keeps no such record; it is there
for the statements that bound what is sent. -/
structure Link (σ : Type) where
  state : σ
  sent : List (List UInt8)

section

variable {σ : Type}

def transact (dev : Device σ) (payload : List UInt8) (l : Link σ) :
    Except CtapError (List UInt8) × Link σ :=
  let (resp, state) := dev l.state payload
  (resp, { state, sent := l.sent ++ [payload] })

/-- The value in a response: after a zero status, nothing or one CBOR item. -/
def readResponse : List UInt8 → Except CtapError Value
  | [] => .error .emptyResponse
  | status :: body =>
      if status ≠ 0 then .error (.statusCode status)
      else if body = [] then .ok .null
      else
        match decode body with
        | .ok (value, _) => .ok value
        | .error e => .error (.cbor e)

def requestBytes (params : Value) : List UInt8 := CTAP2_LARGE_BLOBS :: encode params

def dispatch (dev : Device σ) (params : Value) (l : Link σ) : Except CtapError Value × Link σ :=
  let (resp, l) := transact dev (requestBytes params) l
  (resp >>= readResponse, l)

/-! ### Reading -/

/-- The `config` byte string of a `get` response. -/
def configOf : Value → Except CtapError (List UInt8)
  | .map entries =>
      match entries.find? fun entry => entry.1.asUInt == some RESP_CONFIG with
      | some (_, .bytes b) => .ok b
      | some _ => .error (.invalidResponseShape "largeBlobs get: config not a byte string")
      | none => .error (.invalidResponseShape "largeBlobs get: missing config")
  | _ => .error (.invalidResponseShape "largeBlobs get: not a map")

def getParams (offset count : Nat) : Value :=
  .map [(.uInt KEY_GET, .uInt count.toUInt64), (.uInt KEY_OFFSET, .uInt offset.toUInt64)]

/-- Read one fragment at `offset`, of at most `count` bytes. -/
def readFragment (dev : Device σ) (offset count : Nat) (l : Link σ) :
    Except CtapError (List UInt8) × Link σ :=
  let (resp, l) := dispatch dev (getParams offset count) l
  (resp >>= configOf, l)

def tooLarge : CtapError := .invalidResponseShape "largeBlobs: array too large"

/-- The loop of `read`: fragments are appended until a short one arrives. -/
def readLoop (dev : Device σ) (frag : { n : Nat // 0 < n }) (data : List UInt8) (offset : Nat)
    (l : Link σ) : Except CtapError (List UInt8) × Link σ :=
  let (chunk, l) := readFragment dev offset frag.val l
  match chunk with
  | .error e => (.error e, l)
  | .ok chunk =>
      if chunk.length < frag.val then (.ok (data ++ chunk), l)
      else if MAX_READ < (data ++ chunk).length then (.error tooLarge, l)
      else readLoop dev frag (data ++ chunk) (offset + chunk.length) l
termination_by MAX_READ + 1 - data.length
decreasing_by
  rename_i hlarge
  rw [List.length_append] at hlarge ⊢
  have := frag.property
  omega

/-- Every byte of the store, as `read` collects them. -/
def readAll (dev : Device σ) (info : AuthenticatorInfo) (l : Link σ) :
    Except CtapError (List UInt8) × Link σ :=
  readLoop dev (maxFragmentLength info) [] 0 l

/-- Read the array, verify its checksum, and parse it. -/
def read (c : Crypto) (dev : Device σ) (info : AuthenticatorInfo) (l : Link σ) :
    Except CtapError LargeBlobArray × Link σ :=
  let (data, l) := readAll dev info l
  (data >>= LargeBlobArray.parseChecked c, l)

/-! ### Writing -/

/-- A session token, with the PIN/UV protocol it belongs to. -/
structure PinUvAuthToken where
  protocol : UInt32
  token : List UInt8
deriving DecidableEq, Repr

def PIN_PROTOCOL_V1 : UInt32 := 1

/-- HMAC of `data` under the token; version 1 keeps its first 16 bytes. -/
def PinUvAuthToken.authenticate (c : Crypto) (t : PinUvAuthToken) (data : List UInt8) :
    List UInt8 :=
  let full := c.hmacSha256 t.token data
  if t.protocol = PIN_PROTOCOL_V1 then full.take 16 else full

/-- What a `set` fragment's authentication covers. The offset is taken to 32 bits. -/
def authMessage (c : Crypto) (offset : Nat) (fragment : List UInt8) : List UInt8 :=
  List.replicate 32 0xff ++ [CTAP2_LARGE_BLOBS, 0x00] ++ Bytes.le 4 offset ++ c.sha256 fragment

def writeAuthParam (c : Crypto) (token : PinUvAuthToken) (offset : Nat) (fragment : List UInt8) :
    List UInt8 :=
  token.authenticate c (authMessage c offset fragment)

/-- The parameters of a `set` request, the total only when there is one. -/
def setParams (c : Crypto) (token : PinUvAuthToken) (offset : Nat) (total : Option Nat)
    (fragment : List UInt8) : Value :=
  .map ([(.uInt KEY_SET, .bytes fragment), (.uInt KEY_OFFSET, .uInt offset.toUInt64)] ++
    (total.map fun total => (Value.uInt KEY_LENGTH, Value.uInt total.toUInt64)).toList ++
    [(.uInt KEY_PIN_UV_AUTH_PARAM, .bytes (writeAuthParam c token offset fragment)),
      (.uInt KEY_PIN_UV_AUTH_PROTOCOL, .uInt token.protocol.toUInt64)])

/-- The loop of `write`, from `offset`. The total goes with the first fragment. An error ends the
loop, and the authenticator drops what it has of the new array when another transfer begins. -/
def writeLoop (c : Crypto) (dev : Device σ) (token : PinUvAuthToken)
    (frag : { n : Nat // 0 < n }) (serialized : List UInt8) (offset : Nat) (l : Link σ) :
    Except CtapError Unit × Link σ :=
  if offset < serialized.length then
    let stop := min (offset + frag.val) serialized.length
    let fragment := (serialized.take stop).drop offset
    let total := if offset = 0 then some serialized.length else none
    let (resp, l) := dispatch dev (setParams c token offset total fragment) l
    match resp with
    | .error e => (.error e, l)
    | .ok _ => writeLoop c dev token frag serialized stop l
  else (.ok (), l)
termination_by serialized.length - offset
decreasing_by
  have := frag.property
  omega

/-- Overwrite the stored array with `serialized`, checksum included. -/
def write (c : Crypto) (dev : Device σ) (info : AuthenticatorInfo) (token : PinUvAuthToken)
    (serialized : List UInt8) (l : Link σ) : Except CtapError Unit × Link σ :=
  writeLoop c dev token (maxFragmentLength info) serialized 0 l

end

end Keyroost.Ctap
