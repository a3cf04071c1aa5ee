import Keyroost.Ctap.LargeBlobCommands

/-!
# An authenticator that follows the large-blob rules

What CTAP 2.1 asks of an authenticator that stores a large-blob array, from its own side: which
requests it answers, with which status it refuses the others, and when a written array replaces the
stored one. Nothing here is translated from the host's code: `Authenticator` is the party that
`keyroost-ctap/src/large_blobs.rs` talks to, and the transfer is proved against it.

An `Authenticator` has the limits that it reports of itself and the check of a token's parameter as
fields; a `BlobStore` is what it stores and the array it is receiving, if any. A request that is
refused changes nothing. `device` is the whole as a function from a request's bytes to an answer's,
the canonical order of map keys and the limit on a message's size included.
-/

namespace Keyroost.Ctap

open Cbor

/-- An authenticator: the message size it reports, how large an array it stores, and the
session token it handed out with the permission to write large blobs. Offsets are
authenticated as 32-bit numbers, so no array needs more. -/
structure Authenticator where
  maxMsgSize : Option UInt64
  capacity : Nat
  /-- Whether writes need a PIN/UV token. -/
  pinSet : Bool
  token : PinUvAuthToken
  msgSize_room : 64 < (maxMsgSize.getD 1024).toNat
  capacity_lt : capacity < 2 ^ 32
  protocol_known : token.protocol = 1 ∨ token.protocol = 2

/-- The stored array, and the array being received. A transfer states its length with the first
piece and replaces what is stored with the last, once the checksum is right. -/
structure BlobStore where
  stored : List UInt8
  expectedLength : Nat
  expectedNextOffset : Nat
  pending : List UInt8
deriving DecidableEq, Repr

/-- The parameters of a request, each of them present or not. The authenticator checks which go
together, as its specification says. -/
structure BlobRequest where
  get : Option UInt64
  set : Option (List UInt8)
  offset : Option UInt64
  length : Option UInt64
  pinUvAuthParam : Option (List UInt8)
  pinUvAuthProtocol : Option UInt64
deriving DecidableEq, Repr

def BlobRequest.ofValue (v : Value) : BlobRequest where
  get := (v.getUIntKey 1).bind Value.asUInt
  set := (v.getUIntKey 2).bind Value.asBytes
  offset := (v.getUIntKey 3).bind Value.asUInt
  length := (v.getUIntKey 4).bind Value.asUInt
  pinUvAuthParam := (v.getUIntKey 5).bind Value.asBytes
  pinUvAuthProtocol := (v.getUIntKey 6).bind Value.asUInt

namespace Authenticator

def INVALID_COMMAND : UInt8 := 0x01
def INVALID_PARAMETER : UInt8 := 0x02
def INVALID_LENGTH : UInt8 := 0x03
def INVALID_SEQ : UInt8 := 0x04
def INVALID_CBOR : UInt8 := 0x12
def MISSING_PARAMETER : UInt8 := 0x14
def PIN_AUTH_INVALID : UInt8 := 0x33
def PUAT_REQUIRED : UInt8 := 0x36
def REQUEST_TOO_LARGE : UInt8 := 0x39
def INTEGRITY_FAILURE : UInt8 := 0x3d
def LARGE_BLOB_STORAGE_FULL : UInt8 := 0x42

variable (c : Crypto) (auth : Authenticator)

def msgSize : Nat := (auth.maxMsgSize.getD 1024).toNat

def maxFragmentLength : Nat := auth.msgSize - 64

/-- The `get` rules: the bytes from `offset` on, at most `count` of them. -/
def handleGet (st : BlobStore) (r : BlobRequest) (offset count : Nat) : Except UInt8 Value :=
  if r.length.isSome ∨ r.pinUvAuthParam.isSome ∨ r.pinUvAuthProtocol.isSome then
    .error INVALID_PARAMETER
  else if auth.maxFragmentLength < count then .error INVALID_LENGTH
  else if st.stored.length < offset then .error INVALID_PARAMETER
  else .ok (.map [(.uInt 1, .bytes ((st.stored.drop offset).take count))])

/-- The first fragment opens a transfer of the length it declares; the others declare
none. -/
def openTransfer (st : BlobStore) (r : BlobRequest) (offset : Nat) : Except UInt8 BlobStore :=
  if offset = 0 then
    match r.length with
    | none => .error INVALID_PARAMETER
    | some length =>
        if 1024 < length.toNat ∧ auth.capacity < length.toNat then .error LARGE_BLOB_STORAGE_FULL
        else if length.toNat < 17 then .error INVALID_PARAMETER
        else .ok { st with expectedLength := length.toNat, expectedNextOffset := 0 }
  else if r.length.isSome then .error INVALID_PARAMETER
  else .ok st

/-- `32×0xff || 0x0c 0x00 || uint32LE(offset) || SHA-256(set)` under the token. -/
def expectedParam (offset : Nat) (fragment : List UInt8) : List UInt8 :=
  let tag := c.hmacSha256 auth.token.token
    (List.replicate 32 0xff ++ [0x0c, 0x00] ++ Bytes.le 4 offset ++ c.sha256 fragment)
  if auth.token.protocol = 1 then tag.take 16 else tag

def checkParam (r : BlobRequest) (offset : Nat) (fragment : List UInt8) : Except UInt8 Unit :=
  if auth.pinSet = false then .ok ()
  else
    match r.pinUvAuthParam, r.pinUvAuthProtocol with
    | none, _ => .error PUAT_REQUIRED
    | some _, none => .error MISSING_PARAMETER
    | some param, some protocol =>
        if protocol ≠ auth.token.protocol.toUInt64 then .error INVALID_PARAMETER
        else if param ≠ expectedParam c auth offset fragment then .error PIN_AUTH_INVALID
        else .ok ()

/-- The fragment joins the array being received; once that is complete and its checksum
right, it replaces the stored one. -/
def receive (st : BlobStore) (offset : Nat) (fragment : List UInt8) : Except UInt8 BlobStore :=
  let pending := (if offset = 0 then [] else st.pending) ++ fragment
  let st := { st with pending, expectedNextOffset := pending.length }
  if pending.length = st.expectedLength then
    if pending.drop (pending.length - 16) = (c.sha256 (pending.take (pending.length - 16))).take 16
    then .ok { st with stored := pending }
    else .error INTEGRITY_FAILURE
  else .ok st

/-- The `set` rules. -/
def handleSet (st : BlobStore) (r : BlobRequest) (offset : Nat) (fragment : List UInt8) :
    Except UInt8 BlobStore := do
  if auth.maxFragmentLength < fragment.length then throw INVALID_LENGTH
  let st ← openTransfer auth st r offset
  if offset ≠ st.expectedNextOffset then throw INVALID_SEQ
  checkParam c auth r offset fragment
  if st.expectedLength < offset + fragment.length then throw INVALID_PARAMETER
  receive c st offset fragment

/-- A request is either a `get` or a `set`, and names an offset. -/
def handle (st : BlobStore) (r : BlobRequest) : List UInt8 × BlobStore :=
  match r.offset, r.get, r.set with
  | some offset, some count, none =>
      match handleGet auth st r offset.toNat count.toNat with
      | .ok v => (0x00 :: encode v, st)
      | .error status => ([status], st)
  | some offset, none, some fragment =>
      match handleSet c auth st r offset.toNat fragment with
      | .ok st' => ([0x00], st')
      | .error status => ([status], st)
  | _, _, _ => ([INVALID_PARAMETER], st)

/-- Whether the keys are unsigned integers in ascending order. -/
def ascending : List (Option UInt64) → Bool
  | some k :: some k' :: keys => decide (k < k') && ascending (some k' :: keys)
  | [some _] => true
  | [] => true
  | _ => false

/-- One message: of the reported size at most, the large-blob command, and one map in
canonical form. -/
def respond (st : BlobStore) (payload : List UInt8) : List UInt8 × BlobStore :=
  if auth.msgSize < payload.length then ([REQUEST_TOO_LARGE], st)
  else
    match payload with
    | [] => ([INVALID_COMMAND], st)
    | command :: body =>
        if command ≠ 0x0c then ([INVALID_COMMAND], st)
        else
          match decode body with
          | .ok (.map entries, []) =>
              if ascending (entries.map fun entry => entry.1.asUInt) = true ∧
                  encode (.map entries) = body then
                handle c auth st (.ofValue (.map entries))
              else ([INVALID_CBOR], st)
          | _ => ([INVALID_CBOR], st)

/-- The authenticator as a device. -/
def device : Device BlobStore := fun st payload =>
  let (resp, st) := respond c auth st payload
  (.ok resp, st)

/-- What the authenticator reports of itself. -/
def info : AuthenticatorInfo where
  maxMsgSize := auth.maxMsgSize

end Authenticator

end Keyroost.Ctap
