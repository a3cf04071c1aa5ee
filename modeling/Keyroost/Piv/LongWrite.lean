import Keyroost.Library.Dialogue
import Keyroost.Piv.CertObject
import Keyroost.Piv.Commands
import Keyroost.Piv.StatusWord

/-!
# Certificates and keys written to a card

A write that needs more than a short APDU goes out as one extended-length APDU, and chained where
the link asks for it, where the extended APDU fails at the reader, or where the card answers it with
a status word worth a retry. A certificate refused for its length may go out once more, compressed.
`send` is how the session sends one APDU.

The functions are those of `keyroost-transport/src/piv.rs` and
`keyroost-transport/src/piv_import.rs`, over any program type that can send, so that the sessions of
`ImportRun` and of `SlotSession` use the same definitions. `LongSent` remembers which form the last
answer was for, as the judgement of that answer depends on it.
-/

namespace Keyroost.Piv

open Transport Dialogue

variable {Q : Type} {A : Q → Type}

/-- What one APDU comes back with. -/
abbrev Reply : Type := Tried (List UInt8 × UInt16)

section Send

variable (send : List UInt8 → Dialogue A Reply)

/-! ### One command -/

/-- The loop of `transmit_chain_with`. -/
def transmitChainWith (label : String) : List (List UInt8) → Dialogue A Reply
  | [] => .done (.ok ([], SW_OK))
  | [last] => send last
  | chunk :: rest =>
      (send chunk).andThen fun (_, sw) =>
        if sw ≠ SW_OK then .done (.error (.apdu label (sw >>> 8).toUInt8 sw.toUInt8))
        else transmitChainWith label rest

/-- How a long command may go out: chained from the start, for the reason given, or as one
APDU first. -/
structure LongLink where
  chainUpfront : Option String
deriving DecidableEq, Repr

/-- `afterReaderFailure`: the one APDU failed at the reader and `result` is the retry's. The card
may then have carried out a write that the retry is refused for. -/
structure LongSent where
  result : Reply
  afterReaderFailure : Bool
deriving DecidableEq, Repr

def retryChainedAfter (result : Reply) (extended : Bool) : Bool :=
  match result with
  | .error (.pcsc _) => extended
  | _ => false

def sendLong (link : LongLink) (label : String) (single : List UInt8)
    (chained : List (List UInt8)) (retryOn : UInt16 → Bool) : Dialogue A LongSent := do
  if link.chainUpfront.isSome then
    return ⟨← transmitChainWith send label chained, false⟩
  else
    let extended := usesExtendedLength single
    let direct ← send single
    if retryChainedAfter direct extended then
      return ⟨← transmitChainWith send label chained, true⟩
    else
      match direct with
      | .ok (data, sw) =>
          if extended ∧ sw ≠ SW_OK ∧ retryOn sw then
            return ⟨← transmitChainWith send label chained, false⟩
          else return ⟨.ok (data, sw), false⟩
      | .error e => return ⟨.error e, false⟩

def unconfirmedIf (afterReaderFailure : Bool) (e : TransportError) : TransportError :=
  match e with
  | .pivWriteUnconfirmed _ => e
  | e => if afterReaderFailure then .pivWriteUnconfirmed e else e

def CHAIN_CHUNK : Nat := 254

/-! ### A certificate -/

def CERT_LABEL : String := "piv import certificate"

/-- A wrong length or a full card in mid-chain is handed back as a status word. -/
def chainedCertSw (result : Reply) : Tried UInt16 :=
  match result with
  | .ok (_, sw) => .ok sw
  | .error (.apdu label sw1 sw2) =>
      if swOf sw1 sw2 = SW_WRONG_LENGTH ∨ swOf sw1 sw2 = SW_NOT_ENOUGH_MEMORY then
        .ok (swOf sw1 sw2)
      else .error (.apdu label sw1 sw2)
  | .error e => .error e

def certWriteResult (slot : Slot) (len : Nat) (sw : UInt16) : Tried Unit :=
  if sw = SW_WRONG_LENGTH then .error (.pivCertTooLarge slot len none)
  else if sw = SW_NOT_ENOUGH_MEMORY then .error (.pivCardFull slot)
  else okOrWrite CERT_LABEL sw

/-- The result, and whether a write so far failed at the reader. -/
def putCertObjectWith (link : LongLink) (slot : Slot) (value : List UInt8)
    (afterReaderFailure : Bool) : Dialogue A (Tried UInt16 × Bool) := do
  let sent ← sendLong send link CERT_LABEL (putData slot.certObjectTag value)
    (putDataChained slot.certObjectTag value CHAIN_CHUNK) (fun _ => true)
  return (chainedCertSw sent.result, afterReaderFailure || sent.afterReaderFailure)

inductive CertCompression where
  | auto
  | always
  | never
deriving DecidableEq, Repr

structure CertImport where
  compressed : Bool
  storedLen : Nat
  autoCompressed : Bool
deriving DecidableEq, Repr

/-- The compressed write of `storeCertificate`. -/
def storeCompressed (slot : Slot) (der gz : List UInt8) (triedUncompressed : Bool)
    (put : Bool → CertInfo → List UInt8 → Dialogue A (Tried Unit × Bool)) (after : Bool) :
    Dialogue A (Tried CertImport × Bool) := do
  match ← put after .gzip gz with
  | (.ok (), after) => return (.ok ⟨true, gz.length, triedUncompressed⟩, after)
  | (.error (.pivCertTooLarge _ _ _), after) =>
      return (.error (.pivCertTooLarge slot der.length (some gz.length)), after)
  | (.error e, after) => return (.error e, after)

/-- `put` takes and returns whether a write so far failed at the reader. The plain form is tried
first unless compression is always wanted, and the compressed one when the card has no room for it.
-/
def storeCertificate (gzipMember : List UInt8 → List UInt8) (slot : Slot) (der : List UInt8)
    (compression : CertCompression)
    (put : Bool → CertInfo → List UInt8 → Dialogue A (Tried Unit × Bool)) :
    Dialogue A (Tried CertImport × Bool) := do
  let triedUncompressed := compression != .always
  let gz := gzipMember der
  if triedUncompressed then
    match ← put false .uncompressed der with
    | (.ok (), after) => return (.ok ⟨false, der.length, false⟩, after)
    | (.error (.pivCertTooLarge s len c), after) =>
        if compression = .auto then storeCompressed slot der gz triedUncompressed put after
        else return (.error (.pivCertTooLarge s len c), after)
    | (.error e, after) => return (.error e, after)
  else storeCompressed slot der gz triedUncompressed put false

/-- One write of `send_certificate`. -/
def putCertificate (link : LongLink) (slot : Slot) (der : List UInt8) (after : Bool)
    (info : CertInfo) (payload : List UInt8) : Dialogue A (Tried Unit × Bool) := do
  match ← putCertObjectWith send link slot (encodeCertificate payload info) after with
  | (.ok sw, after) => return (certWriteResult slot der.length sw, after)
  | (.error e, after) => return (.error e, after)

def sendCertificate (gzipMember : List UInt8 → List UInt8) (link : LongLink) (slot : Slot)
    (der : List UInt8) (compression : CertCompression) : Dialogue A (Tried CertImport) := do
  let (stored, after) ← storeCertificate gzipMember slot der compression
    (putCertificate send link slot der)
  return stored.mapError (unconfirmedIf after)

/-! ### A key -/

def KEY_LABEL : String := "piv import key"

def SW_LAST_COMMAND_EXPECTED : UInt16 := 0x6883

def keyImportRetrySw (sw : UInt16) : Bool :=
  sw == SW_WRONG_LENGTH || sw == SW_LAST_COMMAND_EXPECTED || sw == 0x6A80

def sendImportKey (link : LongLink) (slot : Slot) (algId : UInt8) (body : List UInt8) :
    Dialogue A (Tried Unit) := do
  let sent ← sendLong send link KEY_LABEL (importKey slot algId body)
    (importKeyChained slot algId body CHAIN_CHUNK) keyImportRetrySw
  return (sent.result.bind fun (_, sw) => okOrWrite KEY_LABEL sw).mapError
    (unconfirmedIf sent.afterReaderFailure)

end Send

end Keyroost.Piv
