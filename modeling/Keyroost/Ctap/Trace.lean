import Keyroost.Ctap.ClientPin
import Keyroost.Ctap.Hid
import Keyroost.Ctap.ReaderExchange
import Keyroost.Library.Lines

/-!
# The debug trace of CTAP exchanges

Which lines a transaction over USB (`keyroost-ctap/src/hid.rs`), or a message through a smart-card
reader (`keyroost-transport/src/ctap_pcsc.rs`), leaves in the `--debug` trace, and which exchanges
are shown there by their length alone.

`exchangeIsSensitive` is the decision of the source, from the command and the payload.
`tracedAttempts` is `transact` with its lines beside the result, and `tracedAttempts_fst` says that
the lines are all it adds. The lines of a reader are made from the log of its dialogue
(`readerLines`), each command and its answer in turn.
-/

namespace Keyroost.Ctap.Trace

open Cbor Dialogue Transport RustStr

/-! ### Lines -/

def LABEL_WIDTH : Nat := 20

inductive Dir where
  | sent
  | received
  | note
deriving DecidableEq, Repr

def Dir.symbol : Dir → Char
  | sent => '>'
  | received => '<'
  | note => '!'

/-- A direction, a padded label and a body, with no blanks at the end. -/
def formatLine (dir : Dir) (label body : RustStr) : RustStr :=
  trimEnd ([dir.symbol, ' '] ++ label ++ List.replicate (LABEL_WIDTH - label.length) ' ' ++
    [' ', ' '] ++ body)

/-- `{b:02x}`. -/
def hexByte (b : UInt8) : RustStr := [Nat.digitChar (b.toNat / 16), Nat.digitChar (b.toNat % 16)]

/-- `{b:02X}`. -/
def upperHexByte (b : UInt8) : RustStr := (hexByte b).map Char.toUpper

def hexline (bytes : List UInt8) : RustStr := bytes.flatMap hexByte

/-- The command byte, with or without its highest bit. -/
def ctapCmdName (cmd : UInt8) : RustStr :=
  if cmd &&& 0x7F = 0x01 then "ping".toList
  else if cmd &&& 0x7F = 0x03 then "msg".toList
  else if cmd &&& 0x7F = 0x06 then "init".toList
  else if cmd &&& 0x7F = 0x08 then "wink".toList
  else if cmd &&& 0x7F = 0x10 then "cbor".toList
  else if cmd &&& 0x7F = 0x11 then "cancel".toList
  else if cmd &&& 0x7F = 0x3B then "keepalive".toList
  else if cmd &&& 0x7F = 0x3F then "error".toList
  else "0x".toList ++ hexByte cmd

/-! ### What is withheld -/

/-- The subcommand of a request's map; nothing where the bytes are no such map. -/
def clientPinSubcommand (body : List UInt8) : Option UInt64 :=
  match decode body with
  | .error _ => none
  | .ok (value, _) =>
      value.asMap.bind fun entries =>
        (entries.find? fun entry => entry.1.asUInt == some 0x02).bind fun entry => entry.2.asUInt

/-- The exchanges that are withheld both ways. -/
def exchangeIsSensitive (cmd : UInt8) (payload : List UInt8) : Bool :=
  if 0xC0 ≤ cmd then true
  else if cmd ≠ CTAPHID_CBOR then false
  else
    match payload with
    | [] => false
    | first :: body =>
        if first ∈ [(0x0A : UInt8), 0x41, 0x09, 0x40, 0x0C, 0x0D] then true
        else if first = 0x06 then
          !(clientPinSubcommand body == some 0x01 || clientPinSubcommand body == some 0x02)
        else false

def tracePayload (payload : List UInt8) (sensitive : Bool) : RustStr :=
  if sensitive then "<redacted: personal-data payload>".toList else hexline payload

/-- `len={len} {payload}`. -/
def traceBody (len : Nat) (payload : RustStr) : RustStr :=
  "len=".toList ++ decimal len ++ [' '] ++ payload

def ctapLabel (cmd : UInt8) : RustStr := "ctaphid ".toList ++ ctapCmdName cmd

def ctapLine (dir : Dir) (cmd : UInt8) (len : Nat) (payload : RustStr) : RustStr :=
  formatLine dir (ctapLabel cmd) (traceBody len payload)

/-! ### Over USB -/

/-- The note of a busy device. -/
def busyLine (cmd code : UInt8) (attempt delay : Nat) : RustStr :=
  formatLine .note (ctapLabel cmd)
    ("busy (error 0x".toList ++ hexByte code ++ "), retry ".toList ++ decimal attempt ++
      " in ".toList ++ decimal delay ++ "ms".toList)

/-- `transact` with the lines it emits. Whether the exchange is withheld is decided once, for
all of its attempts. -/
def tracedAttempts (timeout : Nat) (channelId : UInt32) (cmd : UInt8) (payload : List UInt8)
    (sensitive : Bool) : Nat → List Attempt →
      Option (Except HidTransportError (List UInt8) × List Attempt) × List RustStr
  | _, [] => (none, [])
  | attempt, a :: attempts =>
      let sent := ctapLine .sent cmd payload.length (tracePayload payload sensitive)
      match attemptOnce timeout channelId cmd payload a with
      | none => (none, [sent])
      | some (.ok resp, _) =>
          (some (.ok resp, attempts),
            [sent, ctapLine .received cmd resp.length (tracePayload resp sensitive)])
      | some (.error (.deviceError code), _) =>
          match busyRetryDelay code attempt a.elapsed with
          | none => (some (.error (.deviceError code), attempts), [sent])
          | some delay =>
              let note := busyLine cmd code attempt delay
              match sleepBetweenAttempts a with
              | .error e => (some (.error e, attempts), [sent, note])
              | .ok () =>
                  let (result, lines) :=
                    tracedAttempts timeout channelId cmd payload sensitive (attempt + 1) attempts
                  (result, [sent, note] ++ lines)
      | some (.error e, _) => (some (.error e, attempts), [sent])

def tracedTransact (timeout : Nat) (channelId : UInt32) (cmd : UInt8) (payload : List UInt8)
    (attempts : List Attempt) :
    Option (Except HidTransportError (List UInt8) × List Attempt) × List RustStr :=
  tracedAttempts timeout channelId cmd payload (exchangeIsSensitive cmd payload) 1 attempts

/-- The trace changes nothing about a transaction. -/
theorem tracedAttempts_fst (timeout : Nat) (channelId : UInt32) (cmd : UInt8)
    (payload : List UInt8) (sensitive : Bool) (attempt : Nat) (attempts : List Attempt) :
    (tracedAttempts timeout channelId cmd payload sensitive attempt attempts).1 =
      CtapHidDevice.transact timeout channelId cmd payload attempt attempts := by
  induction attempts generalizing attempt with
  | nil => rfl
  | cons a attempts ih =>
      rw [tracedAttempts, CtapHidDevice.transact]
      cases attemptOnce timeout channelId cmd payload a with
      | none => rfl
      | some receipt =>
          rcases receipt with ⟨e | resp, polls⟩
          · cases e with
            | deviceError code =>
                cases hdelay : busyRetryDelay code attempt a.elapsed with
                | none => simp only [hdelay]
                | some delay =>
                    cases sleepBetweenAttempts a with
                    | error e => simp only [hdelay]
                    | ok u =>
                        simp only [hdelay]
                        exact ih (attempt + 1)
            | _ => rfl
          · rfl

/-! ### Through a smart-card reader -/

def TRACE_LABEL : RustStr := "ctap reader".toList

def traceMessage (dir : Dir) (label : RustStr) (request body : List UInt8) : RustStr :=
  formatLine dir label
    (traceBody body.length (tracePayload body (exchangeIsSensitive CTAPHID_CBOR request)))

def NO_ACCESS : PcscError := ⟨0x80100027⟩

section

variable (windows : Bool) (pcscText : PcscError → RustStr)

/-- What `transmit_error` says of a PC/SC error. -/
def transmitError (e : PcscError) : RustStr :=
  if windows && e == NO_ACCESS then
    "Windows lets only a program running as administrator reach a key's ".toList ++
      "FIDO2 side, through its smart-card reader too".toList
  else "APDU transmit failed: ".toList ++ pcscText e

/-- An error of the reader, as `CtapError` prints it. -/
def readerErrorText : ReaderError → RustStr
  | .transmitFailed e => "reader transport error: ".toList ++ transmitError windows pcscText e
  | .tooShort len =>
      "reader transport error: APDU response too short (".toList ++ decimal len ++
        " bytes)".toList
  | .reassemblyLimits =>
      "reader transport error: APDU continuation exceeded reassembly limits".toList
  | .chainingRejected sw1 sw2 =>
      "reader transport error: command chaining rejected (SW ".toList ++ upperHexByte sw1 ++
        upperHexByte sw2 ++ ")".toList
  | .apdu sw1 sw2 =>
      "the card refused the FIDO request (".toList ++ upperHexByte sw1 ++ upperHexByte sw2 ++
        ")".toList

/-- The line of an exchange that the reader did not carry. -/
def transmitLine (asked : Asked CardAnswer) : Option RustStr :=
  match received asked.2 with
  | .error e => some (formatLine .received TRACE_LABEL ("PC/SC error: ".toList ++ pcscText e))
  | .ok _ => none

/-- The last line of a message. -/
def outcomeLine (request : List UInt8) : Except ReaderError (List UInt8) → RustStr
  | .ok resp => traceMessage .received TRACE_LABEL request resp
  | .error e => formatLine .note TRACE_LABEL (readerErrorText windows pcscText e)

/-- The lines of a message that the card answered with `log` and that came to `outcome`. -/
def readerLines (request : List UInt8) (log : List (Asked CardAnswer))
    (outcome : Except ReaderError (List UInt8)) : List RustStr :=
  traceMessage .sent TRACE_LABEL request request :: log.filterMap (transmitLine pcscText) ++
    [outcomeLine windows pcscText request outcome]

end

end Keyroost.Ctap.Trace
