import Keyroost.Piv.LongApdu
import Keyroost.Token2Otp.Error
import Keyroost.Transport.AppletIo

/-!
# Report framing of the Token2 OTP interface

An APDU goes out in reports of 64 bytes, numbered from 0 to 15 over and over. The answer comes back
in the same reports, with busy ones between them while the key is still working. Modelled from
`keyroost-token2otp/src/hidframe.rs` and `keyroost-transport/src/token2otp.rs`.

The assembler takes one report after the other (`push`) and gives nothing where the source would
panic: its count of busy reports in a row is a 32-bit number, added to with overflow checks on.
`drive` feeds it a list of reports. Reading takes polls of the device with the time of each, and a
reading that would go on past the last of them is still waiting (`Wait`).
-/

namespace Keyroost.Token2Otp

open Piv (chunks)
open Transport (splitSw swOf)

def REPORT_PAYLOAD : Nat := 64

def PAYLOAD_HEADER : Nat := 3

def MAX_CHUNK : Nat := REPORT_PAYLOAD - PAYLOAD_HEADER

def MAGIC : UInt8 := 0x21

def FLAG_MORE : UInt8 := 0x20

def FLAG_BUSY : UInt8 := 0xC0

def FLAG_LAST : UInt8 := 0x00

/-- Upper bound on a reassembled answer. -/
def MAX_RESPONSE : Nat := 64 * 1024

/-! ### Sending -/

/-- One report as it is written, the report ID in front. -/
def frame (flags seq : UInt8) (chunk : List UInt8) : List UInt8 :=
  [0x00, MAGIC, flags ||| seq, chunk.length.toUInt8] ++ chunk ++
    List.replicate (MAX_CHUNK - chunk.length) 0x00

/-- `n.div_ceil(MAX_CHUNK)`. -/
def totalChunks (n : Nat) : Nat := (n + (MAX_CHUNK - 1)) / MAX_CHUNK

def buildSendFrames (apdu : List UInt8) : List (List UInt8) :=
  if apdu = [] then [frame FLAG_LAST 0 []]
  else
    (chunks MAX_CHUNK apdu).mapIdx fun i chunk =>
      frame (if i + 1 = totalChunks apdu.length then FLAG_LAST else FLAG_MORE) (i % 16).toUInt8 chunk

/-! ### Assembling -/

inductive Step where
  | needMore
  | busy (retries : UInt32)
  | done
deriving DecidableEq, Repr

/-- What was collected of an answer. `received` comes round after 256 reports; `busyRetries`
counts the busy reports since the last other one, and does not come round. -/
structure ResponseAssembler where
  buf : List UInt8
  received : UInt8
  busyRetries : UInt32
  done : Bool
deriving DecidableEq, Repr

namespace ResponseAssembler

def new : ResponseAssembler where
  buf := []
  received := 0
  busyRetries := 0
  done := false

/-- A report from its magic byte on, where the report ID may stand before it. -/
def payloadOf (raw : List UInt8) : List UInt8 :=
  if raw[0]? = some 0x00 ∧ raw[1]? = some MAGIC then raw.drop 1 else raw

/-- A report that is not busy: its flags, number and length byte, and what follows. Its number is
checked first, and the count of busy reports starts again whatever it holds. -/
def accept (asm : ResponseAssembler) (flags seq len : UInt8) (rest : List UInt8) :
    Except FrameError Step × ResponseAssembler :=
  let asm := { asm with busyRetries := 0 }
  if seq ≠ asm.received % 16 then (.error (.outOfSequence (asm.received % 16) seq), asm)
  else
    let asm := { asm with received := asm.received + 1 }
    if MAX_CHUNK < len.toNat then (.error (.chunkTooLong len), asm)
    else if rest.length < len.toNat then (.error .shortFrame, asm)
    else if MAX_RESPONSE < asm.buf.length + len.toNat then (.error .responseTooLong, asm)
    else
      let asm := { asm with buf := asm.buf ++ rest.take len.toNat }
      if flags &&& FLAG_MORE ≠ 0 then (.ok .needMore, asm)
      else (.ok .done, { asm with done := true })

/-- Offer one report. The source is built with overflow checks: it panics (`none`) where one more
busy report does not fit in the count. -/
def push (asm : ResponseAssembler) (raw : List UInt8) :
    Option (Except FrameError Step × ResponseAssembler) :=
  match payloadOf raw with
  | magic :: control :: len :: rest =>
      if magic ≠ MAGIC then some (.error .badMagic, asm)
      else if control &&& 0xF0 = FLAG_BUSY then
        if asm.busyRetries = 0xFFFFFFFF then none
        else
          some (.ok (.busy (asm.busyRetries + 1)), { asm with busyRetries := asm.busyRetries + 1 })
      else some (asm.accept (control &&& 0xF0) (control &&& 0x0F) len rest)
  | _ => some (.error .shortFrame, asm)

/-- The data and the status word at the end. -/
def intoResponse (asm : ResponseAssembler) : Option (List UInt8 × UInt16) :=
  (splitSw asm.buf).map fun (data, sw1, sw2) => (data, swOf sw1 sw2)

/-- How far a sequence of reports drives an assembler. `panicked` is the counter of busy reports
passing its last value. -/
inductive Drive where
  | waiting (asm : ResponseAssembler)
  | done (asm : ResponseAssembler) (rest : List (List UInt8))
  | refused (e : FrameError)
  | panicked
deriving DecidableEq, Repr

def drive (asm : ResponseAssembler) : List (List UInt8) → Drive
  | [] => .waiting asm
  | raw :: raws =>
      match asm.push raw with
      | none => .panicked
      | some (.error e, _) => .refused e
      | some (.ok .done, asm) => .done asm raws
      | some (.ok _, asm) => asm.drive raws

end ResponseAssembler

/-! ### A command and its answer -/

/-- One turn of the reading loop: the time it sees, and what its read gives. -/
structure Poll where
  now : Nat
  read : Except RustStr (Option (List UInt8))
deriving DecidableEq, Repr

/-- Where the reading loop stands: a report came, and the button prompt was shown. It is shown from
the third busy report in a row on, where the caller asked for it. -/
structure HidReading where
  asm : ResponseAssembler
  gotFrame : Bool
  prompted : Bool
deriving DecidableEq, Repr

def HidReading.new : HidReading where
  asm := .new
  gotFrame := false
  prompted := false

def NO_RESPONSE : RustStr := "device sent no response before the timeout".toList

def HidReading.timedOut (r : HidReading) : OtpTransportError :=
  if r.gotFrame then .applet .buttonPressRequired else .transportUnavailable NO_RESPONSE

def ResponseAssembler.finish (asm : ResponseAssembler) :
    Except OtpTransportError (List UInt8 × UInt16) :=
  match asm.intoResponse with
  | none => .error .emptyResponse
  | some answer => .ok answer

/-- What a command comes to: its result, whether it prompted, and the polls it leaves. -/
structure Transmitted where
  result : Except OtpTransportError (List UInt8 × UInt16)
  prompted : Bool
  rest : List Poll
deriving DecidableEq, Repr

/-- How far the reading loop comes with some polls. It may wait for another one, return, or end in
the overflow of a checked addition. -/
inductive Wait where
  | waiting
  | returned (t : Transmitted)
  | panicked
deriving DecidableEq, Repr

/-- The reading loop. The deadline is looked at before each read; a reader's error, a refused report
or the last one ends the loop before it. -/
def readResponse (deadline : Nat) (detectButtonWait : Bool) : HidReading → List Poll → Wait
  | _, [] => .waiting
  | r, p :: polls =>
      if deadline ≤ p.now then .returned ⟨.error r.timedOut, r.prompted, polls⟩
      else
        match p.read with
        | .error text => .returned ⟨.error (.transportUnavailable text), r.prompted, polls⟩
        | .ok none => readResponse deadline detectButtonWait r polls
        | .ok (some raw) =>
            match r.asm.push raw with
            | none => .panicked
            | some (.error e, _) => .returned ⟨.error (.frame e), r.prompted, polls⟩
            | some (.ok .done, asm) => .returned ⟨asm.finish, r.prompted, polls⟩
            | some (.ok (.busy retries), asm) =>
                readResponse deadline detectButtonWait
                  ⟨asm, true, r.prompted || (detectButtonWait && decide (3 ≤ retries))⟩ polls
            | some (.ok .needMore, asm) =>
                readResponse deadline detectButtonWait ⟨asm, true, r.prompted⟩ polls

/-- `HidOtpTransport::transmit`: how its writes end, the time its wait starts, and the polls of
it. -/
def hidTransmit (timeout : Nat) (detectButtonWait : Bool) (writes : Except RustStr Unit)
    (started : Nat) (polls : List Poll) : Wait :=
  match writes with
  | .error text => .returned ⟨.error (.transportUnavailable text), false, polls⟩
  | .ok () => readResponse (started + timeout) detectButtonWait .new polls

end Keyroost.Token2Otp
