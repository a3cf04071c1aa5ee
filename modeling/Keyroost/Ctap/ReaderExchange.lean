import Keyroost.Piv.LongApdu
import Keyroost.Transport.AppletIo

/-!
# CTAP messages over a smart-card reader

A message goes out in one NFCCTAP_MSG command or a chain of them. Its answer may be continued
with GET RESPONSE, and the card may ask for another Le or for more time. Modelled from
`keyroost-transport/src/ctap_pcsc.rs` as a dialogue with the card: a command is a question, and the
answer is what PC/SC makes of it.

The loop of the source is a `loop` with counters for the rounds and the bytes; here it recurses on
the rounds that are left, and each way on is one case of `continuation`. `sendPieces` sends all
pieces of a message but the last as links of a chain, which have to be answered with `9000`.
-/

namespace Keyroost.Ctap

open Dialogue Transport

def NFCCTAP_CLA : UInt8 := 0x80

def NFCCTAP_INS : UInt8 := 0x10

def CLA_CHAIN : UInt8 := 0x10

def GET_RESPONSE_CLA : UInt8 := 0x00

def GET_RESPONSE_INS : UInt8 := 0xC0

def MAX_SHORT_DATA : Nat := 255

def MAX_DATA : Nat := 65536

def MAX_ITERS : Nat := 4096

/-- What stops a message. All but `apdu` are transport errors; `apdu` is the card's own word, after
the whole message was sent. -/
inductive ReaderError where
  | transmitFailed (e : PcscError)
  | tooShort (len : Nat)
  | reassemblyLimits
  | chainingRejected (sw1 sw2 : UInt8)
  | apdu (sw1 sw2 : UInt8)
deriving DecidableEq, Repr

/-! ### One exchange -/

abbrev Answered : Type := Except ReaderError (List UInt8 × UInt8 × UInt8)

def readAnswer (answer : Except PcscError (List UInt8)) : Answered :=
  match received answer with
  | .error e => .error (.transmitFailed e)
  | .ok resp =>
      match splitSw resp with
      | none => .error (.tooShort resp.length)
      | some answered => .ok answered

def exchange (apdu : List UInt8) : Dialogue CardAnswer Answered :=
  .ask apdu fun answer => .done (readAnswer answer)

def getResponse (le : UInt8) : List UInt8 := [GET_RESPONSE_CLA, GET_RESPONSE_INS, 0x00, 0x00, le]

/-- What is sent next, and the data kept before its answer's: a wrong Le sends the command
again and drops what was read. -/
def continuation (apdu data : List UInt8) (sw1 sw2 : UInt8) : Option (List UInt8 × List UInt8) :=
  if sw1 = 0x90 ∧ sw2 = 0x00 then none
  else if sw1 = 0x61 then some (getResponse sw2, data)
  else if sw1 = 0x6C then some (apdu.dropLast ++ [sw2], [])
  else if sw1 = 0x91 then some (getResponse 0x00, data)
  else none

/-- The loop of `exchange_full`: the number counts down the continuations that may follow. The
limits are looked at after an answer came, so the last one allowed is still sent. -/
def exchangeLoop (apdu : List UInt8) :
    Nat → List UInt8 → UInt8 → UInt8 → Dialogue CardAnswer Answered
  | left, data, sw1, sw2 =>
      match continuation apdu data sw1 sw2 with
      | none => .done (.ok (data, sw1, sw2))
      | some (send, kept) =>
          (exchange send).andThen fun (more, sw1, sw2) =>
            match left with
            | 0 => .done (.error .reassemblyLimits)
            | left + 1 =>
                if MAX_DATA < (kept ++ more).length then .done (.error .reassemblyLimits)
                else exchangeLoop apdu left (kept ++ more) sw1 sw2

def exchangeFull (apdu : List UInt8) : Dialogue CardAnswer Answered :=
  (exchange apdu).andThen fun (data, sw1, sw2) => exchangeLoop apdu MAX_ITERS data sw1 sw2

/-! ### One message -/

def messagePieces (message : List UInt8) : List (List UInt8) :=
  if message = [] then [[]] else Piv.chunks MAX_SHORT_DATA message

def messageApdu (cla : UInt8) (chunk : List UInt8) : List UInt8 :=
  [cla, NFCCTAP_INS, 0x00, 0x00, chunk.length.toUInt8] ++ chunk ++ [0x00]

def sendPieces : List (List UInt8) → Dialogue CardAnswer Answered
  | [] => .done (.ok ([], 0, 0))
  | [last] => exchangeFull (messageApdu NFCCTAP_CLA last)
  | chunk :: rest =>
      (exchange (messageApdu (NFCCTAP_CLA ||| CLA_CHAIN) chunk)).andThen fun (_, sw1, sw2) =>
        if sw1 = 0x90 ∧ sw2 = 0x00 then sendPieces rest
        else .done (.error (.chainingRejected sw1 sw2))

def sendCtapMessage (message : List UInt8) : Dialogue CardAnswer (Except ReaderError (List UInt8)) :=
  (sendPieces (messagePieces message)).andThen fun (data, sw1, sw2) =>
    if sw1 = 0x90 ∧ sw2 = 0x00 then .done (.ok data) else .done (.error (.apdu sw1 sw2))

end Keyroost.Ctap
