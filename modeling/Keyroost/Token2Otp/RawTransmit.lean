import Keyroost.Token2Otp.Error
import Keyroost.Transport.AppletIo

/-!
# OTP commands over a smart-card reader

The loop continues a `61xx` answer, sends the command again with another Le, and restores a lost
link: it reconnects, selects the applet again and starts the command over. Modelled from
`keyroost-transport/src/token2otp.rs`.

The reader is a dialogue with two questions, an APDU and a reconnect. The applet that was selected
last is remembered from the commands that go through (`recordSelect`), as the source does it, so
that a restored link has the same applet behind it. The loop is bounded by three counters, for
reconnects, corrections of Le and chunks, of which each starts the ones after it anew.
-/

namespace Keyroost.Token2Otp

open Dialogue Proto Transport

/-! ### The reader -/

inductive LinkCommand where
  | transmit (apdu : List UInt8)
  /-- A transmit of a SELECT with a small receive buffer. -/
  | select (apdu : List UInt8)
  | reconnect
deriving DecidableEq, Repr

abbrev LinkAnswer : LinkCommand → Type
  | .transmit _ => Except PcscError (List UInt8)
  | .select _ => Except PcscError (List UInt8)
  | .reconnect => Except PcscError Unit

def RESET_CARD : PcscError := ⟨0x80100068⟩

def REMOVED_CARD : PcscError := ⟨0x80100069⟩

def COMM_ERROR : PcscError := ⟨0x80100013⟩

/-- The link was lost and may be restored. -/
def LinkLost (e : PcscError) : Prop := e = RESET_CARD ∨ e = REMOVED_CARD ∨ e = COMM_ERROR

instance (e : PcscError) : Decidable (LinkLost e) := inferInstanceAs (Decidable (_ ∨ _ ∨ _))

/-! ### The selected applet -/

def buildSelect (aid : List UInt8) : List UInt8 :=
  [0x00, 0xA4, 0x04, 0x00, aid.length.toUInt8] ++ aid

/-- The applet on record after a command: the one a SELECT names. -/
def recordSelect (currentAid apdu : List UInt8) : List UInt8 :=
  match apdu with
  | 0x00 :: 0xA4 :: 0x04 :: 0x00 :: lc :: body =>
      if lc.toNat ≤ body.length then body.take lc.toNat else currentAid
  | _ => currentAid

def SELECT_BUFFER : Nat := 256

def readSelect (answer : Except PcscError (List UInt8)) : Except OtpTransportError Unit :=
  match answer with
  | .error e => .error (.pcsc e)
  | .ok resp =>
      if SELECT_BUFFER < resp.length then .error (.pcsc .INSUFFICIENT_BUFFER)
      else
        match splitSw resp with
        | none => .error .emptyResponse
        | some (_, sw1, sw2) => (OtpError.check (swOf sw1 sw2)).mapError .applet

/-- Reconnects, and selects the applet on record again. -/
def restore (currentAid : List UInt8) : Dialogue LinkAnswer (Except OtpTransportError Unit) :=
  .ask .reconnect fun answer =>
    match answer with
    | .error e => .done (.error (.pcsc e))
    | .ok () =>
        if currentAid = [] then .done (.ok ())
        else .ask (.select (buildSelect currentAid)) fun answer => .done (readSelect answer)

/-! ### The loop -/

def MAX_DATA : Nat := 65536

def MAX_CHUNKS : Nat := 64

def MAX_LE_RETRIES : Nat := 4

def MAX_RETRIES : Nat := 3

def REASSEMBLY_LIMIT : OtpTransportError :=
  .parse (.malformed "61xx continuation exceeded reassembly limits")

def WRONG_LE_LIMIT : OtpTransportError :=
  .parse (.malformed "card kept answering 6C to the corrected Le")

def getResponse (le : UInt8) : List UInt8 := [0x00, 0xC0, 0x00, 0x00, le]

abbrev RawAnswer : Type := Except OtpTransportError (List UInt8 × UInt16)

/-- The loop of `rawTransmit`. The source counts chunks and retries of Le up, where `left` and
`leLeft` count down. -/
def rawLoop (currentAid apdu : List UInt8) (retriesLeft leLeft left : Nat)
    (acc toSend : List UInt8) : Dialogue LinkAnswer RawAnswer :=
  .ask (.transmit toSend) fun answer =>
    match received answer with
    | .error e =>
        match retriesLeft with
        | 0 => .done (.error (.pcsc e))
        | retriesLeft + 1 =>
            if LinkLost e then
              (restore currentAid).andThen fun _ =>
                rawLoop currentAid apdu retriesLeft leLeft MAX_CHUNKS [] apdu
            else .done (.error (.pcsc e))
    | .ok resp =>
        match splitSw resp with
        | none => .done (.error .emptyResponse)
        | some (data, sw1, sw2) =>
            match left with
            | 0 => .done (.error REASSEMBLY_LIMIT)
            | left + 1 =>
                if MAX_DATA < (acc ++ data).length then .done (.error REASSEMBLY_LIMIT)
                else if sw1 = 0x61 then
                  rawLoop currentAid apdu retriesLeft leLeft left (acc ++ data) (getResponse sw2)
                else if sw1 = 0x6C then
                  match leLeft with
                  | 0 => .done (.error WRONG_LE_LIMIT)
                  | leLeft + 1 =>
                      rawLoop currentAid apdu retriesLeft leLeft MAX_CHUNKS []
                        (resendWithLe apdu sw2)
                else .done (.ok (acc ++ data, swOf sw1 sw2))
termination_by (retriesLeft + leLeft, left)

/-- One command. The applet on record is afterwards `recordSelect currentAid apdu`. -/
def rawTransmit (currentAid apdu : List UInt8) : Dialogue LinkAnswer RawAnswer :=
  rawLoop (recordSelect currentAid apdu) apdu MAX_RETRIES MAX_LE_RETRIES MAX_CHUNKS [] apdu

end Keyroost.Token2Otp
