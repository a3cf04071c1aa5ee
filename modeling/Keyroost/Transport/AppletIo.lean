import Keyroost.Library.Dialogue
import Keyroost.Proto.Apdu
import Keyroost.Transport.Error

/-!
# Applet exchanges

One applet command and its whole answer, from `keyroost-transport/src/lib.rs`: a `61xx` answer is
continued with GET RESPONSE, a `6Cxx` answer reissues the APDU in flight with the corrected Le. The
loop asks the card one APDU at a time.

What a status word asks for is one function (`classifySw`), and the state of the exchange is the
command in flight and the data gathered so far. The loop recurses on the answers that may still
come, up to the limit of the source. The applets share it, and differ in the instruction that
fetches more and in the label of their errors, which is all that `Applet` says of them.
-/

namespace Keyroost.Transport

open Proto

/-! ### The card -/

/-- `card.transmit` of the PC/SC layer: the response bytes, or the layer's own error. -/
abbrev CardAnswer (_ : List UInt8) : Type := Except PcscError (List UInt8)

/-- The receive buffer of a transmit. -/
def RECV_BUFFER : Nat := 4096

/-- A response that does not fit the buffer is an error, not a truncated response. -/
def received (answer : Except PcscError (List UInt8)) : Except PcscError (List UInt8) :=
  match answer with
  | .error e => .error e
  | .ok resp => if RECV_BUFFER < resp.length then .error .INSUFFICIENT_BUFFER else .ok resp

theorem received_of_le {resp : List UInt8} (h : resp.length ≤ RECV_BUFFER) :
    received (.ok resp) = .ok resp := if_neg (Nat.not_lt.mpr h)

theorem received_ok {answer : Except PcscError (List UInt8)} {resp : List UInt8}
    (h : received answer = .ok resp) : answer = .ok resp ∧ resp.length ≤ RECV_BUFFER := by
  rcases answer with e | resp'
  · cases h
  · rw [received] at h
    split at h
    · cases h
    · next hfits =>
        cases h
        exact ⟨rfl, Nat.le_of_not_lt hfits⟩

/-- The data and the two status bytes of a response. -/
def splitSw (resp : List UInt8) : Option (List UInt8 × UInt8 × UInt8) :=
  match resp.drop (resp.length - 2) with
  | [sw1, sw2] => some (resp.take (resp.length - 2), sw1, sw2)
  | _ => none

@[simp] theorem splitSw_append (data : List UInt8) (sw1 sw2 : UInt8) :
    splitSw (data ++ [sw1, sw2]) = some (data, sw1, sw2) := by
  simp [splitSw]

theorem eq_of_splitSw {resp data : List UInt8} {sw1 sw2 : UInt8}
    (h : splitSw resp = some (data, sw1, sw2)) : resp = data ++ [sw1, sw2] := by
  rw [splitSw] at h
  split at h
  · next hdrop =>
      cases h
      rw [← hdrop, List.take_append_drop]
  · cases h

/-! ### Status words -/

structure AppletIo where
  label : String
  moreDataSw : UInt8
  getResponse : List UInt8
deriving DecidableEq, Repr

inductive SwAction where
  | done
  | moreData
  | wrongLe (le : UInt8)
deriving DecidableEq, Repr

def classifySw (sw1 moreDataSw sw2 : UInt8) : SwAction :=
  if sw1 = moreDataSw then .moreData
  else if sw1 = 0x6C then .wrongLe sw2
  else .done

inductive Continuation where
  | done
  | send (apdu : List UInt8)
deriving DecidableEq, Repr

/-- What follows one exchange, and the data gathered so far. -/
def advanceExchange (moreDataSw : UInt8) (getResponse toSend data : List UInt8)
    (sw1 sw2 : UInt8) (acc : List UInt8) : Continuation × List UInt8 :=
  match classifySw sw1 moreDataSw sw2 with
  | .moreData => (.send (resendWithLe getResponse sw2), acc ++ data)
  | .wrongLe le => (.send (resendWithLe toSend le), acc)
  | .done => (.done, acc ++ data)

/-! ### The loop -/

def MAX_REASSEMBLED_RESPONSE : Nat := 2 ^ 20
def MAX_RESPONSE_CHUNKS : Nat := 4096

def CHUNK_LIMIT : TransportError :=
  .malformedResponse "applet continuation exceeded the chunk limit"

def REASSEMBLY_LIMIT : TransportError :=
  .malformedResponse "61xx continuation exceeded the reassembly limit"

/-- The loop of `transmitApplet`. `left` is how many more answers it takes: the source's
`chunks` counts up to `MAX_RESPONSE_CHUNKS` where this counts down to 0. -/
def transmitLoop (io : AppletIo) :
    Nat → List UInt8 → List UInt8 →
      Dialogue CardAnswer (Except TransportError (List UInt8 × UInt16))
  | left, toSend, acc =>
      .ask toSend fun answer =>
        match received answer with
        | .error e => .done (.error (.pcsc e))
        | .ok resp =>
            match splitSw resp with
            | none => .done (.error (.shortResponse io.label resp.length 2))
            | some (data, sw1, sw2) =>
                match left with
                | 0 => .done (.error CHUNK_LIMIT)
                | left + 1 =>
                    match advanceExchange io.moreDataSw io.getResponse toSend data sw1 sw2
                        acc with
                    | (.send next, acc) =>
                        if MAX_REASSEMBLED_RESPONSE < acc.length then
                          .done (.error REASSEMBLY_LIMIT)
                        else transmitLoop io left next acc
                    | (.done, acc) => .done (.ok (acc, swOf sw1 sw2))

def transmitApplet (io : AppletIo) (apdu : List UInt8) :
    Dialogue CardAnswer (Except TransportError (List UInt8 × UInt16)) :=
  transmitLoop io MAX_RESPONSE_CHUNKS apdu []

/-! ### The applets -/

/-- How an OATH applet continues a `61xx` answer: the Yubico applet by an instruction of its own,
Nitrokey's by GET RESPONSE. The wrong one loses the rest of the answer, so SELECT tells which it is.
-/
inductive MoreData where
  | sendRemaining
  | getResponse
deriving DecidableEq, Repr

/-- The applets that exchange commands this way. -/
inductive Applet where
  | openpgp
  | oath (moreData : MoreData)
  | piv
deriving DecidableEq, Repr

/-- The header of an applet's continuation command, which is sent with an Le. -/
def Applet.continuation : Applet → ShortApdu
  | .openpgp | .piv | .oath .getResponse => ⟨0x00, 0xC0, 0x00, 0x00, [], some 0x00, by decide⟩
  | .oath .sendRemaining => ⟨0x00, 0xA5, 0x00, 0x00, [], some 0x00, by decide⟩

def Applet.io : Applet → AppletIo
  | .openpgp => ⟨"openpgp", 0x61, buildApduGet 0x00 0xC0 0x00 0x00 0x00⟩
  | .oath .sendRemaining => ⟨"oath", 0x61, buildApduGet 0x00 0xA5 0x00 0x00 0x00⟩
  | .oath .getResponse => ⟨"oath", 0x61, buildApduGet 0x00 0xC0 0x00 0x00 0x00⟩
  | .piv => ⟨"piv", 0x61, buildApduGet 0x00 0xC0 0x00 0x00 0x00⟩

theorem Applet.getResponse_eq (applet : Applet) :
    applet.io.getResponse = applet.continuation.bytes := by
  rcases applet with _ | moreData | _
  · rfl
  · cases moreData <;> rfl
  · rfl

theorem Applet.moreDataSw_eq (applet : Applet) : applet.io.moreDataSw = 0x61 := by
  rcases applet with _ | moreData | _
  · rfl
  · cases moreData <;> rfl
  · rfl

end Keyroost.Transport
