import Keyroost.Library.Bytes

/-!
# The CTAPHID transport

Messages travel in 64-byte reports: an initial report with the channel, the command and the byte
count, then continuation reports with the channel and a sequence number. Modelled from
`keyroost-ctap/src/hid.rs`: `send`, the two loops of `recv`, and `transact` with its repeats while
the device says that its channel is busy.

The clock, the cancel flag and what each read of the device gives are the environment's. The
functions take them as a list of polls, one for each turn of a loop, and a receive that would go on
past the end of the list gives nothing (`Receipt`): it is still waiting. Times are readings of the
clock, and so is the deadline, which a KEEPALIVE pushes out.
-/

namespace Keyroost.Ctap

/-! ### Constants and errors -/

def CTAPHID_REPORT_SIZE : Nat := 64
def CTAPHID_MAX_PAYLOAD : Nat := 7609
def INIT_FRAME_HEADER : Nat := 7
def CONT_FRAME_HEADER : Nat := 5
def INIT_FRAME_DATA : Nat := CTAPHID_REPORT_SIZE - INIT_FRAME_HEADER
def CONT_FRAME_DATA : Nat := CTAPHID_REPORT_SIZE - CONT_FRAME_HEADER

def CTAPHID_CBOR : UInt8 := 0x90
def CTAPHID_KEEPALIVE : UInt8 := 0xBB
def CTAPHID_ERROR : UInt8 := 0xBF
def CTAPHID_ERR_CHANNEL_BUSY : UInt8 := 0x06

def CHANNEL_BUSY_MAX_ATTEMPTS : Nat := 4
/-- Milliseconds, as every time here. -/
def CHANNEL_BUSY_RETRY_DELAY : Nat := 200
def CHANNEL_BUSY_TOTAL_BUDGET : Nat := 1500

inductive HidTransportError where
  | io (message : String)
  | timeout
  | unexpectedCommand (expected got : UInt8)
  | initResponseTooShort
  | payloadTooLarge (n : Nat)
  | outOfSequence (expected got : UInt8)
  | deviceError (code : UInt8)
  | cancelled
  | backend (message : String)
deriving DecidableEq, Repr

/-! ### Reports -/

/-- The bytes of one report; the report ID stands before it only where it is written. The size is
part of the type: a device gives and takes reports of no other. -/
structure Report where
  bytes : List UInt8
  size : bytes.length = CTAPHID_REPORT_SIZE
deriving DecidableEq, Repr

namespace Report

/-- A zeroed report with `bytes` at its front. -/
def ofBytes (bytes : List UInt8) : Report :=
  ⟨(bytes ++ List.replicate CTAPHID_REPORT_SIZE 0).take CTAPHID_REPORT_SIZE, by simp⟩

def cid (r : Report) : UInt32 := UInt32.ofNat (Bytes.ofBe (r.bytes.take 4))

/-- The command of an initial report, the sequence number of a continuation. -/
def cmd (r : Report) : UInt8 := r.bytes.getD 4 0

def bcnt (r : Report) : Nat := Bytes.ofBe ((r.bytes.drop 5).take 2)

end Report

def initReport (cid : UInt32) (cmd : UInt8) (payload : List UInt8) : Report :=
  Report.ofBytes (Bytes.be 4 cid.toNat ++
    [cmd, (payload.length >>> 8).toUInt8, (payload.length &&& 0xFF).toUInt8] ++
    payload.take INIT_FRAME_DATA)

def contReport (cid : UInt32) (seq : UInt8) (chunk : List UInt8) : Report :=
  Report.ofBytes (Bytes.be 4 cid.toNat ++ [seq &&& 0x7F] ++ chunk)

/-! ### Sending -/

def contReports (cid : UInt32) (payload : List UInt8) (offset : Nat) (seq : UInt8) :
    List Report :=
  if offset < payload.length then
    let chunk := min (payload.length - offset) CONT_FRAME_DATA
    contReport cid seq ((payload.drop offset).take chunk) ::
      contReports cid payload (offset + chunk) (seq + 1)
  else []
termination_by payload.length - offset
decreasing_by simp only [CONT_FRAME_DATA, CTAPHID_REPORT_SIZE, CONT_FRAME_HEADER]; omega

/-- The reports of a message. -/
def reports (cid : UInt32) (cmd : UInt8) (payload : List UInt8) : List Report :=
  initReport cid cmd payload ::
    contReports cid payload (min payload.length INIT_FRAME_DATA) 0

/-- The writes of `send`: the report ID, then the report. -/
def send (cid : UInt32) (cmd : UInt8) (payload : List UInt8) :
    Except HidTransportError (List (List UInt8)) :=
  if CTAPHID_MAX_PAYLOAD < payload.length then .error (.payloadTooLarge payload.length)
  else .ok ((reports cid cmd payload).map fun r => 0x00 :: r.bytes)

/-! ### Receiving -/

/-- One turn of a waiting loop: the time and the cancel flag it sees, what its read gives,
and the flag and the time again where the report turns out to be a KEEPALIVE. -/
structure Poll where
  now : Nat
  cancelRequested : Bool
  read : Except HidTransportError (Option Report)
  keepaliveCancel : Bool
  keepaliveNow : Nat
deriving DecidableEq, Repr

def waitReport (deadline : Nat) (p : Poll) : Except HidTransportError (Option Report) :=
  if deadline ≤ p.now then .error .timeout
  else if p.cancelRequested then .error .cancelled
  else p.read

/-- What a receive comes to, with the polls it leaves; `none` while it still waits. -/
abbrev Receipt : Type := Option (Except HidTransportError (List UInt8) × List Poll)

def recvCont (expectedCid : UInt32) (deadline bcnt : Nat) :
    List UInt8 → UInt8 → List Poll → Receipt
  | payload, _, [] => if payload.length < bcnt then none else some (.ok payload, [])
  | payload, seq, p :: polls =>
      if payload.length < bcnt then
        match waitReport deadline p with
        | .error e => some (.error e, polls)
        | .ok none => recvCont expectedCid deadline bcnt payload seq polls
        | .ok (some buf) =>
            if buf.cid ≠ expectedCid then
              recvCont expectedCid deadline bcnt payload seq polls
            else if buf.cmd &&& 0x80 ≠ 0 then
              some (.error (.unexpectedCommand 0x00 buf.cmd), polls)
            else if buf.cmd ≠ seq then some (.error (.outOfSequence seq buf.cmd), polls)
            else
              let chunk := min (bcnt - payload.length) CONT_FRAME_DATA
              recvCont expectedCid deadline bcnt
                (payload ++ (buf.bytes.drop CONT_FRAME_HEADER).take chunk) (seq + 1) polls
      else some (.ok payload, p :: polls)

/-- A KEEPALIVE pushes the deadline out to `timeout` after it. Reports of other channels are passed
over and do not. -/
def recvBy (timeout : Nat) (expectedCid : UInt32) (expectedCmd : UInt8) :
    Nat → List Poll → Receipt
  | _, [] => none
  | deadline, p :: polls =>
      match waitReport deadline p with
      | .error e => some (.error e, polls)
      | .ok none => recvBy timeout expectedCid expectedCmd deadline polls
      | .ok (some buf) =>
          if buf.cid ≠ expectedCid then recvBy timeout expectedCid expectedCmd deadline polls
          else if buf.cmd = CTAPHID_KEEPALIVE then
            if p.keepaliveCancel then some (.error .cancelled, polls)
            else recvBy timeout expectedCid expectedCmd (p.keepaliveNow + timeout) polls
          else if buf.cmd = CTAPHID_ERROR then
            some (.error (.deviceError (buf.bytes.getD 7 0)), polls)
          else if buf.cmd ≠ expectedCmd then
            some (.error (.unexpectedCommand expectedCmd buf.cmd), polls)
          else if CTAPHID_MAX_PAYLOAD < buf.bcnt then
            some (.error (.payloadTooLarge buf.bcnt), polls)
          else
            recvCont expectedCid deadline buf.bcnt
              ((buf.bytes.drop INIT_FRAME_HEADER).take (min buf.bcnt INIT_FRAME_DATA)) 0 polls

def recv (timeout : Nat) (expectedCid : UInt32) (expectedCmd : UInt8) (started : Nat)
    (polls : List Poll) : Receipt :=
  recvBy timeout expectedCid expectedCmd (started + timeout) polls

/-! ### Transactions -/

def busyRetryDelay (code : UInt8) (attempt elapsed : Nat) : Option Nat :=
  if code ≠ CTAPHID_ERR_CHANNEL_BUSY ∨ CHANNEL_BUSY_MAX_ATTEMPTS ≤ attempt then none
  else if CHANNEL_BUSY_TOTAL_BUDGET ≤ elapsed + CHANNEL_BUSY_RETRY_DELAY then none
  else some CHANNEL_BUSY_RETRY_DELAY

/-- What one attempt of a transaction meets: how its writes end, the time its receive
starts, the polls of it, and, where it is retried, the time since the first attempt and
the cancel flag before and after the pause. -/
structure Attempt where
  write : Except HidTransportError Unit
  started : Nat
  polls : List Poll
  elapsed : Nat
  cancelBefore : Bool
  cancelAfter : Bool
deriving DecidableEq, Repr

def sleepBetweenAttempts (a : Attempt) : Except HidTransportError Unit :=
  if a.cancelBefore then .error .cancelled
  else if a.cancelAfter then .error .cancelled
  else .ok ()

/-- `send` and then `recv`. -/
def attemptOnce (timeout : Nat) (channelId : UInt32) (cmd : UInt8) (payload : List UInt8)
    (a : Attempt) : Receipt :=
  match send channelId cmd payload with
  | .error e => some (.error e, a.polls)
  | .ok _ =>
      match a.write with
      | .error e => some (.error e, a.polls)
      | .ok () => recv timeout channelId cmd a.started a.polls

/-- With the attempts it did not come to; `none` while an attempt still waits. Only a busy channel
is tried again, and for so long as the budget lasts. -/
def CtapHidDevice.transact (timeout : Nat) (channelId : UInt32) (cmd : UInt8) (payload : List UInt8) :
    Nat → List Attempt → Option (Except HidTransportError (List UInt8) × List Attempt)
  | _, [] => none
  | attempt, a :: attempts =>
      match attemptOnce timeout channelId cmd payload a with
      | none => none
      | some (.ok resp, _) => some (.ok resp, attempts)
      | some (.error (.deviceError code), _) =>
          match busyRetryDelay code attempt a.elapsed with
          | none => some (.error (.deviceError code), attempts)
          | some _ =>
              match sleepBetweenAttempts a with
              | .error e => some (.error e, attempts)
              | .ok () => transact timeout channelId cmd payload (attempt + 1) attempts
      | some (.error e, _) => some (.error e, attempts)

end Keyroost.Ctap
