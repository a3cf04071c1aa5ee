import Keyroost.Library.Bytes
import Keyroost.Library.RustStr
import Keyroost.Transport.Error

/-!
# Errors and entries of a Token2 OTP key

The status words of `keyroost-token2otp/src/lib.rs` as errors with their texts, the errors of
parsing, encrypting and framing beside them, and an entry as it is written to the key, with the
checks on it.

`checkPin` reads the number of tries that are left from the status word of a refused PIN. The lemmas
recover the status word from the error (`statusWord_of_check`, `statusWord_of_checkPin`), since
the import judges a failed write by it.
-/

namespace Keyroost.Token2Otp

open Transport

/-! ### Status words -/

namespace Sw

def OK : UInt16 := 0x9000

def ENTRY_NOT_FOUND : UInt16 := 0x6A80

def ENTRY_NOT_FOUND_ALT : UInt16 := 0x6A83

def NOT_ENOUGH_SPACE : UInt16 := 0x6A84

def HID_NOT_SUPPORTED : UInt16 := 0x6A86

def BUTTON_TIMEOUT : UInt16 := 0x6FF9

def FUNCTION_NOT_SUPPORTED : UInt16 := 0x6A81

def PIN_CONDITIONS_NOT_SATISFIED : UInt16 := 0x6985

def PIN_INVALID : UInt16 := 0x6982

def PIN_LOCKED : UInt16 := 0x6983

end Sw

/-- What the applet answered, by its status words. A wrong PIN comes with the number of tries left
where the word has one. -/
inductive OtpError where
  | entryNotFound
  | notEnoughSpace
  | buttonPressRequired
  | hidNotSupported
  | functionNotSupported
  | pinConditionsNotSatisfied
  | pinInvalid
  | pinInvalidRetries (n : UInt8)
  | pinLocked
  | pinRejected
  | badStatusCode (sw : UInt16)
deriving DecidableEq, Repr

namespace OtpError

def check (sw : UInt16) : Except OtpError Unit :=
  if sw = Sw.OK then .ok ()
  else if sw = Sw.ENTRY_NOT_FOUND ∨ sw = Sw.ENTRY_NOT_FOUND_ALT then .error .entryNotFound
  else if sw = Sw.NOT_ENOUGH_SPACE then .error .notEnoughSpace
  else if sw = Sw.BUTTON_TIMEOUT then .error .buttonPressRequired
  else if sw = Sw.HID_NOT_SUPPORTED then .error .hidNotSupported
  else if sw = Sw.FUNCTION_NOT_SUPPORTED then .error .functionNotSupported
  else if sw = Sw.PIN_CONDITIONS_NOT_SATISFIED then .error .pinConditionsNotSatisfied
  else if sw = Sw.PIN_INVALID then .error .pinInvalid
  else if sw = Sw.PIN_LOCKED then .error .pinLocked
  else .error (.badStatusCode sw)

/-- `check` for the commands that can answer `63NN`. -/
def checkPin (sw : UInt16) : Except OtpError Unit :=
  if 0x6300 ≤ sw ∧ sw ≤ 0x63FF then .error (.pinInvalidRetries (sw &&& 0x00FF).toUInt8)
  else check sw

/-- The status word an error was mapped from. -/
def statusWord : OtpError → UInt16
  | .entryNotFound => Sw.ENTRY_NOT_FOUND
  | .notEnoughSpace => Sw.NOT_ENOUGH_SPACE
  | .buttonPressRequired => Sw.BUTTON_TIMEOUT
  | .hidNotSupported => Sw.HID_NOT_SUPPORTED
  | .functionNotSupported => Sw.FUNCTION_NOT_SUPPORTED
  | .pinConditionsNotSatisfied => Sw.PIN_CONDITIONS_NOT_SATISFIED
  | .pinInvalid => Sw.PIN_INVALID
  | .pinInvalidRetries n => 0x6300 ||| n.toUInt16
  | .pinLocked => Sw.PIN_LOCKED
  | .pinRejected => Sw.ENTRY_NOT_FOUND
  | .badStatusCode sw => sw

theorem check_ok {sw : UInt16} (h : check sw = .ok ()) : sw = Sw.OK := by
  by_contra hsw
  rw [check, if_neg hsw] at h
  repeat' split at h
  all_goals cases h

theorem checkPin_ok {sw : UInt16} (h : checkPin sw = .ok ()) : sw = Sw.OK := by
  rw [checkPin] at h
  split at h
  · cases h
  · exact check_ok h

end OtpError

/-- `{:04X}`. -/
def hex4 (n : UInt16) : RustStr :=
  [n >>> 12, n >>> 8, n >>> 4, n].map fun digit => (Nat.digitChar (digit.toNat % 16)).toUpper

def OtpError.display : OtpError → RustStr
  | .entryNotFound => "entry not found".toList
  | .notEnoughSpace => "not enough space on device".toList
  | .buttonPressRequired => "timed out waiting for a button press on the key".toList
  | .hidNotSupported => "HOTP-over-HID is not supported on this model".toList
  | .functionNotSupported =>
      "the device does not support this operation in its current state".toList
  | .pinConditionsNotSatisfied =>
      "PIN conditions not satisfied (no session established, or a ".toList ++
        "read/verify was attempted out of order)".toList
  | .pinInvalid => "wrong OTP PIN (or authentication tag mismatch)".toList
  | .pinInvalidRetries n =>
      "wrong OTP PIN — ".toList ++ RustStr.decimal n.toNat ++ " attempt".toList ++
        (if n = 1 then [] else ['s']) ++ " remaining before lockout".toList
  | .pinLocked =>
      "the OTP PIN is locked after too many wrong attempts; a global ".toList ++
        "OTP reset is required to recover it".toList
  | .pinRejected =>
      "the key refused this PIN: it doesn't meet the key's PIN rules ".toList ++
        "(6 or more digits with no runs such as 1234, no repeated or ".toList ++
        "mirrored patterns, or 10 or more characters mixing two kinds)".toList
  | .badStatusCode sw => "unexpected status word 0x".toList ++ hex4 sw

/-! ### Other errors -/

inductive ParseError where
  | truncated
  | malformed (what : String)
  | invalid (what : String)
deriving DecidableEq, Repr

def ParseError.display : ParseError → RustStr
  | .truncated => "response truncated mid-record".toList
  | .malformed what => "malformed response: ".toList ++ what.toList
  | .invalid what => "invalid parameter: ".toList ++ what.toList

inductive EncryptError where
  | badDevicePubkey
  | rngFailed
  | badCiphertext
  | badAuthTag
  | badLength
deriving DecidableEq, Repr

def EncryptError.display : EncryptError → RustStr
  | .badDevicePubkey => "device ECDH public key was not a valid P-256 point".toList
  | .rngFailed => "host RNG failed generating ephemeral key".toList
  | .badCiphertext => "session ciphertext failed to decrypt".toList
  | .badAuthTag => "session HMAC authentication tag mismatch".toList
  | .badLength => "PIN or challenge length is out of range for this command".toList

/-- A report of the HID channel that does not fit. Each is told at the first report that has it, and
ends the message. -/
inductive FrameError where
  | badMagic
  | chunkTooLong (len : UInt8)
  | outOfSequence (expected got : UInt8)
  | shortFrame
  | responseTooLong
deriving DecidableEq, Repr

def FrameError.display : FrameError → RustStr
  | .badMagic => "HID frame magic byte was not 0x21".toList
  | .chunkTooLong len =>
      "HID chunk length ".toList ++ RustStr.decimal len.toNat ++ " exceeds 61".toList
  | .outOfSequence expected got =>
      "HID frame out of sequence: expected ".toList ++ RustStr.decimal expected.toNat ++
        ", got ".toList ++ RustStr.decimal got.toNat
  | .shortFrame => "HID frame shorter than its 3-byte header".toList
  | .responseTooLong => "HID response exceeded the 65536-byte reassembly limit".toList

inductive OtpTransportError where
  | transportUnavailable (what : RustStr)
  | frame (e : FrameError)
  | applet (e : OtpError)
  | parse (e : ParseError)
  | encrypt (e : EncryptError)
  | pcsc (e : PcscError)
  | emptyResponse
  | pinRequired
  | pinSessionMissing
  | enumerationCapExceeded
deriving DecidableEq, Repr

/-- `Display`. The reader library has its own text for its errors. -/
def OtpTransportError.display (pcscText : PcscError → RustStr) : OtpTransportError → RustStr
  | .transportUnavailable what => "transport unavailable: ".toList ++ what
  | .frame e => "HID framing error: ".toList ++ e.display
  | .applet e => e.display
  | .parse e => e.display
  | .encrypt e => e.display
  | .pcsc e => "PC/SC error: ".toList ++ pcscText e
  | .emptyResponse => "device returned an empty response".toList
  | .pinRequired =>
      "this key's OTP codes are PIN-protected; supply the OTP PIN to unlock them".toList
  | .pinSessionMissing => "no OTP-PIN session was established before a PIN command".toList
  | .enumerationCapExceeded =>
      "the device kept reporting more OTP entries than any supported ".toList ++
        "token stores; aborting enumeration".toList

/-! ### Errors that are no success -/

/-- The error of a status word is not a success in disguise. -/
def OtpTransportError.IsFailure (e : OtpTransportError) : Prop :=
  ∀ a, e = .applet a → a.statusWord ≠ Sw.OK

theorem statusWord_of_check {sw : UInt16} {e : OtpError} (h : OtpError.check sw = .error e) :
    e.statusWord ≠ Sw.OK := by
  by_cases hsw : sw = Sw.OK
  · rw [OtpError.check, if_pos hsw] at h
    cases h
  · rw [OtpError.check, if_neg hsw] at h
    repeat' split at h
    all_goals cases h
    all_goals first | exact hsw | decide

theorem statusWord_retries (n : UInt8) : (OtpError.pinInvalidRetries n).statusWord ≠ Sw.OK := by
  intro h
  have hnat := congrArg UInt16.toNat h
  have hn : n.toNat < 2 ^ 15 := Nat.lt_trans n.toNat_lt (by decide)
  have hlt : 0x6300 ||| n.toNat < 2 ^ 15 := Nat.or_lt_two_pow (by decide) hn
  rw [OtpError.statusWord, UInt16.toNat_or, UInt8.toNat_toUInt16] at hnat
  have hok : Sw.OK.toNat = 36864 := rfl
  have hhigh : (0x6300 : UInt16).toNat = 0x6300 := rfl
  rw [hok, hhigh] at hnat
  omega

theorem statusWord_of_checkPin {sw : UInt16} {e : OtpError} (h : OtpError.checkPin sw = .error e) :
    e.statusWord ≠ Sw.OK := by
  rw [OtpError.checkPin] at h
  split at h
  · cases h
    exact statusWord_retries _
  · exact statusWord_of_check h

end Keyroost.Token2Otp

/-! ### Entries as they are written -/

namespace Keyroost.Token2Otp

inductive OtpType where
  | hotp
  | totp
deriving DecidableEq, Repr

def OtpType.toByte : OtpType → UInt8
  | .hotp => 0x00
  | .totp => 0x01

inductive Algorithm where
  | sha1
  | sha256
deriving DecidableEq, Repr

def Algorithm.toByte : Algorithm → UInt8
  | .sha1 => 0xC1
  | .sha256 => 0xC2

structure WriteEntry where
  otpType : OtpType
  algorithm : Algorithm
  timestep : UInt16
  codeLength : UInt8
  buttonRequired : Bool
  appName : RustStr
  accountName : RustStr
  seed : List UInt8
deriving DecidableEq, Repr

def badAppName (appName : RustStr) : Bool := !appName.isAscii || 64 < appName.len

def badAccountName (accountName : RustStr) : Bool :=
  !accountName.isAscii || accountName.isEmpty || 64 < accountName.len

def BAD_APP_NAME : ParseError := .invalid "app_name must be ASCII, 0..=64 bytes"

def BAD_ACCOUNT_NAME : ParseError := .invalid "account_name must be ASCII, 1..=64 bytes"

def validateCommon (timestep : UInt16) (codeLength : UInt8) (appName accountName : RustStr)
    (isTotp : Bool) : Except ParseError Unit :=
  if isTotp && timestep == 0 then .error (.invalid "timestep must be 1..=0xFFFF for TOTP")
  else if codeLength < 4 || 10 < codeLength then .error (.invalid "code_length must be 4..=10")
  else if badAppName appName then .error BAD_APP_NAME
  else if badAccountName accountName then .error BAD_ACCOUNT_NAME
  else .ok ()

/-- A name behind its length byte. -/
def named (name : RustStr) : List UInt8 := name.len.toUInt8 :: name.asBytes

def serializeWriteEntry (e : WriteEntry) : Except ParseError (List UInt8) :=
  match validateCommon e.timestep e.codeLength e.appName e.accountName (e.otpType == .totp) with
  | .error why => .error why
  | .ok () =>
      if e.seed = [] ∨ 64 < e.seed.length then
        .error (.invalid "seed must be 1..=64 bytes (decoded)")
      else
        .ok ([e.otpType.toByte, e.algorithm.toByte] ++ Bytes.be 2 e.timestep.toNat ++
          [e.codeLength, e.buttonRequired.toUInt8] ++ named e.appName ++ named e.accountName ++
          [e.seed.length.toUInt8] ++ e.seed)

/-- A write with the fields zero and no seed. -/
def serializeDeleteEntry (appName accountName : RustStr) : Except ParseError (List UInt8) :=
  if badAppName appName then .error BAD_APP_NAME
  else if badAccountName accountName then .error BAD_ACCOUNT_NAME
  else .ok (List.replicate 6 0x00 ++ named appName ++ named accountName ++ [0x00])

end Keyroost.Token2Otp
