import Keyroost.Library.Padding
import Keyroost.Proto.Apdu
import Keyroost.Proto.Sm4

/-!
# Commands of the Molto2

The values a Molto2 slot can store, and the commands of `keyroost-proto/src/commands.rs` that store
them. A secure command's body is encrypted block by block and carries a MAC over its header, in the
plain class, and the encrypted part.

The parameters of a profile are enumerations, so a value that the token does not know cannot be
built; the planner of an import decides which of them an entry has. The cipher is `Sm4`. The same
construction serves the single-profile token, whose commands are the subject of `SeedsDistinct`.
-/

namespace Keyroost.Proto

/-! ### Profile parameters -/

inductive HmacAlgo where
  | sha1
  | sha256
deriving DecidableEq, Repr

inductive OtpDigits where
  | four
  | six
  | eight
  | ten
deriving DecidableEq, Repr

/-- `OtpDigits::as_byte`: the code length itself. -/
def OtpDigits.asByte : OtpDigits → UInt8
  | .four => 4
  | .six => 6
  | .eight => 8
  | .ten => 10

inductive TimeStep where
  | seconds30
  | seconds60
deriving DecidableEq, Repr

/-- The discriminant of a time step: its seconds. -/
def TimeStep.seconds : TimeStep → UInt32
  | .seconds30 => 30
  | .seconds60 => 60

inductive DisplayTimeout where
  | sec15
  | sec30
  | sec60
  | sec120
deriving DecidableEq, Repr

/-- What a slot is configured with. `utcTime` sets its clock. -/
structure ProfileConfig where
  displayTimeout : DisplayTimeout
  algorithm : HmacAlgo
  digits : OtpDigits
  timeStep : TimeStep
  utcTime : UInt32
deriving DecidableEq, Repr

/-! ### Secure commands -/

def CLA_PLAIN : UInt8 := 0x80

def CLA_SECURE : UInt8 := 0x84

/-! ### Padding and MAC -/

/-- The zeros behind the mark, up to a whole number of blocks. -/
def zerosTo16 (len : Nat) : Nat := (16 - len % 16) % 16

def padIso7816Minimal (data : List UInt8) : List UInt8 :=
  if data.length % 16 = 0 then data
  else Padding.pad 0x80 0x00 (zerosTo16 (data.length + 1)) data

/-- The first four bytes of the last block. The header is the five bytes in front of the
payload, with the payload's length. -/
def mac (sm4Key : Bytes16) (header payload : List UInt8) : List UInt8 :=
  let buf := (Sm4.new sm4Key).encryptCbc (List.replicate 16 0)
    (padIso7816Minimal (header ++ payload))
  (buf.drop (buf.length - 16)).take 4

/-! ### The command -/

structure Command where
  label : String
  apdu : List UInt8
deriving DecidableEq, Repr

/-- What `set_seed` of either crate sends of a padded seed. -/
def seedCommand (sm4Key : Bytes16) (profile : UInt8) (padded : List UInt8) : Command :=
  let enc := (Sm4.new sm4Key).encryptEcb padded
  let body := enc ++ mac sm4Key [CLA_PLAIN, 0xC5, 0x01, profile, enc.length.toUInt8] enc
  ⟨"set seed", buildApdu CLA_SECURE 0xC5 0x01 profile body⟩

/-- The seed is asserted to be of 1 to 63 bytes: `none` is the panic. -/
def setSeed (sm4Key : Bytes16) (profile : UInt8) (seed : List UInt8) : Option Command :=
  if seed ≠ [] ∧ seed.length ≤ 63 then some (seedCommand sm4Key profile (padIso7816Minimal seed))
  else none

end Keyroost.Proto
