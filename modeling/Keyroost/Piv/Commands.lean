import Keyroost.Piv.LongApdu
import Keyroost.Piv.Types

/-!
# PIV commands

The builders of `keyroost-piv/src/lib.rs` for the commands that the modules on resets, slots and
imports send: PIN and PUK, metadata and RESET, the objects of a card, the import of a key. A PIN is
padded to eight bytes and refused when it is longer, and both commands that carry one go through
`padPin`. Commands that may be long come in two forms, over `LongApdu`.
-/

namespace Keyroost.Piv

open Proto

def INS_VERIFY : UInt8 := 0x20
def INS_RESET_RETRY_COUNTER : UInt8 := 0x2C
def INS_GET_DATA : UInt8 := 0xCB
def INS_PUT_DATA : UInt8 := 0xDB
def INS_GET_METADATA : UInt8 := 0xF7
def INS_RESET : UInt8 := 0xFB
def INS_IMPORT_KEY : UInt8 := 0xFE

def PIN_REF_APPLICATION : UInt8 := 0x80
def PIN_REF_PUK : UInt8 := 0x81

def GET_DATA_P1 : UInt8 := 0x3F
def GET_DATA_P2 : UInt8 := 0xFF
def TAG_OBJECT_SELECTOR : UInt8 := 0x5C
def TAG_DATA_TEMPLATE : UInt8 := 0x53

/-! ### PIN and PUK -/

structure PinLengthError where
  len : Nat
deriving DecidableEq, Repr

def padPin (pin : List UInt8) : Except PinLengthError (List UInt8) :=
  if 6 ≤ pin.length ∧ pin.length ≤ 8 then
    .ok (pin ++ List.replicate (8 - pin.length) 0xFF)
  else .error ⟨pin.length⟩

theorem padPin_eight {pin : List UInt8} (h : pin.length = 8) : padPin pin = .ok pin := by
  simp [padPin, h]

def verifyPin (pin : List UInt8) : Except PinLengthError (List UInt8) := do
  return buildApdu 0x00 INS_VERIFY 0x00 PIN_REF_APPLICATION (← padPin pin)

def unblockPin (puk newPin : List UInt8) : Except PinLengthError (List UInt8) := do
  let body ← padPin puk
  return buildApdu 0x00 INS_RESET_RETRY_COUNTER 0x00 PIN_REF_APPLICATION
    (body ++ (← padPin newPin))

/-! ### Reads and RESET -/

def getMetadata (keyRef : UInt8) : List UInt8 := [0x00, INS_GET_METADATA, 0x00, keyRef]

def reset : List UInt8 := [0x00, INS_RESET, 0x00, 0x00]

/-- The source asserts that an object tag is at most 127 bytes. -/
def getData (tag : List UInt8) : List UInt8 :=
  buildApdu 0x00 INS_GET_DATA GET_DATA_P1 GET_DATA_P2
    ([TAG_OBJECT_SELECTOR, tag.length.toUInt8] ++ tag) ++ [0x00]

/-! ### Long writes -/

def putDataBody (tag value : List UInt8) : List UInt8 :=
  pushTlv [TAG_OBJECT_SELECTOR] tag ++ pushTlv [TAG_DATA_TEMPLATE] value

def putData (tag value : List UInt8) : List UInt8 :=
  buildApduExt 0x00 INS_PUT_DATA GET_DATA_P1 GET_DATA_P2 (putDataBody tag value) none

def putDataChained (tag value : List UInt8) (maxChunk : Nat) : List (List UInt8) :=
  chainApdu 0x00 INS_PUT_DATA GET_DATA_P1 GET_DATA_P2 (putDataBody tag value) maxChunk none

def clearCertificate (slot : Slot) : List UInt8 := putData slot.certObjectTag []

def importKey (slot : Slot) (algId : UInt8) (body : List UInt8) : List UInt8 :=
  buildApduExt 0x00 INS_IMPORT_KEY algId slot.keyRef body none

def importKeyChained (slot : Slot) (algId : UInt8) (body : List UInt8) (maxChunk : Nat) :
    List (List UInt8) :=
  chainApdu 0x00 INS_IMPORT_KEY algId slot.keyRef body (max 1 (min maxChunk 255)) none

end Keyroost.Piv
