import Keyroost.Library.Bytes
import Keyroost.Piv.Types

/-!
# Transport errors

The errors of `keyroost-transport/src/lib.rs`, as far as the modelled operations tell them apart,
with the texts and the status words that they carry. `swOf` puts a status word together from its two
bytes, and is injective, so that an error says which answer it was made of (`swOf_inj`).
-/

namespace Keyroost.Transport

open Piv

/-- An error of the PC/SC layer, by its code. -/
structure PcscError where
  code : UInt32
deriving DecidableEq, Repr

def PcscError.INSUFFICIENT_BUFFER : PcscError := ⟨0x80100008⟩

inductive TransportError where
  | pcsc (e : PcscError)
  | apdu (label : String) (sw1 sw2 : UInt8)
  | shortResponse (label : String) (got expectedMin : Nat)
  | malformedResponse (what : String)
  | noPivApplet
  | pivPinRejected (triesRemaining : Option UInt8)
  | pivSecurityNotSatisfied
  | pivBadPinLength
  | pivResetNotAllowed
  | pivResetManagementKeyMustBe3Des (alg : MgmtAlg)
  | pivResetIncomplete (what : String)
  | pivPukGuessAccepted
  | pivCertTooLarge (slot : Slot) (len : Nat) (compressedLen : Option Nat)
  | pivCardFull (slot : Slot)
  | pivCertUnreadable (slot : Slot) (reason : CertUnreadable)
  | pivCertReadbackMismatch (slot : Slot)
  | pivWriteUnconfirmed (e : TransportError)
  | hostRngFailed
deriving DecidableEq, Repr

/-- Whether an error is the card refusing a command, which then had no effect, as opposed to an
exchange that may not have finished. -/
def cardRefused : TransportError → Bool
  | .apdu _ _ _ | .pivSecurityNotSatisfied | .pivCertTooLarge _ _ _ | .pivCardFull _ => true
  | _ => false

/-- A result of the transport. -/
abbrev Tried (α : Type) : Type := Except TransportError α

/-- An error of a transmit: of the exchange itself, or of the SELECT in front of the first
command. -/
inductive LinkError where
  | pcsc (e : PcscError)
  | shortResponse (label : String) (got expectedMin : Nat)
  | malformedResponse (what : String)
  | noPivApplet
  | selectRefused (label : String) (sw1 sw2 : UInt8)
deriving DecidableEq, Repr

def LinkError.toTransport : LinkError → TransportError
  | .pcsc e => .pcsc e
  | .shortResponse label got expectedMin => .shortResponse label got expectedMin
  | .malformedResponse what => .malformedResponse what
  | .noPivApplet => .noPivApplet
  | .selectRefused label sw1 sw2 => .apdu label sw1 sw2

/-- `u16::from_be_bytes([sw1, sw2])`. -/
def swOf (sw1 sw2 : UInt8) : UInt16 := UInt16.ofNat (Bytes.ofBe [sw1, sw2])

theorem swOf_split (sw : UInt16) : swOf (sw >>> 8).toUInt8 sw.toUInt8 = sw := by
  apply UInt16.toNat_inj.mp
  have hlt := sw.toNat_lt
  have hhi : (sw >>> 8).toUInt8.toNat = sw.toNat / 256 := by
    rw [UInt16.toNat_toUInt8, UInt16.toNat_shiftRight]
    show sw.toNat >>> 8 % 256 = _
    rw [Nat.shiftRight_eq_div_pow]
    omega
  have hbe : Bytes.ofBe [(sw >>> 8).toUInt8, sw.toUInt8] =
      sw.toUInt8.toNat + 256 * ((sw >>> 8).toUInt8.toNat + 256 * 0) := rfl
  rw [swOf, hbe, hhi, UInt16.toNat_toUInt8, UInt16.toNat_ofNat']
  omega

theorem toNat_swOf (sw1 sw2 : UInt8) : (swOf sw1 sw2).toNat = sw1.toNat * 256 + sw2.toNat := by
  have hbe : Bytes.ofBe [sw1, sw2] = sw2.toNat + 256 * (sw1.toNat + 256 * 0) := rfl
  have h1 := sw1.toNat_lt
  have h2 := sw2.toNat_lt
  rw [swOf, hbe, UInt16.toNat_ofNat']
  omega

theorem swOf_inj {a b c d : UInt8} (h : swOf a b = swOf c d) : a = c ∧ b = d := by
  have hnat := congrArg UInt16.toNat h
  rw [toNat_swOf, toNat_swOf] at hnat
  have hb := b.toNat_lt
  have hd := d.toNat_lt
  exact ⟨UInt8.toNat_inj.mp (by omega), UInt8.toNat_inj.mp (by omega)⟩

end Keyroost.Transport
