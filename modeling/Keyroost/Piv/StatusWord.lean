import Keyroost.Transport.Error

/-!
# PIV status words as results

How `keyroost-transport/src/piv.rs` turns the status word of an answer into a result or an error:
for any command, for a write, and for a command that presents a PIN, where a refusal also says how
many tries are left. The lemmas say for which status words each of them succeeds, and which one
reports a credential that is blocked.
-/

namespace Keyroost.Piv

open Transport

/-- The remaining tries in a `63 Cx` status word. -/
def swTriesRemaining (sw : UInt16) : Option UInt8 :=
  if sw &&& 0xFFF0 = 0x63C0 then some (sw &&& 0x000F).toUInt8 else none

def okOrApdu (label : String) (sw : UInt16) : Except TransportError Unit :=
  if sw = SW_OK then .ok () else .error (.apdu label (sw >>> 8).toUInt8 sw.toUInt8)

def okOrWrite (label : String) (sw : UInt16) : Except TransportError Unit :=
  if sw = SW_SECURITY_NOT_SATISFIED then .error .pivSecurityNotSatisfied
  else okOrApdu label sw

def mapPinSw (sw : UInt16) : Except TransportError Unit :=
  if sw = SW_OK then .ok ()
  else
    match swTriesRemaining sw with
    | some n => .error (.pivPinRejected (some n))
    | none =>
        if sw = SW_AUTH_BLOCKED then .error (.pivPinRejected (some 0))
        else .error (.apdu "piv pin/puk" (sw >>> 8).toUInt8 sw.toUInt8)

@[simp] theorem okOrApdu_eq_ok {label : String} {sw : UInt16} :
    okOrApdu label sw = .ok () ↔ sw = SW_OK := by
  unfold okOrApdu
  split <;> simp [*]

@[simp] theorem okOrWrite_eq_ok {label : String} {sw : UInt16} :
    okOrWrite label sw = .ok () ↔ sw = SW_OK := by
  unfold okOrWrite
  split
  · next h => simp [h, SW_SECURITY_NOT_SATISFIED, SW_OK]
  · exact okOrApdu_eq_ok

@[simp] theorem mapPinSw_eq_ok {sw : UInt16} : mapPinSw sw = .ok () ↔ sw = SW_OK := by
  unfold mapPinSw
  split
  · next h => simp [h]
  · next h =>
      constructor
      · intro hok
        split at hok
        · cases hok
        · split at hok <;> cases hok
      · exact fun hok => absurd hok h

theorem swTriesRemaining_eq_zero {sw : UInt16} :
    swTriesRemaining sw = some 0 ↔ sw = 0x63C0 := by
  constructor
  · intro h
    unfold swTriesRemaining at h
    split at h
    · next hhigh =>
        have hmod : (sw &&& 0x000F).toNat % 256 = 0 := by
          rw [← UInt16.toNat_toUInt8, Option.some.inj h]
          rfl
        have hle : (sw &&& 0x000F).toNat ≤ 15 := by
          rw [UInt16.toNat_and]
          exact Nat.and_le_right
        have hlow : sw &&& 0x000F = 0 := by
          apply UInt16.toNat_inj.mp
          rw [UInt16.toNat_zero]
          omega
        have hsplit : sw = (sw &&& 0xFFF0) ||| (sw &&& 0x000F) := by
          apply UInt16.toBitVec_inj.mp
          rw [UInt16.toBitVec_or, UInt16.toBitVec_and, UInt16.toBitVec_and,
            ← BitVec.and_or_distrib_left]
          exact BitVec.and_allOnes.symm
        rw [hsplit, hhigh, hlow]
        rfl
    · cases h
  · rintro rfl
    rfl

/-- A status word that reports the PIN or PUK blocked. -/
def Blocked (sw : UInt16) : Prop := sw = 0x63C0 ∨ sw = SW_AUTH_BLOCKED

theorem mapPinSw_eq_blocked {sw : UInt16} :
    mapPinSw sw = .error (.pivPinRejected (some 0)) ↔ Blocked sw := by
  unfold mapPinSw Blocked
  split
  · next h =>
      rw [h]
      exact ⟨fun hok => (nomatch hok), fun hor => absurd hor (by decide)⟩
  · rw [← swTriesRemaining_eq_zero]
    split
    · next n hn =>
        rw [hn]
        constructor
        · intro h
          rw [Option.some.inj (TransportError.pivPinRejected.inj (Except.error.inj h))]
          exact .inl rfl
        · rintro (h | rfl)
          · rw [Option.some.inj h]
          · cases hn
    · next hn =>
        rw [hn]
        by_cases hblocked : sw = SW_AUTH_BLOCKED
        · simp [hblocked]
        · simp [hblocked]

end Keyroost.Piv
