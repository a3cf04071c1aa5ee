/-!
# PIV slots, algorithms and policies

The enumerations of `keyroost-piv/src/lib.rs` with the codes that they have on the card. A slot has
a key reference and a tag for its certificate object, and both tell the slots apart
(`keyRef_injective`, `certObjectTag_injective`), so that the caches of a session can be keyed by
either.
-/

namespace Keyroost.Piv

def SW_OK : UInt16 := 0x9000
def SW_NOT_FOUND : UInt16 := 0x6A82
def SW_SECURITY_NOT_SATISFIED : UInt16 := 0x6982
def SW_AUTH_BLOCKED : UInt16 := 0x6983
def SW_CONDITIONS_NOT_SATISFIED : UInt16 := 0x6985
def SW_REFERENCE_NOT_FOUND : UInt16 := 0x6A88
def SW_WRONG_LENGTH : UInt16 := 0x6700
def SW_NOT_ENOUGH_MEMORY : UInt16 := 0x6A84

/-- A key slot. The twenty retired slots count from 1. -/
inductive Slot where
  | authentication
  | signature
  | keyManagement
  | cardAuthentication
  | retired (n : UInt8) (inRange : 1 ≤ n ∧ n ≤ 20)
deriving DecidableEq, Repr

namespace Slot

def keyRef : Slot → UInt8
  | .authentication => 0x9A
  | .signature => 0x9C
  | .keyManagement => 0x9D
  | .cardAuthentication => 0x9E
  | .retired n _ => 0x81 + n

def certObjectTag : Slot → List UInt8
  | .authentication => [0x5F, 0xC1, 0x05]
  | .signature => [0x5F, 0xC1, 0x0A]
  | .keyManagement => [0x5F, 0xC1, 0x0B]
  | .cardAuthentication => [0x5F, 0xC1, 0x01]
  | .retired n _ => [0x5F, 0xC1, 0x0C + n]

theorem keyRef_injective {a b : Slot} (h : a.keyRef = b.keyRef) : a = b := by
  cases a <;> cases b <;> simp only [keyRef, retired.injEq, reduceCtorEq] at h ⊢ <;>
    first | rfl | grind

theorem certObjectTag_injective {a b : Slot} (h : a.certObjectTag = b.certObjectTag) :
    a = b := by
  cases a <;> cases b <;>
    simp only [certObjectTag, retired.injEq, reduceCtorEq, List.cons.injEq] at h ⊢ <;>
    first | rfl | grind

end Slot

/-- Management key algorithms. -/
inductive MgmtAlg where
  | tripleDes
  | aes128
  | aes192
  | aes256
deriving DecidableEq, Repr

inductive KeyAlg where
  | rsa1024
  | rsa2048
  | rsa3072
  | rsa4096
  | eccP256
  | eccP384
  | eccP521
  | ed25519
  | x25519
deriving DecidableEq, Repr

inductive PinPolicy where
  | default
  | never
  | once
  | always
deriving DecidableEq, Repr

def PinPolicy.id : PinPolicy → UInt8
  | .default => 0x00
  | .never => 0x01
  | .once => 0x02
  | .always => 0x03

inductive TouchPolicy where
  | default
  | never
  | always
  | cached
deriving DecidableEq, Repr

def TouchPolicy.id : TouchPolicy → UInt8
  | .default => 0x00
  | .never => 0x01
  | .always => 0x02
  | .cached => 0x03

inductive PublicKey where
  | rsa (modulus exponent : List UInt8)
  | ecc (point : List UInt8)
deriving DecidableEq, Repr

/-- Why a stored certificate cannot be read. -/
inductive CertUnreadable where
  | damaged
  | tooLarge
deriving DecidableEq, Repr

end Keyroost.Piv
