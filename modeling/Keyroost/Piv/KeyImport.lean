import Keyroost.Library.Checks
import Keyroost.Piv.LongApdu
import Keyroost.Piv.Types

/-!
# Private keys in the form an applet imports

A key of a key file (`KeyParts`), the form in which an applet takes it, and the data of the import
command, from `keyroost-piv/src/lib.rs` and `keyroost-piv/src/compat.rs`.

An RSA key goes over as its five CRT values, a key on a curve as its scalar or its seed, each in a
field of exact or of padded width, depending on the layout of the applet. Values that do not fit
their field are refused. The last section bounds the length of the whole, so the assertion of
`LongApdu` on what an extended APDU can hold is never reached by an import.
-/

namespace Keyroost.Piv

/-! ### Keys of a key file -/

inductive KeyParts where
  | rsa (n e p q dp dq qinv : List UInt8)
  | ec (alg : KeyAlg) (scalar : List UInt8)
  | ed25519 (seed : List UInt8)
  | x25519 (scalar : List UInt8)
deriving DecidableEq, Repr

/-- Bit length of a minimal big-endian integer. -/
def bitLen : List UInt8 → Nat
  | [] => 0
  | b :: rest => rest.length * 8 + (if b = 0 then 0 else b.toNat.log2 + 1)

def rsaAlg (n : List UInt8) : Option KeyAlg :=
  match bitLen n with
  | 1024 => some .rsa1024
  | 2048 => some .rsa2048
  | 3072 => some .rsa3072
  | 4096 => some .rsa4096
  | _ => none

def KeyParts.alg : KeyParts → KeyAlg
  | .rsa n .. => (rsaAlg n).getD .rsa2048
  | .ec alg _ => alg
  | .ed25519 _ => .ed25519
  | .x25519 _ => .x25519

/-- The curve libraries: the public point of a private scalar or seed. No law is assumed of them; a
scalar that a library refuses gives none. -/
structure CurvePoints where
  ec : KeyAlg → List UInt8 → Option (List UInt8)
  ed25519 : List UInt8 → List UInt8
  x25519 : List UInt8 → List UInt8

def KeyParts.publicKey (points : CurvePoints) : KeyParts → PublicKey
  | .rsa n e .. => .rsa n e
  | .ec alg scalar => .ecc ((points.ec alg scalar).getD [])
  | .ed25519 seed => .ecc (points.ed25519 seed)
  | .x25519 scalar => .ecc (points.x25519 scalar)

/-! ### The import command's data -/

inductive ImportLayout where
  | yubico
  | nitrokeyRsa
deriving DecidableEq, Repr

inductive ImportParts where
  | rsaCrt (p q dp dq qinv : List UInt8)
  | rsaPrimes (p q e : List UInt8)
  | ec (scalar : List UInt8)
  | ed25519 (seed : List UInt8)
  | x25519 (scalar : List UInt8)
deriving DecidableEq, Repr

def importParts : KeyParts → ImportLayout → ImportParts
  | .rsa _ e p q _ _ _, .nitrokeyRsa => .rsaPrimes p q e
  | .rsa _ _ p q dp dq qinv, .yubico => .rsaCrt p q dp dq qinv
  | .ec _ scalar, _ => .ec scalar
  | .ed25519 seed, _ => .ed25519 seed
  | .x25519 scalar, _ => .x25519 scalar

structure ImportKey where
  alg : KeyAlg
  algId : UInt8
  parts : ImportParts
deriving DecidableEq, Repr

inductive ImportBodyError where
  | partTooLong
  | partsMismatch
deriving DecidableEq, Repr

def pushExactTlv (tag : UInt8) (value : List UInt8) (width : Nat) :
    Except ImportBodyError (List UInt8) :=
  if value.length ≠ width then .error .partTooLong else .ok (pushTlv [tag] value)

def pushPaddedTlv (tag : UInt8) (value : List UInt8) (width : Nat) :
    Except ImportBodyError (List UInt8) :=
  if width < value.length then .error .partTooLong
  else .ok (pushTlv [tag] (List.replicate (width - value.length) 0 ++ value))

def rsaBits : KeyAlg → Option Nat
  | .rsa1024 => some 1024
  | .rsa2048 => some 2048
  | .rsa3072 => some 3072
  | .rsa4096 => some 4096
  | _ => none

/-- The key values of `import_key_body`. -/
def importKeyValues (key : ImportKey) : Except ImportBodyError (List UInt8) :=
  match key.parts, key.alg, rsaBits key.alg with
  | .rsaCrt p q dp dq qinv, _, some bits => do
      let p ← pushPaddedTlv 1 p (bits / 16)
      let q ← pushPaddedTlv 2 q (bits / 16)
      let dp ← pushPaddedTlv 3 dp (bits / 16)
      let dq ← pushPaddedTlv 4 dq (bits / 16)
      let qinv ← pushPaddedTlv 5 qinv (bits / 16)
      return p ++ q ++ dp ++ dq ++ qinv
  | .rsaPrimes p q e, _, some bits => do
      let p ← pushPaddedTlv 1 p (bits / 16)
      let q ← pushPaddedTlv 2 q (bits / 16)
      if bits / 16 < e.length then .error .partTooLong
      else return p ++ q ++ pushTlv [3] e
  | .ec scalar, .eccP256, _ => pushPaddedTlv 6 scalar 32
  | .ec scalar, .eccP384, _ => pushPaddedTlv 6 scalar 48
  | .ed25519 seed, .ed25519, _ => pushExactTlv 7 seed 32
  | .x25519 scalar, .x25519, _ => pushExactTlv 8 scalar 32
  | _, _, _ => .error .partsMismatch

def importKeyBody (key : ImportKey) (pinPolicy : PinPolicy) (touchPolicy : TouchPolicy) :
    Except ImportBodyError (List UInt8) := do
  let values ← importKeyValues key
  return values ++ (if pinPolicy ≠ .default then pushTlv [0xAA] [pinPolicy.id] else []) ++
    if touchPolicy ≠ .default then pushTlv [0xAB] [touchPolicy.id] else []

/-- Whether parts are in the form a layout takes. -/
def ImportParts.fits (layout : ImportLayout) : ImportParts → Bool
  | .rsaCrt .. => layout = .yubico
  | .rsaPrimes .. => layout = .nitrokeyRsa
  | _ => true

def importKeyBodyFor (key : ImportKey) (pinPolicy : PinPolicy) (touchPolicy : TouchPolicy)
    (layout : ImportLayout) : Except ImportBodyError (List UInt8) :=
  if !key.parts.fits layout then .error .partsMismatch
  else importKeyBody key pinPolicy touchPolicy

/-! ### It always fits an APDU -/

theorem length_pushTlv_le (tag : UInt8) (value : List UInt8) :
    (pushTlv [tag] value).length ≤ value.length + 4 := by
  have hhead : (pushBerLen value.length).length ≤ 3 := by
    unfold pushBerLen
    split
    · exact Nat.le_of_ble_eq_true rfl
    · split
      · exact Nat.le_of_ble_eq_true rfl
      · exact Nat.le_of_ble_eq_true rfl
  simp only [pushTlv, List.length_append, List.length_cons, List.length_nil]
  omega

theorem length_pushPaddedTlv {tag : UInt8} {value out : List UInt8} {width : Nat}
    (h : pushPaddedTlv tag value width = .ok out) : out.length ≤ width + 4 := by
  unfold pushPaddedTlv at h
  split at h
  · cases h
  · cases h
    refine Nat.le_trans (length_pushTlv_le _ _) ?_
    rw [List.length_append, List.length_replicate]
    omega

theorem length_pushExactTlv {tag : UInt8} {value out : List UInt8} {width : Nat}
    (h : pushExactTlv tag value width = .ok out) : out.length ≤ width + 4 := by
  unfold pushExactTlv at h
  split at h
  · cases h
  · next hwidth =>
      cases h
      rw [← Decidable.of_not_not hwidth]
      exact length_pushTlv_le _ _

theorem rsaBits_le {alg : KeyAlg} {bits : Nat} (h : rsaBits alg = some bits) :
    bits / 16 ≤ 256 := by
  cases alg <;> cases h <;> decide

theorem length_importKeyValues {key : ImportKey} {out : List UInt8}
    (h : importKeyValues key = .ok out) : out.length ≤ 1300 := by
  unfold importKeyValues at h
  split at h
  · next hbits =>
      have hle := rsaBits_le hbits
      simp only [Checks.bind_eq_ok] at h
      obtain ⟨p, hp, q, hq, dp, hdp, dq, hdq, qinv, hqinv, hout⟩ := h
      cases hout
      have hp := length_pushPaddedTlv hp
      have hq := length_pushPaddedTlv hq
      have hdp := length_pushPaddedTlv hdp
      have hdq := length_pushPaddedTlv hdq
      have hqinv := length_pushPaddedTlv hqinv
      simp only [List.length_append]
      omega
  · next e _ _ hbits =>
      have hle := rsaBits_le hbits
      simp only [Checks.bind_eq_ok] at h
      obtain ⟨p, hp, q, hq, hout⟩ := h
      split at hout
      · cases hout
      · cases hout
        have hp := length_pushPaddedTlv hp
        have hq := length_pushPaddedTlv hq
        have he := length_pushTlv_le 3 e
        simp only [List.length_append]
        omega
  · exact Nat.le_trans (length_pushPaddedTlv h) (by decide)
  · exact Nat.le_trans (length_pushPaddedTlv h) (by decide)
  · exact Nat.le_trans (length_pushExactTlv h) (by decide)
  · exact Nat.le_trans (length_pushExactTlv h) (by decide)
  · cases h

theorem length_importKeyBodyFor {key : ImportKey} {pinPolicy : PinPolicy}
    {touchPolicy : TouchPolicy} {layout : ImportLayout} {body : List UInt8}
    (h : importKeyBodyFor key pinPolicy touchPolicy layout = .ok body) :
    body.length ≤ 0xFFFF := by
  unfold importKeyBodyFor at h
  split at h
  · cases h
  · simp only [importKeyBody, Checks.bind_eq_ok] at h
    obtain ⟨values, hvalues, hout⟩ := h
    cases hout
    have hlen := length_importKeyValues hvalues
    have hpin : (if pinPolicy ≠ .default then pushTlv [0xAA] [pinPolicy.id] else []).length ≤
        5 := by
      split
      · exact length_pushTlv_le _ _
      · exact Nat.zero_le 5
    have htouch : (if touchPolicy ≠ .default then pushTlv [0xAB] [touchPolicy.id]
        else []).length ≤ 5 := by
      split
      · exact length_pushTlv_le _ _
      · exact Nat.zero_le 5
    rw [List.length_append, List.length_append]
    omega

end Keyroost.Piv
