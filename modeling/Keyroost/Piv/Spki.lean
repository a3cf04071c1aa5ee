import Keyroost.Library.LeadingZeros
import Keyroost.Piv.Types

/-!
# Public keys as DER

The writer of a `SubjectPublicKeyInfo` in `keyroost-piv/src/spki.rs`, and the DER encoders
certificates are built with. An integer is stripped of the zeros in front and given one back where
its first bit is set (`derUint`); a length is written in one byte if it can be, and otherwise after
one byte that counts its own.

The lemmas are those that the round trip of `X509RoundTrip` needs: what an integer looks like once
it is stripped, and that an element is longer than what it holds.
-/

namespace Keyroost.Piv

/-! ### DER elements -/

def derLen (len : Nat) : List UInt8 :=
  if len < 0x80 then [len.toUInt8]
  else (0x80 ||| (Bytes.minimal len).length.toUInt8) :: Bytes.minimal len

def derTlv (tag : UInt8) (value : List UInt8) : List UInt8 :=
  tag :: (derLen value.length ++ value)

def derSeq (members : List (List UInt8)) : List UInt8 := derTlv 0x30 members.flatten

/-- The value without its leading zero bytes, keeping the last byte. -/
def stripZeros : List UInt8 → List UInt8
  | 0 :: b :: rest => stripZeros (b :: rest)
  | v => v

/-- The bytes of an unsigned INTEGER: no leading zeros, and never empty. -/
def magnitude (bytes : List UInt8) : List UInt8 :=
  if stripZeros bytes = [] then [0x00] else stripZeros bytes

def highBit (b : UInt8) : Bool := b &&& 0x80 != 0

/-- A zero byte in front keeps the value positive. -/
def derUint (bytes : List UInt8) : List UInt8 :=
  derTlv 0x02 ((if (magnitude bytes).head?.any highBit then [0x00] else []) ++ magnitude bytes)

def derBitstring (bytes : List UInt8) : List UInt8 := derTlv 0x03 (0x00 :: bytes)

/-! ### The key -/

def OID_RSA_ENCRYPTION : List UInt8 :=
  [0x06, 0x09, 0x2A, 0x86, 0x48, 0x86, 0xF7, 0x0D, 0x01, 0x01, 0x01]
def OID_EC_PUBLIC_KEY : List UInt8 := [0x06, 0x07, 0x2A, 0x86, 0x48, 0xCE, 0x3D, 0x02, 0x01]
def OID_P256 : List UInt8 := [0x06, 0x08, 0x2A, 0x86, 0x48, 0xCE, 0x3D, 0x03, 0x01, 0x07]
def OID_P384 : List UInt8 := [0x06, 0x05, 0x2B, 0x81, 0x04, 0x00, 0x22]
def OID_P521 : List UInt8 := [0x06, 0x05, 0x2B, 0x81, 0x04, 0x00, 0x23]
def OID_ED25519 : List UInt8 := [0x06, 0x03, 0x2B, 0x65, 0x70]
def OID_X25519 : List UInt8 := [0x06, 0x03, 0x2B, 0x65, 0x6E]
def DER_NULL : List UInt8 := [0x05, 0x00]

inductive SpkiError where
  | keyTypeMismatch
deriving DecidableEq, Repr

def rsaSpki (modulus exponent : List UInt8) : List UInt8 :=
  derSeq [derSeq [OID_RSA_ENCRYPTION, DER_NULL],
    derBitstring (derSeq [derUint modulus, derUint exponent])]

def ecSpki (curveOid point : List UInt8) : List UInt8 :=
  derSeq [derSeq [OID_EC_PUBLIC_KEY, curveOid], derBitstring point]

def eddsaSpki (oid point : List UInt8) : List UInt8 :=
  derSeq [derSeq [oid], derBitstring point]

def subjectPublicKeyInfo (key : PublicKey) (alg : KeyAlg) : Except SpkiError (List UInt8) :=
  match key, alg with
  | .rsa modulus exponent, .rsa1024 | .rsa modulus exponent, .rsa2048
  | .rsa modulus exponent, .rsa3072 | .rsa modulus exponent, .rsa4096 =>
      .ok (rsaSpki modulus exponent)
  | .ecc point, .eccP256 => .ok (ecSpki OID_P256 point)
  | .ecc point, .eccP384 => .ok (ecSpki OID_P384 point)
  | .ecc point, .eccP521 => .ok (ecSpki OID_P521 point)
  | .ecc point, .ed25519 => .ok (eddsaSpki OID_ED25519 point)
  | .ecc point, .x25519 => .ok (eddsaSpki OID_X25519 point)
  | _, _ => .error .keyTypeMismatch

/-! ### Sizes and values -/

theorem length_lt_derTlv (tag : UInt8) (value : List UInt8) :
    value.length < (derTlv tag value).length := by
  rw [derTlv, List.length_cons, List.length_append]
  omega

theorem derTlv_ne_nil (tag : UInt8) (value : List UInt8) : derTlv tag value ≠ [] :=
  List.cons_ne_nil _ _

/-- An element is shorter than the sequence it is a member of. -/
theorem length_lt_derSeq {members : List (List UInt8)} {member : List UInt8}
    (h : member ∈ members) : member.length < (derSeq members).length := by
  exact Nat.lt_of_le_of_lt (List.sublist_flatten_of_mem h).length_le (length_lt_derTlv _ _)

theorem stripZeros_of_head {bytes : List UInt8} (h : bytes.head? ≠ some 0) :
    stripZeros bytes = bytes := by
  cases bytes with
  | nil => rfl
  | cons b rest =>
      have hb : b ≠ 0 := fun hb => h (congrArg some hb)
      cases rest with
      | nil => rw [stripZeros]; exact nofun
      | cons c rest =>
          rw [stripZeros]
          rintro _ _ ⟨⟩
          exact hb rfl

/-- A value without leading zero bytes is its own magnitude. -/
theorem magnitude_of_head {bytes : List UInt8} (hne : bytes ≠ []) (h : bytes.head? ≠ some 0) :
    magnitude bytes = bytes := by
  rw [magnitude, stripZeros_of_head h, if_neg hne]

theorem magnitude_ne_nil (bytes : List UInt8) : magnitude bytes ≠ [] := by
  rw [magnitude]
  split
  · exact List.cons_ne_nil _ _
  · assumption

theorem stripZeros_head (bytes : List UInt8) :
    stripZeros bytes = [0] ∨ (stripZeros bytes).head? ≠ some 0 := by
  induction bytes with
  | nil => exact .inr nofun
  | cons b rest ih =>
      cases rest with
      | nil =>
          by_cases hb : b = 0
          · left
            rw [hb]
            rfl
          · right
            rw [stripZeros_of_head]
            · exact fun h => hb (Option.some.inj h)
            · exact fun h => hb (Option.some.inj h)
      | cons c rest =>
          by_cases hb : b = 0
          · rw [hb]
            exact ih
          · right
            rw [stripZeros_of_head]
            · exact fun h => hb (Option.some.inj h)
            · exact fun h => hb (Option.some.inj h)

end Keyroost.Piv
