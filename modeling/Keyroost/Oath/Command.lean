import Keyroost.Library.RustStr
import Keyroost.Library.Checks
import Keyroost.Proto.Apdu

/-!
# The OATH PUT command

`put` of `keyroost-oath/src/lib.rs` writes the name, the key, the touch property and the counter
one after the other and frames them as one short APDU. Every part but the touch property has a
length byte.

The builder fails where a part is too long for its length byte or the whole for the command, and
`put_isOk` says when it succeeds, in terms of the lengths of the name and the key and of the two
optional parts. The planner of an import checks credentials with a bound of its own, which is
compared with this one elsewhere.
-/

namespace Keyroost.Oath

open Keyroost.Proto

inductive OathType where
  | hotp
  | totp
deriving DecidableEq, Repr

/-- The type nibble, shifted into the high nibble. -/
def OathType.nibble : OathType → UInt8
  | .hotp => 0x10
  | .totp => 0x20

inductive Algorithm where
  | sha1
  | sha256
  | sha512
deriving DecidableEq, Repr

def Algorithm.nibble : Algorithm → UInt8
  | .sha1 => 0x01
  | .sha256 => 0x02
  | .sha512 => 0x03

/-- The prefix byte of a key: type and algorithm. -/
def prefixByte (oathType : OathType) (algorithm : Algorithm) : UInt8 :=
  oathType.nibble ||| algorithm.nibble

/-- The TLV tags of a PUT. -/
inductive Tag where
  | name
  | key
  | property
  | imf
deriving DecidableEq, Repr

def Tag.code : Tag → UInt8
  | .name => 0x71
  | .key => 0x73
  | .property => 0x78
  | .imf => 0x7A

def PROPERTY_REQUIRE_TOUCH : UInt8 := 0x02

def INS_PUT : UInt8 := 0x01

/-- The maximum value a short-form TLV can hold. -/
def MAX_SHORT_LEN : Nat := 255

/-- The shortest key a card takes. -/
def MIN_HMAC_KEY_LEN : Nat := 14

/-- A value would overflow the short framing. -/
inductive BuildError where
  | valueTooLong (what : String) (len : Nat)
  | bodyTooLong (len : Nat)
deriving DecidableEq, Repr

/-- `data` with one more short-form TLV. -/
def tryPushTlv (data : List UInt8) (tag : Tag) (what : String) (value : List UInt8) :
    Except BuildError (List UInt8) :=
  if MAX_SHORT_LEN < value.length then .error (.valueTooLong what value.length)
  else .ok (data ++ tag.code :: value.length.toUInt8 :: value)

def finishApdu (ins p1 p2 : UInt8) (data : List UInt8) : Except BuildError (List UInt8) :=
  match tryBuildApdu 0x00 ins p1 p2 data with
  | .error e => .error (.bodyTooLong e.len)
  | .ok apdu => .ok apdu

structure PutParams where
  name : RustStr
  secret : List UInt8
  oathType : OathType
  algorithm : Algorithm
  digits : UInt8
  requireTouch : Bool
  imf : UInt32
deriving DecidableEq, Repr

/-- The four bytes of a counter, the most significant first. -/
def beBytes4 (n : UInt32) : List UInt8 :=
  [(n >>> 24).toUInt8, (n >>> 16).toUInt8, (n >>> 8).toUInt8, n.toUInt8]

/-- The value of the KEY TLV: prefix byte, digits, and the secret, padded with zeros
to the shortest key a card takes. -/
def keyValue (params : PutParams) : List UInt8 :=
  let key := prefixByte params.oathType params.algorithm :: params.digits :: params.secret
  key ++ List.replicate (2 + MIN_HMAC_KEY_LEN - key.length) 0

/-- Build a PUT. -/
def put (params : PutParams) : Except BuildError (List UInt8) := do
  let data ← tryPushTlv [] .name "name" (RustStr.asBytes params.name)
  let data ← tryPushTlv data .key "key" (keyValue params)
  -- Tag and value only: this field has no length byte.
  let data := if params.requireTouch then data ++ [Tag.property.code, PROPERTY_REQUIRE_TOUCH]
    else data
  let data ← if params.imf ≠ 0 then tryPushTlv data .imf "imf" (beBytes4 params.imf) else pure data
  finishApdu INS_PUT 0x00 0x00 data

/-! ### How long a PUT is -/

theorem length_keyValue (params : PutParams) :
    (keyValue params).length = 2 + max params.secret.length MIN_HMAC_KEY_LEN := by
  simp only [keyValue, List.length_append, List.length_cons, List.length_replicate]
  omega

/-- The length of the body that `put` frames. -/
def bodyLength (params : PutParams) : Nat :=
  (2 + params.name.len) + (2 + (2 + max params.secret.length MIN_HMAC_KEY_LEN)) +
    (if params.requireTouch then 2 else 0) + (if params.imf ≠ 0 then 6 else 0)

theorem tryPushTlv_eq_ok {data : List UInt8} {tag : Tag} {what : String} {value out : List UInt8} :
    tryPushTlv data tag what value = .ok out ↔
      value.length ≤ MAX_SHORT_LEN ∧ data ++ tag.code :: value.length.toUInt8 :: value = out := by
  unfold tryPushTlv
  by_cases h : MAX_SHORT_LEN < value.length
  · simp [h, Nat.not_le.mpr h]
  · simp [h, Nat.not_lt.mp h]

theorem finishApdu_isOk {ins p1 p2 : UInt8} {data : List UInt8} :
    (∃ apdu, finishApdu ins p1 p2 data = .ok apdu) ↔ data.length ≤ 255 := by
  unfold finishApdu tryBuildApdu
  by_cases h : 255 < data.length
  · simp [h, Nat.not_le.mpr h]
  · simp [h, Nat.not_lt.mp h]

/-- A PUT is built exactly when its whole body fits one short APDU: the parts are
shorter than the whole. -/
theorem put_isOk (params : PutParams) :
    (∃ apdu, put params = .ok apdu) ↔ bodyLength params ≤ 255 := by
  have hkey := length_keyValue params
  have hname : (RustStr.asBytes params.name).length = params.name.len := rfl
  have himf : (beBytes4 params.imf).length = 4 := rfl
  have hmax : MAX_SHORT_LEN = 255 := rfl
  have hput : (∃ apdu, put params = .ok apdu) ↔
      params.name.len ≤ MAX_SHORT_LEN ∧ (keyValue params).length ≤ MAX_SHORT_LEN ∧
        bodyLength params ≤ 255 := by
    unfold put bodyLength
    cases params.requireTouch <;> by_cases hzero : params.imf = 0 <;>
      simp [tryPushTlv_eq_ok, hzero, hname, himf, exists_and_left, finishApdu_isOk]
    all_goals
      intro _ _
      rw [hkey]
      omega
  rw [hput]
  refine ⟨fun h => h.2.2, fun h => ⟨?_, ?_, h⟩⟩
  · unfold bodyLength at h
    omega
  · rw [hkey]
    unfold bodyLength at h
    omega

end Keyroost.Oath
