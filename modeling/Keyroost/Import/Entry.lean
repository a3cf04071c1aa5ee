import Keyroost.Proto.Codec

/-!
# Format-neutral authenticator entries

What every reader of `keyroost-import` produces, before any key's limits are applied: the types of
`keyroost-import/src/entry.rs`, with the checks that the wide readers share.

The bounds that the fields are documented to keep are part of the type: an `ImportEntry` has a
secret in its bounds, one to ten digits, a period that is not zero, and no text that is there and
empty. So only the checks of `finish` can make an entry, and the planner and the write loop never
check these bounds again. `finish_fields` and `exists_finish` say when an entry is made and of what.
-/

namespace Keyroost.Import

open Keyroost.Proto

/-- Longest decoded seed an entry may carry. -/
def MAX_SECRET_BYTES : Nat := 255

/-- Most entries a wide reader takes from one file. -/
def MAX_ENTRIES : Nat := 1000

inductive HashAlg where
  | sha1
  | sha256
  | sha512
deriving DecidableEq, Repr

/-- Time- or counter-based, with the parameter that goes with it. -/
inductive OtpKind where
  | totp (period : UInt32)
  | hotp (counter : UInt64)
deriving DecidableEq, Repr

/-- A decoded seed of 1 to 255 bytes. -/
abbrev Secret := { bytes : List UInt8 // bytes ≠ [] ∧ bytes.length ≤ MAX_SECRET_BYTES }

/-- One usable entry. An empty issuer or account in the file is no issuer or
account, the code length is 1 to 10, and a TOTP period is not zero. -/
structure ImportEntry where
  issuer : Option RustStr
  account : Option RustStr
  secret : Secret
  hash : HashAlg
  digits : UInt8
  kind : OtpKind
  issuer_ne : issuer ≠ some []
  account_ne : account ≠ some []
  digits_range : 1 ≤ digits ∧ digits ≤ 10
  period_ne : kind ≠ .totp 0
deriving DecidableEq

/-- Why an entry in a file can't go to any key. The reason keeps what the file said, and the entry
keeps its place: it is refused in its own row and the file is read on. -/
inductive Unusable where
  | badSecret
  | type (name : RustStr)
  | hash (name : RustStr)
  | digits (n : UInt32)
  | period (n : UInt32)
  | malformed (what : String)
deriving DecidableEq, Repr

/-- One entry of a file, in file order. `index` is its position in the file: the
entry index for JSON formats, the line index for lists. -/
structure ImportItem where
  index : Nat
  label : RustStr
  entry : Except Unusable ImportEntry

inductive Format where
  | aegis
  | aegisEncrypted
  | twoFas
  | otpauthList
  | qrImage
  | googleExport
deriving DecidableEq, Repr

/-- Everything read from one file. `batch` is `(index, total)` when it is one QR
code of an export over several. -/
structure ImportFile where
  format : Format
  items : List ImportItem
  batch : Option (UInt32 × UInt32)

/-! ### Names and titles -/

/-- `Option::filter(|s| !s.is_empty())`. -/
def nonEmpty (s : Option RustStr) : Option RustStr := s.filter fun text => !text.isEmpty

theorem nonEmpty_ne (s : Option RustStr) : nonEmpty s ≠ some [] := by
  cases s with
  | none => simp [nonEmpty]
  | some text => cases text <;> simp [nonEmpty, Option.filter]

@[simp] theorem nonEmpty_nonEmpty (s : Option RustStr) : nonEmpty (nonEmpty s) = nonEmpty s := by
  cases s with
  | none => rfl
  | some text => cases text <;> rfl

/-- `"issuer:account"`, or whichever of the two is present, or nothing. -/
def nameLabel (issuer account : Option RustStr) : Option RustStr :=
  match nonEmpty issuer, nonEmpty account with
  | some i, some a => some (i ++ ':' :: a)
  | some one, none | none, some one => some one
  | none, none => none

/-- The largest character boundary of `s` at or under `n`: where the loop of
`molto_title` stops. -/
def boundaryAtMost (s : RustStr) : Nat → Nat
  | 0 => 0
  | n + 1 => if s.isCharBoundary (n + 1) then n + 1 else boundaryAtMost s n

/-- The title a Molto2 slot gets: the issuer, else the account, cut to 12 bytes
on a character boundary. -/
def moltoTitle (issuer account : Option RustStr) : RustStr :=
  let candidate := (issuer.or account).getD []
  candidate.takeBytes (boundaryAtMost candidate (min candidate.len 12))

theorem boundaryAtMost_le (s : RustStr) (n : Nat) : boundaryAtMost s n ≤ n := by
  induction n with
  | zero => simp [boundaryAtMost]
  | succ n ih =>
      simp only [boundaryAtMost]
      split
      · exact le_rfl
      · omega

theorem len_moltoTitle_le (issuer account : Option RustStr) :
    (moltoTitle issuer account).len ≤ 12 := by
  refine (RustStr.len_takeBytes_le _ _).trans ((boundaryAtMost_le _ _).trans ?_)
  exact min_le_right _ _

/-! ### Checks shared by the wide readers -/

/-- Map a hash name as exports spell it. -/
def hashFromName (name : RustStr) : Except Unusable HashAlg :=
  let upper := name.toAsciiUppercase
  if upper = "SHA1".toList then .ok .sha1
  else if upper = "SHA256".toList then .ok .sha256
  else if upper = "SHA512".toList then .ok .sha512
  else .error (.hash upper)

/-- The kind a type name stands for, before its parameter is known. -/
inductive TypeName where
  | totp
  | hotp
deriving DecidableEq, Repr

def typeFromName (name : RustStr) : Except Unusable TypeName :=
  if name.eqIgnoreAsciiCase "totp".toList then .ok .totp
  else if name.eqIgnoreAsciiCase "hotp".toList then .ok .hotp
  else .error (.type name)

/-- Enforce the wide seed range on raw bytes. -/
def checkSecret (secret : List UInt8) : Except Unusable Secret :=
  if h : secret ≠ [] ∧ secret.length ≤ MAX_SECRET_BYTES then .ok ⟨secret, h⟩
  else .error .badSecret

/-- Decode a base32 seed within the wide range. -/
def decodeSecret (secretB32 : RustStr) : Except Unusable Secret :=
  match Codec.base32Decode secretB32 with
  | .error _ => .error .badSecret
  | .ok secret => checkSecret secret

/-- Validate digits and the kind's parameter, in that order, and assemble the
entry. -/
def finish (issuer account : Option RustStr) (secret : Secret) (hash : HashAlg)
    (digits : UInt32) (kind : OtpKind) : Except Unusable ImportEntry :=
  if hdigits : 1 ≤ digits ∧ digits ≤ 10 then
    if hperiod : kind = .totp 0 then .error (.period 0)
    else
      .ok {
        issuer := nonEmpty issuer
        account := nonEmpty account
        secret, hash, kind
        digits := digits.toUInt8
        issuer_ne := nonEmpty_ne issuer
        account_ne := nonEmpty_ne account
        digits_range := by
          obtain ⟨hlow, hhigh⟩ := hdigits
          simp only [UInt32.le_iff_toNat_le, UInt8.le_iff_toNat_le, UInt32.toNat_toUInt8,
            UInt32.reduceToNat, UInt8.reduceToNat] at hlow hhigh ⊢
          omega
        period_ne := hperiod }
  else .error (.digits digits)

theorem checkSecret_eq_ok {bytes : List UInt8} {secret : Secret} :
    checkSecret bytes = .ok secret ↔ secret.val = bytes := by
  unfold checkSecret
  constructor
  · intro h
    split at h
    · obtain rfl := Except.ok.inj h
      rfl
    · cases h
  · rintro rfl
    rw [dif_pos secret.property]

/-- The fields of an assembled entry are the checked ones. -/
theorem finish_fields {issuer account : Option RustStr} {secret : Secret} {hash : HashAlg}
    {digits : UInt32} {kind : OtpKind} {e : ImportEntry}
    (h : finish issuer account secret hash digits kind = .ok e) :
    e.issuer = nonEmpty issuer ∧ e.account = nonEmpty account ∧ e.secret = secret ∧
      e.hash = hash ∧ e.digits = digits.toUInt8 ∧ e.kind = kind := by
  unfold finish at h
  split at h
  · split at h
    · cases h
    · obtain rfl := Except.ok.inj h
      exact ⟨rfl, rfl, rfl, rfl, rfl, rfl⟩
  · cases h

theorem exists_finish {issuer account : Option RustStr} {secret : Secret} {hash : HashAlg}
    {digits : UInt32} {kind : OtpKind} (hdigits : 1 ≤ digits ∧ digits ≤ 10)
    (hkind : kind ≠ .totp 0) : ∃ e, finish issuer account secret hash digits kind = .ok e := by
  unfold finish
  rw [dif_pos hdigits, dif_neg hkind]
  exact ⟨_, rfl⟩

/-- A seed of a single byte. -/
def oneByteSeed (b : UInt8) : Secret := ⟨[b], List.cons_ne_nil b [], Nat.le_of_ble_eq_true rfl⟩

/-- A time-based entry with the usual parameters: SHA-1, six digits, 30 seconds. -/
def usualEntry (issuer account : Option RustStr) (secret : Secret) : ImportEntry where
  issuer := nonEmpty issuer
  account := nonEmpty account
  secret := secret
  hash := .sha1
  digits := 6
  kind := .totp 30
  issuer_ne := nonEmpty_ne issuer
  account_ne := nonEmpty_ne account
  digits_range := by decide
  period_ne := by decide

end Keyroost.Import
