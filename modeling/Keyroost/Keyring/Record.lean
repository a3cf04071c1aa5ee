import Keyroost.Library.RustStr

/-!
# Records of names

What `keys.json` holds for each name, with the checks on names and the salted fingerprint that
stands for a key's serial number, from `keyroost-keyring/src/lib.rs` and
`keyroost-keyring/src/fingerprint.rs`.

A salt and a fingerprint carry their lengths, so no other bytes can be taken for one. The HMAC and
the lower-case mapping of serials are not the repository's and make up `Hasher`. A name is checked
when it is set; on load the characters that could disguise it are taken out of the record instead
(`sanitizeRecord`), which leaves a name that passed the check as it is.
-/

namespace Keyroost.Keyring

/-! ### Text -/

/-- `char::is_control`: the general category Cc. -/
def isControl (c : Char) : Bool := c.toNat ≤ 0x1F || (0x7F ≤ c.toNat && c.toNat ≤ 0x9F)

def isSpoofingChar (c : Char) : Bool :=
  let n := c.toNat
  isControl c || n == 0x00AD || n == 0x061C || n == 0x180E || (0x200B ≤ n && n ≤ 0x200F) ||
    n == 0x2028 || n == 0x2029 || (0x202A ≤ n && n ≤ 0x202E) || (0x2060 ≤ n && n ≤ 0x2064) ||
    (0x2066 ≤ n && n ≤ 0x2069) || n == 0xFEFF || (0xE0000 ≤ n && n ≤ 0xE007F)

def stripControlChars (s : RustStr) : RustStr :=
  if s.any isSpoofingChar then s.filter (fun c => !isSpoofingChar c) else s

inductive IoErrorKind where
  | notFound
  | alreadyExists
  | invalidData
  | other
deriving DecidableEq, Repr

inductive KeyringError where
  | io (kind : IoErrorKind) (message : String)
  | parse (detail : String)
  | noConfigDir
  | duplicateName (name : RustStr)
  | invalidName (shown : RustStr)
  | malformedSalt
  | noSerial
  | unconverted
  | newerFormat (version : Nat)
  | damaged (detail : String)
deriving DecidableEq, Repr

def validateName (name : RustStr) : Except KeyringError Unit :=
  if !(RustStr.trim name).isEmpty && decide (name.length ≤ 64) && !name.any isSpoofingChar then
    .ok ()
  else .error (.invalidName (stripControlChars name))

/-! ### Fingerprints -/

/-- `str::to_lowercase` and HMAC-SHA-256, which the keyring rests on and does not look into. -/
structure Hasher where
  toLowercase : RustStr → RustStr
  hmacSha256 : List UInt8 → List UInt8 → List UInt8

/-- 32 random bytes. -/
structure Salt where
  bytes : List UInt8
  size : bytes.length = 32
deriving DecidableEq, Repr

/-- The text stored in `keys.json`. -/
structure Fingerprint where
  text : RustStr
deriving DecidableEq, Repr

def FP_DOMAIN : List UInt8 := RustStr.asBytes "keyroost key fingerprint v1".toList ++ [0]
def FP_PREFIX : RustStr := "v1:".toList

def hexDigit (n : Nat) : Char := "0123456789abcdef".toList.getD n '0'

def hex (bytes : List UInt8) : RustStr :=
  bytes.flatMap fun b => [hexDigit (b.toNat / 16), hexDigit (b.toNat % 16)]

def canonicalSerial (h : Hasher) (serial : RustStr) : RustStr :=
  h.toLowercase (RustStr.trim (stripControlChars serial))

def fingerprint (h : Hasher) (salt : Salt) (serial : RustStr) : Fingerprint :=
  ⟨FP_PREFIX ++ hex (h.hmacSha256 salt.bytes
    (FP_DOMAIN ++ RustStr.asBytes (canonicalSerial h serial)))⟩

/-! ### Records -/

/-- How a key's serial was obtained. -/
inductive IdSource where
  | usb
  | ccid
deriving DecidableEq, Repr

/-- Where a name lives. -/
inductive NameStore where
  | computer
  | key
deriving DecidableEq, Repr

structure KeyRecord where
  name : RustStr
  fingerprint : Option Fingerprint
  stored : NameStore
  source : IdSource
  vendor : Option RustStr
  aaguid : Option RustStr
  note : Option RustStr
deriving DecidableEq, Repr

structure RecordMeta where
  source : IdSource
  vendor : Option RustStr
deriving DecidableEq, Repr

def sanitizeRecord (r : KeyRecord) : KeyRecord :=
  { r with
    name := stripControlChars r.name
    vendor := r.vendor.map stripControlChars
    aaguid := r.aaguid.map stripControlChars
    note := r.note.map stripControlChars }

/-- A valid name passes the cleaning as it is. -/
theorem stripControlChars_of_valid {name : RustStr} (h : validateName name = .ok ()) :
    stripControlChars name = name := by
  rw [validateName] at h
  split at h
  · rename_i hok
    rw [Bool.and_eq_true, Bool.not_eq_true'] at hok
    rw [stripControlChars, if_neg (by rw [hok.2]; exact Bool.false_ne_true)]
  · cases h

end Keyroost.Keyring
