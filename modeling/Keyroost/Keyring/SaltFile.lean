import Keyroost.Keyring.Ring
import Keyroost.Library.Crash
import Keyroost.Library.Utf8

/-!
# The salt on disk

The files of the keyring's directory, and the file that holds the salt of this computer, from
`keyroost-keyring/src/fingerprint.rs`. It is created once and never replaced.

The file operations are those of `Crash`, with the errors the source tells apart: any of them may
fail, or be the last one that is done, with a part of its work done. `persistSalt` creates the file,
which fails where there is one, and takes it away again where it cannot be written. The text of a
salt is read as the source reads it, byte by byte, and `saltIn_saltText` says that what was written
is read back.
-/

namespace Keyroost.Keyring

open Crash

/-- The files beside `keys.json`, which is `keys`. -/
inductive File where
  | keys
  | backup
  | tmp
  | salt
deriving DecidableEq, Repr

/-- What the file operations and the functions built on them reply. -/
abbrev Reply (α : Type) := Except KeyringError α

def SALT_FILE : String := "keys.salt"

/-! ### File operations -/

/-- An error of the system, whose own text is left out. -/
def sysError (kind : IoErrorKind) : KeyringError := .io kind ""

def read (f : File) : Prog File (Reply (List UInt8)) :=
  readFile (sysError .notFound) (sysError .other) f

def readToString (f : File) : Prog File (Reply RustStr) := do
  match ← read f with
  | .error e => return .error e
  | .ok bytes =>
      match Utf8.fromUtf8 bytes with
      | none => return .error (sysError .invalidData)
      | some text => return .ok text

def openNew (f : File) : Prog File (Reply Unit) :=
  createNew (sysError .alreadyExists) (sysError .other) f

def write (f : File) (bytes : List UInt8) : Prog File (Reply Unit) :=
  writeAll (sysError .other) f bytes

/-- `sync_all`, of a file or of the directory. -/
def syncAll : Prog File (Reply Unit) := settle (sysError .other)

/-- The directory is taken to be there; without it no file is. -/
def createDirAll : Prog File (Reply Unit) := settle (sysError .other)

def removeFile (f : File) : Prog File (Reply Unit) :=
  Crash.removeFile (sysError .notFound) (sysError .other) f

/-! ### The text of a salt -/

/-- `char::to_digit(16)`. -/
def nibble (b : UInt8) : Option Nat :=
  let n := b.toNat
  if 48 ≤ n ∧ n ≤ 57 then some (n - 48)
  else if 97 ≤ n ∧ n ≤ 102 then some (n - 87)
  else if 65 ≤ n ∧ n ≤ 70 then some (n - 55)
  else none

def unhexPairs : List UInt8 → Option (List UInt8)
  | high :: low :: rest => do
      let high ← nibble high
      let low ← nibble low
      let bytes ← unhexPairs rest
      return UInt8.ofNat (high * 16 + low) :: bytes
  | _ => some []

def unhex32 (text : RustStr) : Option Salt := do
  let raw := RustStr.asBytes text
  if raw.length ≠ 64 then none
  else
    let bytes ← unhexPairs raw
    if size : bytes.length = 32 then some { bytes, size } else none

/-- `str::strip_suffix` with one character, or the text as it is. -/
def withoutSuffix (c : Char) (text : RustStr) : RustStr :=
  if text.getLast? = some c then text.dropLast else text

def saltOfText (text : RustStr) : Option Salt :=
  unhex32 (withoutSuffix '\r' (withoutSuffix '\n' text))

def saltText (salt : Salt) : RustStr := hex salt.bytes ++ ['\n']

/-- The content of `keys.salt` as a salt. -/
def saltIn (content : Option (List UInt8)) : Option Salt :=
  content.bind fun bytes => (Utf8.fromUtf8 bytes).bind saltOfText

theorem nibble_hexDigit : ∀ n : Fin 16, ∃ b, String.utf8EncodeChar (hexDigit n) = [b] ∧
    nibble b = some n.val ∧ hexDigit n ≠ '\r' := by
  intro n
  refine ⟨UInt8.ofNat (if n.val < 10 then 48 + n.val else 87 + n.val), ?_⟩
  revert n
  decide

theorem unhexPairs_hex (bytes : List UInt8) :
    (RustStr.asBytes (hex bytes)).length = 2 * bytes.length ∧
      unhexPairs (RustStr.asBytes (hex bytes)) = some bytes ∧ '\r' ∉ hex bytes := by
  induction bytes with
  | nil => exact ⟨rfl, rfl, List.not_mem_nil⟩
  | cons b bytes ih =>
      obtain ⟨hlen, hpairs, hreturn⟩ := ih
      have hhigh : b.toNat / 16 < 16 := Nat.div_lt_of_lt_mul b.toNat_lt
      have hlow : b.toNat % 16 < 16 := Nat.mod_lt _ (by decide)
      obtain ⟨high, hhighBytes, hhighNibble, hhighReturn⟩ := nibble_hexDigit ⟨_, hhigh⟩
      obtain ⟨low, hlowBytes, hlowNibble, hlowReturn⟩ := nibble_hexDigit ⟨_, hlow⟩
      have hhex : hex (b :: bytes) =
          hexDigit (b.toNat / 16) :: hexDigit (b.toNat % 16) :: hex bytes := rfl
      have hraw : RustStr.asBytes (hex (b :: bytes)) =
          high :: low :: RustStr.asBytes (hex bytes) := by
        rw [hhex, RustStr.asBytes_cons, RustStr.asBytes_cons, hhighBytes, hlowBytes]
        rfl
      refine ⟨?_, ?_, ?_⟩
      · rw [hraw, List.length_cons, List.length_cons, hlen, List.length_cons]
        omega
      · have hbyte : UInt8.ofNat (b.toNat / 16 * 16 + b.toNat % 16) = b := by
          rw [Nat.div_add_mod', UInt8.ofNat_toNat]
        rw [hraw, unhexPairs, hhighNibble, hlowNibble, hpairs]
        exact congrArg (fun b => some (b :: bytes)) hbyte
      · rw [hhex, List.mem_cons, List.mem_cons, not_or, not_or]
        exact ⟨hhighReturn.symm, hlowReturn.symm, hreturn⟩

/-- The text of a salt reads back. -/
theorem saltIn_saltText (salt : Salt) :
    saltIn (some (RustStr.asBytes (saltText salt))) = some salt := by
  obtain ⟨hlen, hpairs, hreturn⟩ := unhexPairs_hex salt.bytes
  have hfeed : withoutSuffix '\n' (saltText salt) = hex salt.bytes := by
    rw [withoutSuffix, saltText, List.getLast?_concat, if_pos rfl, List.dropLast_concat]
  have hbody : withoutSuffix '\r' (hex salt.bytes) = hex salt.bytes := by
    rw [withoutSuffix, if_neg]
    intro hlast
    exact hreturn (List.mem_of_getLast? hlast)
  have hsize : (RustStr.asBytes (hex salt.bytes)).length = 64 := by
    rw [hlen, salt.size]
  rw [saltIn, Option.bind_some, Utf8.fromUtf8_asBytes, Option.bind_some, saltOfText, hfeed,
    hbody, unhex32]
  rw [if_neg (not_not.mpr hsize), hpairs]
  exact dif_pos salt.size

/-! ### Reading and creating it -/

def loadSalt : Prog File (Reply (Option Salt)) := do
  match ← readToString .salt with
  | .error (.io .notFound _) => return .ok none
  | .error (.io .invalidData _) => return .error .malformedSalt
  | .error e => return .error e
  | .ok text =>
      match saltOfText text with
      | none => return .error .malformedSalt
      | some salt => return .ok (some salt)

def persistSalt (salt : Salt) : Prog File (Reply Unit) :=
  createDirAll.andThen fun () => (openNew .salt).andThen fun () => do
    match ← (write .salt (RustStr.asBytes (saltText salt))).andThen fun () => syncAll with
    | .error e =>
        -- A half-written salt would make the next load fail.
        let _ ← removeFile .salt
        return .error e
    | .ok () => return .ok ()

end Keyroost.Keyring
