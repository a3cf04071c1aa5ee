import Keyroost.Keyring.Format
import Keyroost.Keyring.SaltFile

/-!
# Loading and saving

`keys.json` is replaced by a rename of a file written beside it. A version 1 file is converted by
the load that reads it: the salt first, then a backup, the new file, and the backup away again.
Where a new salt is needed, `fresh` is what the operating system's random source gives.

The functions are those of `keyroost-keyring/src/lib.rs`, as programs of `Crash` in the source's
order of file operations, on which everything that is kept depends. A save looks at the file that it
is about to replace (`Ring.mayReplace`): a file that the ring has not read, or one that cannot be
read, is left alone.
-/

namespace Keyroost.Keyring

open Crash

def removeStaleBackup : Prog File Unit := do
  let _ ← removeFile .backup

def writeNewPrivate (f : File) (bytes : List UInt8) : Prog File (Reply Unit) :=
  (openNew f).andThen fun () => (write f bytes).andThen fun () => syncAll

def writeAtomic (json : RustStr) : Prog File (Reply Unit) := do
  let _ ← removeFile .tmp
  (writeNewPrivate .tmp (fileBytes json)).andThen fun () =>
    (rename (sysError .notFound) (sysError .other) .tmp .keys).andThen fun () => syncAll

/-! ### The salt of a ring -/

def Ring.persistSaltIfNeeded (fresh : Except KeyringError Salt) (ring : Ring) :
    Prog File (Reply Unit × Ring) :=
  match ring.ensureSalt fresh with
  | (.error e, ring) => return (.error e, ring)
  | (.ok salt, ring) =>
      if ring.saltPersisted then return (.ok (), ring)
      else do
        match ← persistSalt salt with
        | .ok () => return (.ok (), { ring with saltPersisted := true })
        | .error (.io .alreadyExists _) =>
            match ← loadSalt with
            | .error e => return (.error e, ring)
            | .ok held =>
                if held = some salt then return (.ok (), { ring with saltPersisted := true })
                else
                  let message := SALT_FILE ++
                    " was created by another keyroost process; reload and try again"
                  return (.error (.io .alreadyExists message), ring)
        | .error e => return (.error e, ring)

section Files

variable (serde : Serde) (h : Hasher)

/-! ### Conversion -/

/-- Back up `original`, write the ring over it and remove the backup. The original is in its place
or in the backup until the new file was seen to be there. -/
def Ring.finishConversion (ring : Ring) (original : List UInt8) :
    Prog File (Reply Unit × Ring) := do
  let _ ← removeFile .backup
  match ← writeNewPrivate .backup original with
  | .error e => return (.error e, ring)
  | .ok () =>
      match ring.toJson serde with
      | .error e => return (.error e, ring)
      | .ok json =>
          match ← writeAtomic json with
          | .error e =>
              if (← read .keys).toOption = some original then
                let _ ← removeFile .backup
              return (.error e, ring)
          | .ok () =>
              let ring := { ring with origin := .convertedFromV1 false }
              if (← read .keys).toOption ≠ some (fileBytes json) then
                let message := "keys.json changed during conversion; the backup was kept"
                return (.error (.io .other message), ring)
              else
                match ← removeFile .backup with
                | .error e => return (.error e, ring)
                | .ok () => return (.ok (), { ring with origin := .v2 })

/-- The records of `old` under the ring's salt, and their way to the disk if the salt is
there. -/
def Ring.convertRecords (ring : Ring) (salt : Salt) (saltOnDisk : Bool) (text : RustStr)
    (old : FileV1) : Prog File Ring := do
  let ring := { ring with keys := convertV1 h salt old }
  let (_, ring) ←
    if saltOnDisk then ring.finishConversion serde (RustStr.asBytes text)
    else pure (.ok (), ring)
  let report := { converted := old.keys.length,
                  persisted := decide (ring.origin ≠ .convertedFromV1 true) }
  return { ring with report := some report }

def convert (fresh : Except KeyringError Salt) (text : RustStr) (old : FileV1) :
    Prog File (Reply Ring) :=
  let ring := { Ring.empty with origin := .convertedFromV1 true }
  loadSalt.andThen fun
    | some salt => do
        let ring := { ring with salt := some salt, saltPersisted := true }
        return .ok (← ring.convertRecords serde h salt true text old)
    | none =>
        match fresh with
        | .error e => return .error e
        | .ok salt => do
            let (persisted, ring) ←
              { ring with salt := some salt }.persistSaltIfNeeded (.ok salt)
            return .ok (← ring.convertRecords serde h salt persisted.toOption.isSome text old)

/-! ### Load -/

def loadFrom (fresh : Except KeyringError Salt) : Prog File (Reply Ring) := do
  match ← readToString .keys with
  | .error (.io .notFound _) =>
      removeStaleBackup
      loadSalt.andThen fun salt =>
        return .ok { Ring.empty with saltPersisted := salt.isSome, salt }
  | .error (.io .invalidData _) => return .error (.damaged "not text")
  | .error e => return .error e
  | .ok text =>
      match parse serde text with
      | .error e => return .error e
      | .ok (.newer v) => return .error (.newerFormat v)
      | .ok (.v1 old) => convert serde h fresh text old
      | .ok (.v2 file) =>
          removeStaleBackup
          let keys := file.keys.map sanitizeRecord
          loadSalt.andThen fun salt =>
            -- Without the salt no stored fingerprint can be matched.
            let keys := if salt.isNone then keys.map fun r => { r with fingerprint := none }
              else keys
            return .ok { keys, saltPersisted := salt.isSome, salt, origin := .v2, report := none }

/-! ### Save -/

/-- Whether the ring may be saved over what is on disk: the version 1 bytes to convert, if
it is a version 1 file. -/
def Ring.mayReplace (ring : Ring) : Reply RustStr → Except KeyringError (Option RustStr)
  | .ok text =>
      match parse serde text with
      | .error e => .error e
      | .ok (.newer v) => .error (.newerFormat v)
      | .ok (.v1 _) =>
          if ring.origin = .convertedFromV1 true then .ok (some text) else .error .unconverted
      | .ok (.v2 _) => .ok none
  | .error (.io .notFound _) => .ok none
  | .error (.io .invalidData _) => .error (.damaged "not text")
  | .error e => .error e

def Ring.converting (ring : Ring) : Bool :=
  match ring.origin with
  | .convertedFromV1 _ => true
  | _ => false

/-- Put the ring in the place of a file that is not version 1. -/
def Ring.replaceFile (ring : Ring) : Prog File (Reply Unit × Ring) :=
  match ring.toJson serde with
  | .error e => return (.error e, ring)
  | .ok json => do
      match ← writeAtomic json with
      | .error e => return (.error e, ring)
      | .ok () =>
          if ring.converting then
            match ← removeFile .backup with
            | .ok () | .error (.io .notFound _) => return (.ok (), { ring with origin := .v2 })
            | .error e => return (.error e, ring)
          else return (.ok (), ring)

/-- A save whose ring may replace what is on disk. -/
def Ring.saveOver (fresh : Except KeyringError Salt) (ring : Ring) (v1OnDisk : Option RustStr) :
    Prog File (Reply Unit × Ring) := do
  match ← createDirAll with
  | .error e => return (.error e, ring)
  | .ok () =>
      match ← ring.persistSaltIfNeeded fresh with
      | (.error e, ring) => return (.error e, ring)
      | (.ok (), ring) =>
          match v1OnDisk with
          | some original => ring.finishConversion serde (RustStr.asBytes original)
          | none => ring.replaceFile serde

/-- The permissions of the directory are left out. -/
def Ring.saveTo (fresh : Except KeyringError Salt) (ring : Ring) :
    Prog File (Reply Unit × Ring) := do
  match ring.mayReplace serde (← readToString .keys) with
  | .error e => return (.error e, ring)
  | .ok v1OnDisk => ring.saveOver serde fresh v1OnDisk

end Files

end Keyroost.Keyring
