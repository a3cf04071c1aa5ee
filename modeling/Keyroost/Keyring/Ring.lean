import Keyroost.Keyring.Record

/-!
# The keyring in memory

The records of `keys.json` with this computer's salt, and the operations of
`keyroost-keyring/src/lib.rs` that look them up and edit them. Where an operation may need a new
salt, `fresh` is what the operating system's random source gives.

A ring remembers whether its salt is on disk and where its records come from, since saving depends
on both. Operations return the ring beside their result, also when they fail: a new salt may have
been made before the failure. What they do to the names is the subject of `Consistent`.
-/

namespace Keyroost.Keyring

/-- What `keys.json` held when a ring was loaded. A ring that comes of an old file keeps a copy of
that file when it is first saved. -/
inductive Origin where
  | fresh
  | v2
  | convertedFromV1 (backupPending : Bool)
deriving DecidableEq, Repr

structure LoadReport where
  converted : Nat
  persisted : Bool
deriving DecidableEq, Repr

structure Ring where
  keys : List KeyRecord
  salt : Option Salt
  saltPersisted : Bool
  origin : Origin
  report : Option LoadReport
deriving DecidableEq, Repr

/-- An empty ring, as `Keyring::default` gives it. -/
def Ring.empty : Ring :=
  { keys := [], salt := none, saltPersisted := false, origin := .fresh, report := none }

namespace Ring

variable (h : Hasher)

/-! ### The salt -/

def ensureSalt (fresh : Except KeyringError Salt) (ring : Ring) :
    Except KeyringError Salt × Ring :=
  match ring.salt with
  | some salt => (.ok salt, ring)
  | none =>
      match fresh with
      | .error e => (.error e, ring)
      | .ok salt => (.ok salt, { ring with salt := some salt, saltPersisted := false })

def fingerprintOf (ring : Ring) (serial : RustStr) : Option Fingerprint :=
  if (canonicalSerial h serial).isEmpty then none
  else ring.salt.map fun salt => fingerprint h salt serial

/-! ### Looking up -/

def isOf (r : KeyRecord) (fp : Option Fingerprint) : Bool :=
  fp.isSome && decide (r.fingerprint = fp)

def holder (ring : Ring) (name : RustStr) : Option KeyRecord :=
  ring.keys.find? fun r => decide (r.name = name)

def localNameFor (ring : Ring) (serial : RustStr) : Option RustStr :=
  let fp := ring.fingerprintOf h serial
  (ring.keys.find? fun r => decide (r.stored = .computer) && isOf r fp).map (·.name)

def recordsFor (ring : Ring) (serial : RustStr) : List KeyRecord :=
  let fp := ring.fingerprintOf h serial
  ring.keys.filter fun r => isOf r fp

/-! ### Editing -/

/-- The records that a name for `fp` in `store` replaces. -/
def replaced (fp : Option Fingerprint) (name : RustStr) (store : NameStore) (r : KeyRecord) :
    Bool :=
  isOf r fp && (decide (store = .key) || decide (r.stored = .computer) || decide (r.name = name))

def setName (fresh : Except KeyringError Salt) (ring : Ring) (serial name : RustStr)
    (store : NameStore) (info : RecordMeta) : Except KeyringError Unit × Ring :=
  match validateName name with
  | .error e => (.error e, ring)
  | .ok () =>
      if (canonicalSerial h serial).isEmpty then (.error .noSerial, ring)
      else
        match ring.ensureSalt fresh with
        | (.error e, ring) => (.error e, ring)
        | (.ok salt, ring) =>
            let fp := some (fingerprint h salt serial)
            if (ring.holder name).any fun r => !isOf r fp then
              (.error (.duplicateName name), ring)
            else
              let record := sanitizeRecord
                { name, fingerprint := fp, stored := store, source := info.source,
                  vendor := info.vendor, aaguid := none, note := none }
              let kept := ring.keys.filter fun r => !replaced fp name store r
              match ring.keys.findIdx? (replaced fp name store) with
              | some i => (.ok (), { ring with keys := kept.insertIdx i record })
              | none => (.ok (), { ring with keys := kept ++ [record] })

def recordFirstSeen (fresh : Except KeyringError Salt) (ring : Ring) (serial name : RustStr) :
    Bool × Ring :=
  match validateName name with
  | .error _ => (false, ring)
  | .ok () =>
      if (canonicalSerial h serial).isEmpty ∨ (ring.holder name).isSome then (false, ring)
      else
        match ring.ensureSalt fresh with
        | (.error _, ring) => (false, ring)
        | (.ok salt, ring) =>
            (true, { ring with
              keys := ring.keys ++ [{
                name, fingerprint := some (fingerprint h salt serial), stored := .key,
                source := .usb, vendor := none, aaguid := none, note := none }] })

def dropStaleKeyRecords (ring : Ring) (serial current : RustStr) : Nat × Ring :=
  let fp := ring.fingerprintOf h serial
  let kept := ring.keys.filter fun r =>
    !(isOf r fp && decide (r.stored = .key) && decide (r.name ≠ current))
  (ring.keys.length - kept.length, { ring with keys := kept })

def clearKey (ring : Ring) (serial : RustStr) : List KeyRecord × Ring :=
  let fp := ring.fingerprintOf h serial
  (ring.keys.filter (isOf · fp), { ring with keys := ring.keys.filter fun r => !isOf r fp })

def remove (ring : Ring) (name : RustStr) : Option KeyRecord × Ring :=
  match ring.keys.findIdx? fun r => decide (r.name = name) with
  | none => (none, ring)
  | some i => (ring.keys[i]?, { ring with keys := ring.keys.eraseIdx i })

end Ring

end Keyroost.Keyring
