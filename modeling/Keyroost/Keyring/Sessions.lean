import Keyroost.Keyring.Consistent
import Keyroost.Keyring.StoreLaws

/-!
# Sessions over the keyring's files

Programs load rings, edit them and save them, one action after another and in any order, while any
file operation may fail or be the last. A crash forgets the rings in memory.

The state is the disk, the rings that are open, and what the last save or conversion to get through
has put in place, which is what the disk owes from then on. An `Action` names the open ring it works
on and the fate of each of its file operations; `act` also gives the files at each point of the
action, so that a statement can speak of a computer that stops in the middle.
-/

namespace Keyroost.Keyring

open Crash

/-! ### States -/

/-- A ring in memory, with what `keys.json` held when it was loaded. The source keeps no such copy;
the statements need it of a ring that was converted from version 1. -/
structure Session where
  ring : Ring
  readFrom : Option (List UInt8)
deriving DecidableEq, Repr

/-- `owed` are the names that were last put in place: by the last save that completed or
whose file had taken the place of `keys.json` when it was cut off, and before any by the
file that was there from the start. -/
structure System where
  disk : Disk File
  sessions : List Session
  owed : List RustStr

/-- The names in `keys.json` or its backup. Those of version 1 count as every load cleans
them. -/
def namesIn (serde : Serde) (content : Option (List UInt8)) : List RustStr :=
  match contents serde content with
  | some (.v1 file) => file.keys.map fun e => stripControlChars e.name
  | some (.v2 file) => file.keys.map (·.name)
  | _ => []

def System.start (serde : Serde) (disk : Disk File) : System :=
  { disk, sessions := [], owed := namesIn serde (disk .keys) }

/-! ### Actions -/

inductive Action where
  /-- `load_from`; the salt is for a conversion. -/
  | load (fresh : Except KeyringError Salt) (fates : List Fate)
  /-- `Keyring::default()`, as callers use it after a load that failed. -/
  | new
  | edit (i : Nat) (edit : NameEdit)
  /-- `save_to` of a ring. -/
  | save (i : Nat) (fresh : Except KeyringError Salt) (fates : List Fate)
  /-- The program ends. -/
  | exit
deriving DecidableEq, Repr

namespace System

variable (serde : Serde) (h : Hasher)

def loaded (σ : System) (disk : Disk File) : Option (Reply Ring × List Fate) → System
  | none => { σ with disk, sessions := [] }
  | some (.error _, _) => { σ with disk }
  | some (.ok ring, _) =>
      { σ with disk, sessions := σ.sessions ++ [{ ring, readFrom := σ.disk .keys }] }

/-- Whether the file that a save of the ring writes is in the place of `keys.json`. -/
def placed (disk : Disk File) (ring : Ring) : Bool :=
  (disk .keys).isSome && decide (disk .keys = fileOf serde ring.keys)

def saved (σ : System) (disk : Disk File) (i : Nat) (session : Session) :
    Option ((Reply Unit × Ring) × List Fate) → System
  | none =>
      { disk, sessions := [],
        owed := if placed serde disk session.ring then session.ring.names else σ.owed }
  | some ((r, ring), _) =>
      { disk, sessions := σ.sessions.set i { session with ring },
        owed := if r = .ok () ∨ placed serde disk session.ring then session.ring.names
          else σ.owed }

/-- One action, with the files after each of its file operations. A crash may come after any of
them, so they are all kept and not the last alone. -/
def act (σ : System) : Action → System × List (Disk File)
  | .load fresh fates =>
      let run := loadFrom serde h fresh fates σ.disk
      (σ.loaded (run.last σ.disk) run.out, run.trace)
  | .new => ({ σ with sessions := σ.sessions ++ [{ ring := Ring.empty, readFrom := none }] }, [])
  | .edit i edit =>
      match σ.sessions[i]? with
      | none => (σ, [])
      | some session =>
          ({ σ with
              sessions := σ.sessions.set i { session with ring := edit.apply h session.ring } },
            [])
  | .save i fresh fates =>
      match σ.sessions[i]? with
      | none => (σ, [])
      | some session =>
          let run := session.ring.saveTo serde fresh fates σ.disk
          (σ.saved serde (run.last σ.disk) i session run.out, run.trace)
  | .exit => ({ σ with sessions := [] }, [])

def run : List Action → System → System
  | [], σ => σ
  | action :: actions, σ => run actions (σ.act serde h action).1

end System

end Keyroost.Keyring
