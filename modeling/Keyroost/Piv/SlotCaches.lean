import Keyroost.Piv.CertObject
import Mathlib.Logic.Function.Basic

/-!
# What a session remembers of the slots

The public key, the policy and the certificate that a session of
`keyroost-transport/src/piv.rs` has resolved for a slot, by key reference. An entry may say that
there is nothing; no entry says nothing.

Each cache is a structure with the operations of the source, and the lemmas say what an operation
leaves of the other slots. A move carries entries along (`migrate`): an entry of the slot that the
key leaves becomes one of the slot it comes to, and where there is none both are left as they are.
-/

namespace Keyroost.Piv

/-- What is known of a slot's private key. `unknown` is no answer: it is said where a card has no
way to tell, or where it failed to. -/
inductive SlotKeyPresence where
  | present
  | noKey
  | unknown
deriving DecidableEq, Repr

/-- The second field holds the references whose empty entry is the card saying that there is
no key. -/
structure PubkeyCache where
  entries : UInt8 → Option (Option (KeyAlg × PublicKey))
  noKey : UInt8 → Bool

namespace PubkeyCache

def empty : PubkeyCache := { entries := fun _ => none, noKey := fun _ => false }

def remember (self : PubkeyCache) (keyRef : UInt8) (value : Option (KeyAlg × PublicKey)) :
    PubkeyCache :=
  { entries := Function.update self.entries keyRef (some value)
    noKey := Function.update self.noKey keyRef false }

def rememberNoKey (self : PubkeyCache) (keyRef : UInt8) : PubkeyCache :=
  { entries := Function.update self.entries keyRef (some none)
    noKey := Function.update self.noKey keyRef true }

def presence (self : PubkeyCache) (keyRef : UInt8) : Option SlotKeyPresence :=
  (self.entries keyRef).map fun
    | some _ => .present
    | none => if self.noKey keyRef then .noKey else .unknown

def evict (self : PubkeyCache) (keyRef : UInt8) : PubkeyCache :=
  { entries := Function.update self.entries keyRef none
    noKey := Function.update self.noKey keyRef false }

/-- An entry that is not there is not carried along. -/
def migrate (self : PubkeyCache) (src dest : UInt8) : PubkeyCache :=
  match self.entries src with
  | some cached =>
      let noKey := Function.update self.noKey dest false
      { entries := Function.update (Function.update self.entries src none) dest (some cached)
        noKey := if noKey src then Function.update (Function.update noKey src false) dest true
          else noKey }
  | none => self

def get (self : PubkeyCache) (keyRef : UInt8) : Option (Option (KeyAlg × PublicKey)) :=
  self.entries keyRef

end PubkeyCache

structure PolicyCache where
  entries : UInt8 → Option (Option (PinPolicy × TouchPolicy))

namespace PolicyCache

def empty : PolicyCache := { entries := fun _ => none }

def remember (self : PolicyCache) (keyRef : UInt8) (value : Option (PinPolicy × TouchPolicy)) :
    PolicyCache := { entries := Function.update self.entries keyRef (some value) }

def evict (self : PolicyCache) (keyRef : UInt8) : PolicyCache :=
  { entries := Function.update self.entries keyRef none }

def migrate (self : PolicyCache) (src dest : UInt8) : PolicyCache :=
  match self.entries src with
  | some cached =>
      { entries := Function.update (Function.update self.entries src none) dest (some cached) }
  | none => self

def get (self : PolicyCache) (keyRef : UInt8) : Option (Option (PinPolicy × TouchPolicy)) :=
  self.entries keyRef

end PolicyCache

abbrev CertRead : Type := Except CertUnreadable (Option StoredCert)

structure CertCache where
  entries : UInt8 → Option CertRead

namespace CertCache

def empty : CertCache := { entries := fun _ => none }

def remember (self : CertCache) (keyRef : UInt8) (cert : CertRead) : CertCache :=
  { entries := Function.update self.entries keyRef (some cert) }

def forget (self : CertCache) (keyRef : UInt8) : CertCache :=
  { entries := Function.update self.entries keyRef none }

def get (self : CertCache) (keyRef : UInt8) : Option CertRead := self.entries keyRef

end CertCache

/-- The slots' part of a session's state. Each cache has an entry for the slots that were read, so
that an entry is a claim about the card, and a missing one is not. -/
structure Caches where
  pubkey : PubkeyCache
  policy : PolicyCache
  cert : CertCache

def Caches.empty : Caches := { pubkey := .empty, policy := .empty, cert := .empty }

/-! ### What an update leaves -/

section Updates

variable {slot slot' : Slot}

theorem keyRef_ne (h : slot' ≠ slot) : slot'.keyRef ≠ slot.keyRef :=
  fun heq => h (Slot.keyRef_injective heq)

theorem update_same {β : Type} (f : UInt8 → β) (slot : Slot) (v : β) :
    Function.update f slot.keyRef v slot.keyRef = v := Function.update_self ..

theorem update_other {β : Type} (f : UInt8 → β) (v : β) (h : slot' ≠ slot) :
    Function.update f slot.keyRef v slot'.keyRef = f slot'.keyRef :=
  Function.update_of_ne (keyRef_ne h) ..

end Updates

/-! ### What a move carries along -/

section Migrate

variable {src dest ref : UInt8}

theorem PubkeyCache.migrate_other (self : PubkeyCache) (hsrc : ref ≠ src) (hdest : ref ≠ dest) :
    (self.migrate src dest).entries ref = self.entries ref ∧
      (self.migrate src dest).noKey ref = self.noKey ref := by
  unfold migrate
  split
  · constructor
    · show Function.update _ _ _ _ = _
      rw [Function.update_of_ne hdest, Function.update_of_ne hsrc]
    · show (if _ then _ else _ : UInt8 → Bool) ref = _
      split
      · rw [Function.update_of_ne hdest, Function.update_of_ne hsrc, Function.update_of_ne hdest]
      · rw [Function.update_of_ne hdest]
  · exact ⟨rfl, rfl⟩

theorem PolicyCache.migrate_other (self : PolicyCache) (hsrc : ref ≠ src) (hdest : ref ≠ dest) :
    (self.migrate src dest).entries ref = self.entries ref := by
  unfold migrate
  split
  · show Function.update _ _ _ _ = _
    rw [Function.update_of_ne hdest, Function.update_of_ne hsrc]
  · rfl

theorem PubkeyCache.migrate_src (self : PubkeyCache) (hne : src ≠ dest) :
    (self.migrate src dest).entries src = none := by
  unfold migrate
  split
  · show Function.update _ _ _ _ = _
    rw [Function.update_of_ne hne, Function.update_self]
  · next hnone => exact hnone

theorem PolicyCache.migrate_src (self : PolicyCache) (hne : src ≠ dest) :
    (self.migrate src dest).entries src = none := by
  unfold migrate
  split
  · show Function.update _ _ _ _ = _
    rw [Function.update_of_ne hne, Function.update_self]
  · next hnone => exact hnone

theorem PubkeyCache.migrate_dest (self : PubkeyCache) (hne : src ≠ dest) :
    (self.migrate src dest).entries dest = (self.entries src).or (self.entries dest) ∧
      (self.migrate src dest).noKey dest =
        if (self.entries src).isSome then self.noKey src else self.noKey dest := by
  unfold migrate
  split
  · next cached hcached =>
      rw [hcached]
      refine ⟨Function.update_self .., ?_⟩
      show (if _ then _ else _ : UInt8 → Bool) dest = _
      rw [Function.update_of_ne hne]
      split
      · next hno => exact (Function.update_self ..).trans hno.symm
      · next hno => exact (Function.update_self ..).trans (Bool.eq_false_iff.mpr hno).symm
  · next hnone =>
      rw [hnone]
      exact ⟨rfl, rfl⟩

theorem PolicyCache.migrate_dest (self : PolicyCache) :
    (self.migrate src dest).entries dest = (self.entries src).or (self.entries dest) := by
  unfold migrate
  split
  · next cached hcached =>
      rw [hcached]
      exact Function.update_self ..
  · next hnone =>
      rw [hnone]
      rfl

end Migrate

end Keyroost.Piv
