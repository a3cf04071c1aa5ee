import Mathlib.Logic.Function.Basic
import Keyroost.OpenPgp.KeySet

/-!
# A card that keys are loaded into

What each command does to the slots, and when: a command is carried out when the card answers
`9000`, not when it answers another status word, and either way when the answer is lost.

The card is a relation between its state, a command, the reply and the next state (`cardStep`), so
one statement covers every card and every loss. `answeringCard` is the same card as long as writes
of attributes are answered. `Registered` is the state of a slot that holds a key with its time and
its fingerprint.
-/

namespace Keyroost.OpenPgp

/-- One slot: its algorithm, its key as the object that was loaded, and what is registered. The
fingerprint and the time are registered by commands of their own, so a slot may have a key without
them. -/
structure CardSlot where
  attributes : List UInt8
  key : Option (List UInt8)
  created : Option UInt32
  fingerprint : Option (List UInt8)
deriving DecidableEq, Repr

/-- The slots, and the data of the links of a chain so far. A command of a long body comes in links,
and only the last of them is carried out. -/
structure OpenPgpCard where
  slot : KeyCrt → CardSlot
  chain : List UInt8

namespace OpenPgpCard

/-- A card that is in no chain. -/
def idle (s : OpenPgpCard) : OpenPgpCard := { s with chain := [] }

def change (s : OpenPgpCard) (crt : KeyCrt) (new : CardSlot) : OpenPgpCard :=
  { slot := Function.update s.slot crt new, chain := [] }

end OpenPgpCard

/-- A slot set to an algorithm. Another one than it had erases it. -/
def CardSlot.setTo (slot : CardSlot) (attr : List UInt8) : CardSlot :=
  if attr = slot.attributes then slot
  else { attributes := attr, key := none, created := none, fingerprint := none }

namespace CardAsk

def isWrite : CardAsk → Bool
  | getApplicationRelatedData | getAlgorithmInformation | readPublicKey _ => false
  | _ => true

/-- The card after it has carried a command out. -/
def carriedOut (s : OpenPgpCard) : CardAsk → OpenPgpCard
  | getApplicationRelatedData | getAlgorithmInformation | readPublicKey _ => s.idle
  | putAlgorithmAttributes crt attr => s.change crt ((s.slot crt).setTo attr)
  | importKey crt object => s.change crt { s.slot crt with key := some object }
  | importLink crt last data =>
      if last = true then s.change crt { s.slot crt with key := some (s.chain ++ data) }
      else { s with chain := s.chain ++ data }
  | putGenerationTime crt created => s.change crt { s.slot crt with created := some created }
  | putFingerprint crt fpr => s.change crt { s.slot crt with fingerprint := some fpr }

end CardAsk

/-- A status word of 9000 says that the command was carried out, another that it was not, and a
lost answer nothing. Data may be any. -/
def cardStep : Dialogue.Device CardReply OpenPgpCard := fun s q reply t =>
  match reply with
  | .ok (_, sw) => if sw = SW_OK then t = q.carriedOut s else t = s.idle
  | .error _ => t = q.carriedOut s ∨ t = s.idle

/-- The answer to an attribute write arrives. -/
def AttributesAnswered (x : Dialogue.Asked CardReply) : Prop :=
  ∀ crt attr e, x.1 = .putAlgorithmAttributes crt attr → x.2 ≠ .error e

/-- A card, in the conversations where every attribute write is answered. -/
def answeringCard : Dialogue.Device CardReply OpenPgpCard :=
  Dialogue.only cardStep AttributesAnswered

/-! ### What a slot holds -/

/-- The object that a key of the set is loaded as: what depends on the card is the format of an
RSA key, and whether a public point goes with a key on a curve. -/
def ObjectOf (k : KeyImport) (object : List UInt8) : Prop :=
  match k.key with
  | .rsa parts => ∃ format eBits, extendedHeaderList k.crt parts format eBits = .ok object
  | .ecc parts => ∃ attr, eccExtendedHeaderList k.crt (sentParts parts attr)
      ((k.alg.curve.map Curve.fieldLen).getD 0) = some (.ok object)

/-- A slot holds a key of the set with the file's creation time and fingerprint. All three have to
be there: the card computes none of them from the others. -/
structure Registered (k : KeyImport) (t : OpenPgpCard) : Prop where
  key : ∃ object, (t.slot k.crt).key = some object ∧ ObjectOf k object
  created : (t.slot k.crt).created = some k.created
  fingerprint : (t.slot k.crt).fingerprint = some k.expectFpr

/-! ### Changes -/

theorem change_slot (s : OpenPgpCard) (crt : KeyCrt) (new : CardSlot) :
    (s.change crt new).slot crt = new := by
  simp only [OpenPgpCard.change, Function.update_self]

theorem change_elsewhere (s : OpenPgpCard) {crt other : KeyCrt} (new : CardSlot)
    (h : other ≠ crt) : (s.change crt new).slot other = s.slot other := by
  simp only [OpenPgpCard.change, Function.update_of_ne h]

/-- A command that reads changes no slot, and ends a chain. -/
theorem carriedOut_read {q : CardAsk} (h : q.isWrite = false) (s : OpenPgpCard) :
    q.carriedOut s = s.idle := by
  cases q with
  | getApplicationRelatedData => rfl
  | getAlgorithmInformation => rfl
  | readPublicKey crt => rfl
  | putAlgorithmAttributes crt attr => cases h
  | importKey crt object => cases h
  | importLink crt last data => cases h
  | putGenerationTime crt created => cases h
  | putFingerprint crt fpr => cases h

end Keyroost.OpenPgp
