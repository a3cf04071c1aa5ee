import Keyroost.Piv.SlotCard
import Keyroost.Piv.SlotSession

/-!
# The card behind a session

The slots of a card and what each question does to them. A command is carried out, refused, or its
answer is lost, and then it was carried out or not. What a card tells of a key is its firmware's to
say, and true.

The questions here are those of `SlotSession`, which are coarser than APDUs: a write of a
certificate or a key is one question, however many APDUs it takes. The last section justifies that:
`sendCertificate_refines`, `sendImportKey_refines` and `clearCertificate_refines` show that the
APDUs of `LongWrite`, against a card that reads them, do to the slot what the one question does.
-/

namespace Keyroost.Piv

open Transport Dialogue

/-! ### The slots -/

/-- A key, the algorithm byte it was made under, and its policies. It is what the card tells in its
metadata, as far as it tells them. -/
structure SlotKey where
  algId : UInt8
  pub : PublicKey
  policy : PinPolicy × TouchPolicy
deriving DecidableEq, Repr

abbrev Slots : Type := Slot → SlotContent (Option SlotKey)

namespace Slots

def setKey (s : Slots) (slot : Slot) (key : Option SlotKey) : Slots :=
  Function.update s slot { s slot with key }

def setCert (s : Slots) (slot : Slot) (cert : Option (List UInt8)) : Slots :=
  Function.update s slot { s slot with cert }

def empty : Slots := fun _ => { key := none, cert := none }

variable (s : Slots) {slot slot' : Slot}

theorem setKey_cert (slot slot' : Slot) (key : Option SlotKey) :
    (s.setKey slot key slot').cert = (s slot').cert := by
  by_cases hne : slot' = slot
  · rw [hne, setKey, Function.update_self]
  · rw [setKey, Function.update_of_ne hne]

theorem setKey_key_same (slot : Slot) (key : Option SlotKey) :
    (s.setKey slot key slot).key = key := by
  rw [setKey, Function.update_self]

theorem setKey_key_other (key : Option SlotKey)
    (hne : slot' ≠ slot) : (s.setKey slot key slot').key = (s slot').key := by
  rw [setKey, Function.update_of_ne hne]

theorem setCert_key (slot slot' : Slot) (cert : Option (List UInt8)) :
    (s.setCert slot cert slot').key = (s slot').key := by
  by_cases hne : slot' = slot
  · rw [hne, setCert, Function.update_self]
  · rw [setCert, Function.update_of_ne hne]

theorem setCert_cert_same (slot : Slot) (cert : Option (List UInt8)) :
    (s.setCert slot cert slot).cert = cert := by
  rw [setCert, Function.update_self]

theorem setCert_cert_other (cert : Option (List UInt8))
    (hne : slot' ≠ slot) : (s.setCert slot cert slot').cert = (s slot').cert := by
  rw [setCert, Function.update_of_ne hne]

end Slots

/-! ### What a card tells -/

/-- A key under its algorithm, which the applet knows the byte of. -/
def SlotKey.Named (applet : Applet) (k : SlotKey) (kv : KeyAlg × PublicKey) : Prop :=
  k.pub = kv.2 ∧ (applet.algOfId k.algId = some kv.1 ∨ k.algId = applet.algId kv.1)

/-- The metadata in what a card answers, if it is asked. -/
def metadataTold (applet : Applet) (told : Option (List UInt8)) : Option Metadata :=
  if !applet.metadataSent then none
  else told.bind fun data => metadataIn applet data SW_OK

def keyTold (applet : Applet) (told : Option (List UInt8)) : Option (KeyAlg × PublicKey) :=
  (metadataTold applet told).bind (Metadata.key applet)

/-- The policy in an attestation, if it is asked for. -/
def attestationTold (applet : Applet) (libs : SlotLibraries) (told : Option (List UInt8)) :
    Option (PinPolicy × TouchPolicy) :=
  if !applet.attestSent then none else (told.bind libs.keyPolicyExtension).bind policyFromIds

/-- What a card answers of a key, or of none, if it carries the question out. Its answers name
the key that is there and that key's policy. -/
structure Firmware (applet : Applet) (libs : SlotLibraries) where
  metadata : Option SlotKey → Option (List UInt8)
  attestation : Option SlotKey → Option (List UInt8)
  imported : UInt8 → List UInt8 → SlotKey
  named : ∀ x kv, keyTold applet (metadata x) = some kv → ∃ k, x = some k ∧ k.Named applet kv
  policy : ∀ x p, ((metadataTold applet (metadata x)).bind Metadata.slotPolicy).or
    (attestationTold applet libs (attestation x)) = some p → ∃ k, x = some k ∧ k.policy = p

variable {applet : Applet} {libs : SlotLibraries}

namespace Firmware

variable (fw : Firmware applet libs) (x : Option SlotKey)

def key : Option (KeyAlg × PublicKey) := keyTold applet (fw.metadata x)

def metadataPolicy : Option (PinPolicy × TouchPolicy) :=
  (metadataTold applet (fw.metadata x)).bind Metadata.slotPolicy

def attestedPolicy : Option (PinPolicy × TouchPolicy) :=
  attestationTold applet libs (fw.attestation x)

/-- GET METADATA first, then the attestation. -/
def slotPolicy : Option (PinPolicy × TouchPolicy) :=
  (fw.metadataPolicy x).or (fw.attestedPolicy x)

end Firmware

/-- What the object in a slot is read as. -/
def heldCertificate (libs : SlotLibraries) : Option (List UInt8) → CertRead
  | none => .ok none
  | some value => certObjectDecode libs.gunzip (pushTlv [TAG_DATA_TEMPLATE] value)

/-! ### What a question does -/

section Device

variable (fw : Firmware applet libs)

/-- A command carried out, with its data. A generated key is any that its answer describes; every
other command has one effect on the slots. -/
inductive CarriesOut (s : Slots) : SlotCommand → List UInt8 → Slots → Prop
  | generate (slot : Slot) (algId : UInt8) (pin : PinPolicy) (touch : TouchPolicy)
      (k : SlotKey) (data : List UInt8) : k.algId = algId → parsePublicKey data = some k.pub →
      CarriesOut s (.generate slot algId pin touch) data (s.setKey slot (some k))
  | clearCertificate (slot : Slot) (data : List UInt8) :
      CarriesOut s (.clearCertificate slot) data (s.setCert slot none)
  | getCertificate (slot : Slot) :
      CarriesOut s (.getCertificate slot)
        (pushTlv [TAG_DATA_TEMPLATE] ((s slot).cert.getD [])) s
  | metadata (slot : Slot) (data : List UInt8) : fw.metadata (s slot).key = some data →
      CarriesOut s (.metadata slot) data s
  | attest (slot : Slot) (data : List UInt8) : fw.attestation (s slot).key = some data →
      CarriesOut s (.attest slot) data s
  | moveKey (src dest : Slot) (data : List UInt8) : (s dest).key = none →
      CarriesOut s (.moveKey src dest) data ((s.setKey dest (s src).key).setKey src none)
  | deleteKey (slot : Slot) (data : List UInt8) :
      CarriesOut s (.deleteKey slot) data (s.setKey slot none)
  | hidDeleteKey (c4000 : Bool) (alg : KeyAlg) (slot : Slot) (data : List UInt8) :
      CarriesOut s (.hidDeleteKey c4000 alg slot) data (s.setKey slot none)
  | reset (data : List UInt8) : CarriesOut s .reset data .empty

/-- A command's reply. A refusal that says that there is no key is true. -/
def commandStep (s : Slots) (c : SlotCommand) (reply : Reply) (t : Slots) : Prop :=
  match reply with
  | .error _ => t = s ∨ ∃ data, CarriesOut fw s c data t
  | .ok (data, sw) =>
      if sw = SW_OK then CarriesOut fw s c data t
      else t = s ∧ ∀ slot, c = .metadata slot → metadataSaysNoKey applet (some sw) = true →
        (s slot).key = none

section Reply

variable {fw : Firmware applet libs} {s t : Slots} {c : SlotCommand} {data : List UInt8}
  {sw : UInt16}

theorem commandStep_done (hsw : sw = SW_OK) (h : commandStep fw s c (.ok (data, sw)) t) :
    CarriesOut fw s c data t := by
  rwa [commandStep, if_pos hsw] at h

theorem commandStep_refused (hsw : sw ≠ SW_OK) (h : commandStep fw s c (.ok (data, sw)) t) :
    t = s ∧ ∀ slot, c = .metadata slot → metadataSaysNoKey applet (some sw) = true →
      (s slot).key = none := by
  rwa [commandStep, if_neg hsw] at h

/-- Whatever the reply, the command was carried out or nothing changed. -/
theorem commandStep_either {reply : Reply} (h : commandStep fw s c reply t) :
    t = s ∨ ∃ data, CarriesOut fw s c data t := by
  rcases reply with e | ⟨data, sw⟩
  · exact h
  · by_cases hsw : sw = SW_OK
    · exact .inr ⟨data, commandStep_done hsw h⟩
    · exact .inl (commandStep_refused hsw h).1

end Reply

/-- Several commands in a row. An error that is not the card's may leave any of them done. -/
def sendStep {α : Type} (stored : α → Slots → Prop) (partly : Slots → Prop) (s : Slots)
    (a : Tried α) (t : Slots) : Prop :=
  match a with
  | .ok a => stored a t
  | .error e => t = s ∨ cardRefused e = false ∧ partly t

/-- The object that a certificate is stored as. -/
def storedObject (libs : SlotLibraries) (der : List UInt8) (done : CertImport) : List UInt8 :=
  encodeCertificate (storedPayload der (libs.gzipMember der) done)
    (if done.compressed then .gzip else .uncompressed)

def slotStep : Device SlotAnswer Slots := fun s q =>
  match q with
  | .command c => fun reply t => commandStep fw s c reply t
  | .sendCertificate slot der _ => fun a t =>
      sendStep (fun done t => t = s.setCert slot (some (storedObject libs der done)) ∧
          (storedCommand slot der (libs.gzipMember der) done).data.length ≤ 0xFFFF)
        (fun t => t = s.setCert slot (some (encodeCertificate der .uncompressed)) ∨
          t = s.setCert slot (some (encodeCertificate (libs.gzipMember der) .gzip))) s a t
  | .sendImportKey slot algId body => fun a t =>
      sendStep (fun _ t => t = s.setKey slot (some (fw.imported algId body)))
        (fun t => t = s.setKey slot (some (fw.imported algId body))) s a t
  | .hidSlotAlgorithm _ => fun _ t => t = s
  | .managementKeyAlgorithm => fun _ t => t = s

end Device

/-! ### One slot, command by command -/

section Sent

variable {fw : Firmware applet libs} {slot : Slot} {s : Slots}
  {card card' : Card (SlotContent (Option SlotKey))} {log : List ImportLine}

/-- The slot's key under an import, by the firmware. -/
abbrev Firmware.importSlot (fw : Firmware applet libs) (slot : Slot) :
    Device ImportAnswer (Card (SlotContent (Option SlotKey))) :=
  importStep (fun algId body => some (fw.imported algId body)) slot

theorem update_setCert (hslot : card.slots = s slot) {cert : Option (List UInt8)}
    (hkey : card'.slots.key = card.slots.key) (hcert : card'.slots.cert = cert) :
    Function.update s slot card'.slots = s.setCert slot cert := by
  have hcontent : card'.slots = { s slot with cert } :=
    congrArg₂ SlotContent.mk (hkey.trans (congrArg SlotContent.key hslot)) hcert
  rw [hcontent, Slots.setCert]

theorem update_setKey (hslot : card.slots = s slot) {key : Option SlotKey}
    (hcert : card'.slots.cert = card.slots.cert) (hkey : card'.slots.key = key) :
    Function.update s slot card'.slots = s.setKey slot key := by
  have hcontent : card'.slots = { s slot with key } :=
    congrArg₂ SlotContent.mk hkey (hcert.trans (congrArg SlotContent.cert hslot))
  rw [hcontent, Slots.setKey]

theorem update_unchanged (hslot : card.slots = s slot) (hsame : card'.slots = card.slots) :
    Function.update s slot card'.slots = s := by
  rw [hsame, hslot, Function.update_eq_self]

/-- **The chunks of a certificate, in either form of the command, do to the slot what the
session's one question does.** -/
theorem sendCertificate_refines {link : LongLink} {der : List UInt8}
    {compression : CertCompression} (hfits : CertFits libs.gzipMember slot der compression)
    (hidle : card.chain = none) (hslot : card.slots = s slot) {r : Tried CertImport}
    (h : Runs (fw.importSlot slot) card
      (sendCertificate transmit libs.gzipMember link slot der compression) log r card') :
    slotStep fw s (.sendCertificate slot der compression) r
      (Function.update s slot card'.slots) := by
  have hsent := runs_sendCertificate hfits hidle h
  obtain ⟨-, hkey, hstored, hrefused, heither⟩ := hsent
  rcases r with e | done
  · by_cases hcard : cardRefused e = true
    · exact .inl (update_unchanged hslot (hrefused e rfl hcard))
    · rcases heither with hsame | hcert | hcert
      · exact .inl (update_unchanged hslot hsame)
      · exact .inr ⟨Bool.eq_false_iff.mpr hcard, .inl (update_setCert hslot hkey hcert)⟩
      · exact .inr ⟨Bool.eq_false_iff.mpr hcard, .inr (update_setCert hslot hkey hcert)⟩
  · obtain ⟨hcert, hsize⟩ := hstored done rfl
    exact ⟨update_setCert hslot hkey hcert, hsize⟩

/-- The same of a key. -/
theorem sendImportKey_refines {link : LongLink} {algId : UInt8} {body : List UInt8}
    (hfits : body.length ≤ 0xFFFF) (hidle : card.chain = none) (hslot : card.slots = s slot)
    {r : Tried Unit} (h : Runs (fw.importSlot slot) card
      (sendImportKey transmit link slot algId body) log r card') :
    slotStep fw s (.sendImportKey slot algId body) r (Function.update s slot card'.slots) := by
  obtain ⟨-, hcert, hwritten, hrefused, heither⟩ := runs_sendImportKey hfits hidle h
  rcases r with e | done
  · by_cases hcard : cardRefused e = true
    · exact .inl (update_unchanged hslot (hrefused e rfl hcard))
    · rcases heither with hsame | hkey
      · exact .inl (update_unchanged hslot (congrArg₂ SlotContent.mk hsame hcert))
      · exact .inr ⟨Bool.eq_false_iff.mpr hcard, update_setKey hslot hcert hkey⟩
  · exact update_setKey hslot hcert (hwritten rfl)

/-- The same of a delete of the certificate, which is one command. -/
theorem clearCertificate_refines (hidle : card.chain = none) (hslot : card.slots = s slot)
    {r : Reply} (h : Runs (fw.importSlot slot) card (transmit (clearCertificate slot)) log r
      card') :
    slotStep fw s (.command (.clearCertificate slot)) r
      (Function.update s slot card'.slots) := by
  have hdone : ∀ {data}, CarriedOut (SlotEffect (fun algId body => some (fw.imported algId body))
      slot) card (putCommand slot.certObjectTag []) data card' → CarriesOut fw s (.clearCertificate slot)
        data (Function.update s slot card'.slots) := by
    intro data hcarried
    have hslots := slotEffect_cert hcarried.1
    rw [if_pos rfl] at hslots
    rw [update_setCert hslot (by rw [hslots]) (congrArg SlotContent.cert hslots)]
    exact .clearCertificate slot data
  obtain ⟨-, ⟨data, sw, rfl, -, hacts⟩ | ⟨e, rfl, -, data, hcarried⟩⟩ :=
    runs_transmit (readApdu_clearCertificate slot) hidle h
  · show if sw = SW_OK then _ else _
    split at hacts
    · next hsw =>
        rw [if_pos hsw]
        exact hdone hacts
    · next hsw =>
        rw [if_neg hsw]
        exact ⟨update_unchanged hslot hacts.1, nofun⟩
  · exact .inr ⟨data, hdone hcarried⟩

end Sent

end Keyroost.Piv
