import Keyroost.Library.Session
import Keyroost.Piv.ImportRun
import Keyroost.Piv.Metadata
import Keyroost.Piv.SlotCaches

/-!
# A session's operations on the slots

What each operation of `keyroost-transport/src/piv.rs` and `keyroost-transport/src/piv_import.rs` on
a slot asks the card, and what it then remembers. An answer that is lost is an error of the link,
whatever the card has done.

The operations are programs over the caches of `SlotCaches`. Reads look into the caches first and
ask only for what is not there; what a card reports of a key depends on the applet, so several ways
of finding out are tried in the order of the source (`resolveSlotFromDevice`, `slotPolicy`). The
write of a key drops what was cached of it even if its answer is lost. `SlotOp` lists the
operations, for statements about runs of them.
-/

namespace Keyroost.Piv

open Transport

/-! ### What is asked -/

/-- One command to the card, as far as it concerns the slots, with what its bytes say. -/
inductive SlotCommand where
  | generate (slot : Slot) (algId : UInt8) (pin : PinPolicy) (touch : TouchPolicy)
  | clearCertificate (slot : Slot)
  | getCertificate (slot : Slot)
  | metadata (slot : Slot)
  | attest (slot : Slot)
  | moveKey (src dest : Slot)
  | deleteKey (slot : Slot)
  | hidDeleteKey (c4000 : Bool) (alg : KeyAlg) (slot : Slot)
  | reset
deriving DecidableEq, Repr

/-- A command, a certificate or a key sent as one or more commands, or what the session reads
of the applet: the algorithm of a slot in the properties of a HID Crescendo, and that of the
management key. -/
inductive SlotAsk where
  | command (c : SlotCommand)
  | sendCertificate (slot : Slot) (der : List UInt8) (compression : CertCompression)
  | sendImportKey (slot : Slot) (algId : UInt8) (body : List UInt8)
  | hidSlotAlgorithm (slot : Slot)
  | managementKeyAlgorithm
deriving DecidableEq, Repr

@[reducible] def SlotAnswer : SlotAsk → Type
  | .command _ => Reply
  | .sendCertificate .. => Tried CertImport
  | .sendImportKey .. => Tried Unit
  | .hidSlotAlgorithm _ => Option KeyAlg
  | .managementKeyAlgorithm => Option MgmtAlg

abbrev SlotTalk : Type → Type := Session SlotAnswer Caches

def transmitSlot (c : SlotCommand) : SlotTalk Reply := Session.ask (SlotAsk.command c)

inductive SessionError where
  | transport (e : TransportError)
  | pivParse
  | pivDestinationOccupied (slot : Slot)
  | pivDeleteKeyAlgorithmUnknown (slot : Slot)
  | pivDeleteKeyHidCrescendoGenericFailed (e : SessionError)
  | pivImportCertificateKeyMismatch (slot : Slot)
  | pivImportCertificateAlgorithmMismatch (slot : Slot) (slotAlgorithm certificateAlgorithm : KeyAlg)
deriving DecidableEq, Repr

abbrev Answered (α : Type) : Type := Except SessionError α

/-- The libraries that slot reads rest on, besides those of the import: the algorithm of a
certificate's key, and the policy extension of an attestation. -/
structure SlotLibraries extends Libraries where
  certificateAlgorithm : List UInt8 → Option KeyAlg
  keyPolicyExtension : List UInt8 → Option (UInt8 × UInt8)

section Operations

variable (applet : Applet) (libs : SlotLibraries)

/-! ### What is remembered -/

def rememberPubkey (slot : Slot) (value : Option (KeyAlg × PublicKey)) : SlotTalk PUnit :=
  modify fun c => { c with pubkey := c.pubkey.remember slot.keyRef value }

def rememberNoKey (slot : Slot) : SlotTalk PUnit :=
  modify fun c => { c with pubkey := c.pubkey.rememberNoKey slot.keyRef }

def rememberPolicy (slot : Slot) (value : Option (PinPolicy × TouchPolicy)) : SlotTalk PUnit :=
  modify fun c => { c with policy := c.policy.remember slot.keyRef value }

def rememberCert (slot : Slot) (cert : CertRead) : SlotTalk PUnit :=
  modify fun c => { c with cert := c.cert.remember slot.keyRef cert }

def forgetCert (slot : Slot) : SlotTalk PUnit :=
  modify fun c => { c with cert := c.cert.forget slot.keyRef }

/-- What was cached of the slot's key describes the old one. -/
def evictKey (slot : Slot) : SlotTalk PUnit :=
  modify fun c => { c with
    policy := c.policy.evict slot.keyRef
    pubkey := c.pubkey.evict slot.keyRef }

def migrateKey (src dest : Slot) : SlotTalk PUnit :=
  modify fun c => { c with
    pubkey := c.pubkey.migrate src.keyRef dest.keyRef
    policy := c.policy.migrate src.keyRef dest.keyRef }

/-! ### Reads of a slot's key -/

/-- The reply's status word, none if nothing came back, and what it says. -/
def metadataReply (slot : Slot) : SlotTalk (Option UInt16 × Option Metadata) :=
  if !applet.metadataSent then return (none, none)
  else do
    match ← transmitSlot (.metadata slot) with
    | .error _ => return (none, none)
    | .ok (data, sw) => return (some sw, metadataIn applet data sw)

/-- Only a policy that the reply names is remembered. -/
def rememberReported (slot : Slot) : Option (PinPolicy × TouchPolicy) → SlotTalk PUnit
  | some policy => rememberPolicy slot (some policy)
  | none => pure ⟨⟩

/-- The key that the card names now, and whether it says that there is none. -/
def resolveSlotFromDevice (slot : Slot) : SlotTalk (Option (KeyAlg × PublicKey) × Bool) := do
  let (sw, md) ← metadataReply applet slot
  rememberReported slot (md.bind Metadata.slotPolicy)
  return (md.bind (Metadata.key applet), metadataSaysNoKey applet sw)

/-- A card that says that there is no key is remembered apart from one that names none. -/
def rememberResolved (slot : Slot) (resolved : Option (KeyAlg × PublicKey)) (noKey : Bool) :
    SlotTalk PUnit :=
  if noKey && resolved.isNone then rememberNoKey slot else rememberPubkey slot resolved

/-- Resolved before, or resolved and remembered now, whatever the answer. -/
def cachedSlotKey (slot : Slot) : SlotTalk (Option (KeyAlg × PublicKey)) := do
  match (← get).pubkey.get slot.keyRef with
  | some resolved => return resolved
  | none =>
      let (resolved, noKey) ← resolveSlotFromDevice applet slot
      rememberResolved slot resolved noKey
      return resolved

/-- Always asks the card. Silence leaves what is cached. -/
def confirmedSlotKey (slot : Slot) : SlotTalk (Option (KeyAlg × PublicKey)) := do
  match ← resolveSlotFromDevice applet slot with
  | (some kv, _) =>
      rememberPubkey slot (some kv)
      return some kv
  | (none, _) => return ((← get).pubkey.get slot.keyRef).join

def hidCrescendoSlotAlgorithm (slot : Slot) : SlotTalk (Option KeyAlg) :=
  if applet.hidCrescendo.isSome then Session.ask (SlotAsk.hidSlotAlgorithm slot) else return none

def slotKeyPresence (slot : Slot) : SlotTalk SlotKeyPresence := do
  if (← cachedSlotKey applet slot).isSome then return .present
  else if (← hidCrescendoSlotAlgorithm applet slot).isSome then return .present
  else return ((← get).pubkey.presence slot.keyRef).getD .unknown

def slotHasKey (slot : Slot) : SlotTalk Bool := do
  return (← cachedSlotKey applet slot).isSome

def reportedSlotKey (slot : Slot) : SlotTalk (Option (KeyAlg × PublicKey)) := do
  return (← resolveSlotFromDevice applet slot).1

def NO_SLOT_KEY : SessionError := .transport (.malformedResponse (
  "slot has no key, or GET METADATA doesn't name this slot's key and " ++
  "the key material wasn't handed to this session — run `piv key generate` " ++
  "on this slot in this same session, or pass its previously saved " ++
  "key material to this command, so it can be cached for " ++
  "`piv cert request`/`piv cert generate`"))

def slotKey (slot : Slot) : SlotTalk (Answered (KeyAlg × PublicKey)) := do
  match ← confirmedSlotKey applet slot with
  | some kv => return .ok kv
  | none => return .error NO_SLOT_KEY

/-! ### Reads of a slot's certificate -/

/-- The certificate in a reply that was received: none unless the card answers `9000`. -/
def certIn (data : List UInt8) (sw : UInt16) : CertRead :=
  if sw = SW_OK then certObjectDecode libs.gunzip data else .ok none

def certObject (slot : Slot) : SlotTalk (Answered CertRead) := do
  match (← get).cert.get slot.keyRef with
  | some cached => return .ok cached
  | none =>
      match ← transmitSlot (.getCertificate slot) with
      | .error e => return .error (.transport e)
      | .ok (data, sw) =>
          rememberCert slot (certIn libs data sw)
          return .ok (certIn libs data sw)

def readSlotCertificate (slot : Slot) : SlotTalk (Answered (Option (List UInt8))) :=
  Session.andThen (certObject libs slot) fun cert =>
    return (certResult slot cert).mapError .transport

/-! ### Policies and the status -/

def INS_NOT_SUPPORTED : TransportError := .apdu "piv attest" 0x6D 0x00

/-- The attestation certificate of a slot's key. -/
def attest (slot : Slot) : SlotTalk (Answered (List UInt8)) :=
  if !applet.attestSent then return .error (.transport INS_NOT_SUPPORTED)
  else do
    match ← transmitSlot (.attest slot) with
    | .error e => return .error (.transport e)
    | .ok (data, sw) => return ((okOrWrite "piv attest" sw).map fun _ => data).mapError .transport

/-- The policy that an attestation names. -/
def attestedPolicy (cert : Answered (List UInt8)) : Option (PinPolicy × TouchPolicy) :=
  (cert.toOption.bind libs.keyPolicyExtension).bind policyFromIds

/-- GET METADATA for a policy: a slot whose cached key is none was asked already. -/
def askForPolicy (slot : Slot) : SlotTalk PUnit := do
  match (← get).pubkey.get slot.keyRef with
  | some (some _) => let _ ← resolveSlotFromDevice applet slot
  | _ => let _ ← cachedSlotKey applet slot

/-- Resolved before, by GET METADATA, or by the attestation; remembered whatever the answer. -/
def slotPolicy (slot : Slot) : SlotTalk (Option (PinPolicy × TouchPolicy)) := do
  match (← get).policy.get slot.keyRef with
  | some resolved => return resolved
  | none =>
      askForPolicy applet slot
      match (← get).policy.get slot.keyRef with
      | some resolved => return resolved
      | none =>
          let cert ← attest applet slot
          rememberPolicy slot (attestedPolicy libs cert)
          return attestedPolicy libs cert

/-- The algorithm of a slot's key for display, from its certificate if nothing else names it. -/
def slotKeyAlgorithm (slot : Slot) : SlotTalk (Option KeyAlg) := do
  match ← cachedSlotKey applet slot with
  | some (alg, _) => return some alg
  | none =>
      match ← hidCrescendoSlotAlgorithm applet slot with
      | some alg => return some alg
      | none =>
          let der ← readSlotCertificate libs slot
          return der.toOption.join.bind libs.certificateAlgorithm

structure SlotStatus where
  slot : Slot
  cert : CertRead
  key : SlotKeyPresence
deriving DecidableEq, Repr

/-- One slot of `status`. -/
def slotStatus (slot : Slot) : SlotTalk (Answered SlotStatus) :=
  Session.andThen (certObject libs slot) fun cert => do
    return .ok { slot, cert, key := ← slotKeyPresence applet slot }

/-- The slots of a status, up to the first that cannot be read. -/
def forSlots {α : Type} (one : Slot → SlotTalk (Answered α)) :
    List Slot → SlotTalk (Answered (List α))
  | [] => return .ok []
  | slot :: rest =>
      Session.andThen (one slot) fun a =>
        Session.andThen (forSlots one rest) fun as => return .ok (a :: as)

/-- The slots of a status, without the twenty retired ones. -/
def ALL_SLOTS : List Slot := [.authentication, .signature, .keyManagement, .cardAuthentication]

def status : SlotTalk (Answered (List SlotStatus)) := forSlots (slotStatus applet libs) ALL_SLOTS

structure SlotDetail where
  status : SlotStatus
  algorithm : Option KeyAlg
  policy : Option (PinPolicy × TouchPolicy)
deriving DecidableEq, Repr

/-- The algorithm of a slot in `status_detailed`, which has read the certificate already. -/
def detailedAlgorithm (slot : Slot) (cert : CertRead) : SlotTalk (Option KeyAlg) := do
  match ← cachedSlotKey applet slot with
  | some (alg, _) => return some alg
  | none =>
      match ← hidCrescendoSlotAlgorithm applet slot with
      | some alg => return some alg
      | none => return (cert.toOption.join.map StoredCert.der).bind libs.certificateAlgorithm

def slotDetail (slot : Slot) : SlotTalk (Answered SlotDetail) :=
  Session.andThen (certObject libs slot) fun cert => do
    let algorithm ← detailedAlgorithm applet libs slot cert
    let policy ← slotPolicy applet libs slot
    let key ← slotKeyPresence applet slot
    return .ok { status := { slot, cert, key }, algorithm, policy }

def statusDetailed : SlotTalk (Answered (List SlotDetail)) :=
  forSlots (slotDetail applet libs) ALL_SLOTS

/-! ### Writes -/

def clearSlotCertificate (slot : Slot) : SlotTalk (Answered Unit) := do
  match ← transmitSlot (.clearCertificate slot) with
  | .error e => return .error (.transport e)
  | .ok (_, sw) =>
      match okOrWrite "piv clear certificate" sw with
      | .error e => return .error (.transport e)
      | .ok () =>
          rememberCert slot (.ok none)
          return .ok ()

/-- The key is on the card when the certificate is cleared. -/
def afterGenerate (slot : Slot) (alg : KeyAlg) (key : PublicKey) :
    SlotTalk (Answered PublicKey) :=
  Session.andThen (clearSlotCertificate slot) fun _ => do
    evictKey slot
    let _ ← slotPolicy applet libs slot
    rememberPubkey slot (some (alg, key))
    return .ok key

def generateKey (slot : Slot) (alg : KeyAlg) (pin : PinPolicy) (touch : TouchPolicy) :
    SlotTalk (Answered PublicKey) := do
  match ← transmitSlot (.generate slot (applet.algId alg) pin touch) with
  | .error e => return .error (.transport e)
  | .ok (data, sw) =>
      match okOrWrite "piv generate key" sw with
      | .error e => return .error (.transport e)
      | .ok () =>
          match parsePublicKey data with
          | none => return .error .pivParse
          | some key => afterGenerate applet libs slot alg key

/-- A lost answer may hide an accepted key: the caches go in any case. -/
def writeSlotKey (slot : Slot) (algId : UInt8) (body : List UInt8) : SlotTalk (Answered Unit) := do
  let sent ← Session.ask (SlotAsk.sendImportKey slot algId body)
  evictKey slot
  match sent with
  | .error e => return .error (.transport e)
  | .ok () =>
      let _ ← slotPolicy applet libs slot
      return .ok ()

/-- A compressed certificate is read back from the card. The cache is emptied before, so that it is
the card that is read. -/
def storeSlotCertificate (slot : Slot) (der : List UInt8) (compression : CertCompression) :
    SlotTalk (Answered CertImport) := do
  match ← Session.ask (SlotAsk.sendCertificate slot der compression) with
  | .error e => return .error (.transport e)
  | .ok done =>
      if done.compressed then
        forgetCert slot
        Session.andThen (certObject libs slot) fun cert =>
          return ((checkReadback slot der (certResult slot cert)).map fun _ => done).mapError
            .transport
      else
        rememberCert slot (.ok (some ⟨der, false⟩))
        return .ok done

/-- The algorithm that the card itself names, never from what is cached. -/
def slotKeyStatusAlgorithm (slot : Slot) : SlotTalk (Option KeyAlg) := do
  let (_, md) ← metadataReply applet slot
  match (md.bind Metadata.algorithm).bind applet.algOfId with
  | some alg => return some alg
  | none => hidCrescendoSlotAlgorithm applet slot

def algorithmOnlyMismatch (slotAlgorithm certAlgorithm : Option KeyAlg) :
    Option (KeyAlg × KeyAlg) :=
  if !applet.keyStatusSupported then none
  else match slotAlgorithm, certAlgorithm with
    | some s, some c => if s ≠ c then some (s, c) else none
    | _, _ => none

/-- What is not known is no mismatch. -/
def rejectCertificateKeyMismatch (slot : Slot) (der : List UInt8) : SlotTalk (Answered Unit) := do
  match ← slotKey applet slot with
  | .error _ =>
      let alg ← slotKeyStatusAlgorithm applet slot
      match algorithmOnlyMismatch applet alg (libs.certificateAlgorithm der) with
      | some (s, c) => return .error (.pivImportCertificateAlgorithmMismatch slot s c)
      | none => return .ok ()
  | .ok kv =>
      if (libs.certificateKey der).any fun certKv => decide (kv ≠ certKv) then
        return .error (.pivImportCertificateKeyMismatch slot)
      else return .ok ()

def importSlotCertificate (slot : Slot) (der : List UInt8) (compression : CertCompression) :
    SlotTalk (Answered CertImport) :=
  Session.andThen (rejectCertificateKeyMismatch applet libs slot der) fun _ =>
    storeSlotCertificate libs slot der compression

/-! ### Moves, deletes and the reset -/

def moveKey (src dest : Slot) : SlotTalk (Answered Unit) :=
  if src.keyRef = dest.keyRef then
    return .error (.transport (.malformedResponse "source and destination slots are the same"))
  else do
    if ← slotHasKey applet dest then return .error (.pivDestinationOccupied dest)
    else
      match ← transmitSlot (.moveKey src dest) with
      | .error e => return .error (.transport e)
      | .ok (_, sw) =>
          match okOrWrite "piv move key" sw with
          | .error e => return .error (.transport e)
          | .ok () =>
              migrateKey src dest
              return .ok ()

/-- The two forms of a removal take different sets of algorithms. -/
def hidTakes (c4000 : Bool) (alg : KeyAlg) : Bool :=
  if c4000 then decide (alg ∈ [.rsa2048, .rsa3072, .rsa4096, .eccP256, .eccP384])
  else decide (alg ∉ [.ed25519, .x25519])

def hidDeleteLabel (c4000 : Bool) : String :=
  if c4000 then "piv delete key (HID Crescendo C4000)" else "piv delete key (HID Crescendo C2300)"

def deleteKeyHid (c4000 : Bool) (alg : KeyAlg) (slot : Slot) : SlotTalk (Answered Unit) :=
  if !hidTakes c4000 alg then return .error (.pivDeleteKeyAlgorithmUnknown slot)
  else do
    match ← transmitSlot (.hidDeleteKey c4000 alg slot) with
    | .error e => return .error (.transport e)
    | .ok (_, sw) => return (okOrWrite (hidDeleteLabel c4000) sw).mapError .transport

def deleteKeyHidCrescendo (variant : HidCrescendoVariant) (slot : Slot) :
    SlotTalk (Answered Unit) := do
  match ← hidCrescendoSlotAlgorithm applet slot with
  | none => return .error (.pivDeleteKeyAlgorithmUnknown slot)
  | some alg =>
      match variant with
      | .c2300 => deleteKeyHid false alg slot
      | .c4000 => deleteKeyHid true alg slot
      | .generic =>
          match ← deleteKeyHid true alg slot with
          | .ok () => return .ok ()
          | .error _ =>
              return (← deleteKeyHid false alg slot).mapError .pivDeleteKeyHidCrescendoGenericFailed

def sendDeleteKey (slot : Slot) : SlotTalk (Answered Unit) := do
  match ← transmitSlot (.deleteKey slot) with
  | .error e => return .error (.transport e)
  | .ok (_, sw) => return (okOrWrite "piv delete key" sw).mapError .transport

/-- The applet's own way to remove a key. -/
def removeKey (slot : Slot) : SlotTalk (Answered Unit) :=
  match applet.hidCrescendo with
  | some variant => deleteKeyHidCrescendo applet variant slot
  | none => sendDeleteKey slot

def deleteKey (slot : Slot) : SlotTalk (Answered Unit) :=
  Session.andThen (removeKey applet slot) fun _ => do
    evictKey slot
    return .ok ()

/-- An applet whose RESET fails over an AES management key. -/
def checkResetAlgorithm : SlotTalk (Answered Unit) :=
  if !applet.resetFailsIfManagementKeyIsAes then return .ok ()
  else do
    match ← Session.ask SlotAsk.managementKeyAlgorithm with
    | some .tripleDes | none => return .ok ()
    | some alg => return .error (.transport (.pivResetManagementKeyMustBe3Des alg))

/-- The session starts over once the card is reset. A refusal that says that PIN and PUK are not
blocked is an error of its own. -/
def resetSlots : SlotTalk (Answered Unit) :=
  Session.andThen (checkResetAlgorithm applet) fun _ => do
    match ← transmitSlot .reset with
    | .error e => return .error (.transport e)
    | .ok (_, sw) =>
        if sw = SW_AUTH_BLOCKED ∨ sw = SW_CONDITIONS_NOT_SATISFIED ∨
            sw = SW_SECURITY_NOT_SATISFIED then
          return .error (.transport .pivResetNotAllowed)
        else
          match okOrWrite "piv reset" sw with
          | .error e => return .error (.transport e)
          | .ok () =>
              set Caches.empty
              return .ok ()

/-! ### The operations -/

inductive SlotOp where
  | slotKeyPresence (slot : Slot)
  | slotHasKey (slot : Slot)
  | reportedSlotKey (slot : Slot)
  | slotKey (slot : Slot)
  | slotKeyAlgorithm (slot : Slot)
  | readCertificate (slot : Slot)
  | slotPolicy (slot : Slot)
  | slotStatus (slot : Slot)
  | status
  | statusDetailed
  | generateKey (slot : Slot) (alg : KeyAlg) (pin : PinPolicy) (touch : TouchPolicy)
  | writeImportKey (slot : Slot) (algId : UInt8) (body : List UInt8)
  | importCertificate (slot : Slot) (der : List UInt8) (compression : CertCompression)
  | storeCertificateUnchecked (slot : Slot) (der : List UInt8) (compression : CertCompression)
  | clearCertificate (slot : Slot)
  | moveKey (src dest : Slot)
  | deleteKey (slot : Slot)
  | reset
deriving DecidableEq, Repr

/-- An operation, its result put aside. -/
def SlotOp.run : SlotOp → SlotTalk Unit
  | .slotKeyPresence slot => do let _ ← Piv.slotKeyPresence applet slot
  | .slotHasKey slot => do let _ ← Piv.slotHasKey applet slot
  | .reportedSlotKey slot => do let _ ← Piv.reportedSlotKey applet slot
  | .slotKey slot => do let _ ← Piv.slotKey applet slot
  | .slotKeyAlgorithm slot => do let _ ← Piv.slotKeyAlgorithm applet libs slot
  | .readCertificate slot => do let _ ← readSlotCertificate libs slot
  | .slotPolicy slot => do let _ ← Piv.slotPolicy applet libs slot
  | .slotStatus slot => do let _ ← Piv.slotStatus applet libs slot
  | .status => do let _ ← Piv.status applet libs
  | .statusDetailed => do let _ ← Piv.statusDetailed applet libs
  | .generateKey slot alg pin touch => do let _ ← Piv.generateKey applet libs slot alg pin touch
  | .writeImportKey slot algId body => do let _ ← writeSlotKey applet libs slot algId body
  | .importCertificate slot der compression => do
      let _ ← importSlotCertificate applet libs slot der compression
  | .storeCertificateUnchecked slot der compression => do
      let _ ← storeSlotCertificate libs slot der compression
  | .clearCertificate slot => do let _ ← clearSlotCertificate slot
  | .moveKey src dest => do let _ ← Piv.moveKey applet src dest
  | .deleteKey slot => do let _ ← Piv.deleteKey applet slot
  | .reset => do let _ ← resetSlots applet

end Operations

end Keyroost.Piv
