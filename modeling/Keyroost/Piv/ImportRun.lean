import Keyroost.Piv.KeyImport
import Keyroost.Piv.WriteCard

/-!
# Writing a key file's entry to a slot

The certificate first (for an entry without one, the slot's old certificate is deleted), then the
key, then the self-test. What fails says what the slot holds now. Modelled from
`keyroost-transport/src/piv_import.rs`, with the card operations it calls from
`keyroost-transport/src/piv.rs`.

The run is a dialogue whose questions are the APDUs of the session and the self-test. Its steps are
functions of their own, each with the ending that the source gives it: an `ImportFailure` says what
became of the old certificate, of the new one and of the key, and that is what `ImportRunHonest`
holds against the card.
-/

namespace Keyroost.Piv

open Transport Dialogue

/-! ### The session -/

inductive SelfTest where
  | decrypt
  | keyAgree
  | sign
deriving DecidableEq, Repr

inductive Outcome where
  | passed
  | failed (why : String)
  | skipped (alg : KeyAlg)
deriving DecidableEq, Repr

def Outcome.isFailure : Outcome → Bool
  | .failed _ => true
  | _ => false

/-- What the import asks of its session: an APDU, the algorithm byte of the applet, how long
commands go out, the read of a slot's policy whose answer is only cached, the self-test. -/
inductive ImportAsk where
  | transmit (apdu : List UInt8)
  | algorithmId (alg : KeyAlg)
  | longLink
  | slotPolicy (slot : Slot)
  | selfTest (slot : Slot) (alg : KeyAlg) (pubkey : PublicKey) (pin : Option (List UInt8))
deriving DecidableEq, Repr

@[reducible] def ImportAnswer : ImportAsk → Type
  | .transmit _ => Except PcscError (List UInt8 × UInt16)
  | .algorithmId _ => UInt8
  | .longLink => LongLink
  | .slotPolicy _ => Option (PinPolicy × TouchPolicy)
  | .selfTest .. => Tried (List (SelfTest × Outcome))

abbrev ImportTalk : Type → Type := Dialogue ImportAnswer

def transmit (apdu : List UInt8) : ImportTalk Reply :=
  .ask (.transmit apdu) fun reply => .done (toReply reply)

/-- The libraries the import rests on: compression, the curves, and the reader of a
certificate's key. -/
structure Libraries where
  gzipMember : List UInt8 → List UInt8
  gunzip : List UInt8 → Except CertUnreadable (List UInt8)
  points : CurvePoints
  certificateKey : List UInt8 → Option (KeyAlg × PublicKey)

/-! ### The card operations -/

def certResult (slot : Slot) (cert : Except CertUnreadable (Option StoredCert)) :
    Tried (Option (List UInt8)) :=
  (cert.map (Option.map StoredCert.der)).mapError (.pivCertUnreadable slot)

/-- `PivSession::read_certificate`, with nothing cached for the slot. -/
def readCertificate (libs : Libraries) (slot : Slot) :
    ImportTalk (Tried (Option (List UInt8))) :=
  (transmit (getData slot.certObjectTag)).andThen fun (data, sw) =>
    .done (certResult slot (if sw = SW_OK then certObjectDecode libs.gunzip data else .ok none))

def checkReadback (slot : Slot) (der : List UInt8) (back : Tried (Option (List UInt8))) :
    Tried Unit :=
  match back with
  | .ok got => if got = some der then .ok () else .error (.pivCertReadbackMismatch slot)
  | .error (.pivCertUnreadable _ _) => .error (.pivCertReadbackMismatch slot)
  | .error e => .error e

def storeCertificateUnchecked (libs : Libraries) (slot : Slot) (der : List UInt8)
    (compression : CertCompression) : ImportTalk (Tried CertImport) :=
  .ask .longLink fun link =>
    (sendCertificate transmit libs.gzipMember link slot der compression).andThen fun stored => do
      if stored.compressed then
        let back ← readCertificate libs slot
        return (checkReadback slot der back).map fun _ => stored
      else return .ok stored

def clearCertificateOf (slot : Slot) : ImportTalk (Tried Unit) :=
  (transmit (clearCertificate slot)).andThen fun (_, sw) =>
    .done (okOrWrite "piv clear certificate" sw)

def verifyPinWith (pin : List UInt8) : ImportTalk (Tried Unit) :=
  match verifyPin pin with
  | .error _ => .done (.error .pivBadPinLength)
  | .ok apdu => (transmit apdu).andThen fun (_, sw) => .done (mapPinSw sw)

def writeImportKey (slot : Slot) (algId : UInt8) (body : List UInt8) : ImportTalk (Tried Unit) :=
  .ask .longLink fun link =>
    (sendImportKey transmit link slot algId body).andThen fun _ =>
      .ask (.slotPolicy slot) fun _ => .done (.ok ())

/-! ### The import -/

/-- One private key of a file with its certificate. -/
structure KeyEntry where
  key : KeyParts
  certificate : Option (List UInt8)
deriving DecidableEq, Repr

structure ImportPlan where
  entry : KeyEntry
  slot : Slot
  layout : ImportLayout
  pinPolicy : PinPolicy
  touchPolicy : TouchPolicy
deriving DecidableEq, Repr

/-- The refusals of the last check. Those of the planning step come before it. -/
inductive ImportRefusal where
  | keyCertificateMismatch
  | keyNotEncodable (e : ImportBodyError)
deriving DecidableEq, Repr

structure ImportReport where
  slot : Slot
  cert : Option CertImport
  selfTest : List (SelfTest × Outcome)
deriving DecidableEq, Repr

inductive ImportFailure where
  | refused (r : ImportRefusal)
  | pinNotVerified (e : TransportError)
  | certificateNotStored (slot : Slot) (error : TransportError) (storingCertificate : Bool)
      (certificateCleared : Option Bool)
  | keyNotWritten (slot : Slot) (error : TransportError) (certificateCleared : Bool)
  | selfTestNotRun (report : ImportReport) (error : TransportError)
  | selfTestFailed (report : ImportReport)
deriving DecidableEq, Repr

def certificateBelongs (libs : Libraries) (entry : KeyEntry) (alg : KeyAlg)
    (pubkey : PublicKey) : Bool :=
  entry.certificate.all fun der => libs.certificateKey der == some (alg, pubkey)

abbrev ImportEnd : Type := Except ImportFailure ImportReport

/-- The certificate step: how the certificate was stored, `none` for an entry without one. After a
failure that is no refusal by the card the slot's certificate is cleared; an entry without one
clears it too. -/
def certificateStep (libs : Libraries) (plan : ImportPlan) (compression : CertCompression) :
    ImportTalk (Except ImportFailure (Option CertImport)) := do
  match plan.entry.certificate with
  | some der =>
      match ← storeCertificateUnchecked libs plan.slot der compression with
      | .ok stored => return .ok (some stored)
      | .error error =>
          if cardRefused error then
            return .error (.certificateNotStored plan.slot error true none)
          else
            let cleared ← clearCertificateOf plan.slot
            return .error (.certificateNotStored plan.slot error true (some cleared.isOk))
  | none =>
      match ← clearCertificateOf plan.slot with
      | .ok () => return .ok none
      | .error error =>
          return .error (.certificateNotStored plan.slot error false
            (if cardRefused error then none else some false))

/-- The key step. The certificate goes again if the key did not make it. -/
def keyStep (plan : ImportPlan) (algId : UInt8) (body : List UInt8)
    (cert : Option CertImport) : ImportTalk (Except ImportFailure Unit) := do
  match ← writeImportKey plan.slot algId body with
  | .ok () => return .ok ()
  | .error error =>
      if cert.isNone then return .error (.keyNotWritten plan.slot error true)
      else
        let cleared ← clearCertificateOf plan.slot
        return .error (.keyNotWritten plan.slot error cleared.isOk)

def selfTestStep (plan : ImportPlan) (alg : KeyAlg) (pubkey : PublicKey)
    (pin : Option (List UInt8)) (cert : Option CertImport) : ImportTalk ImportEnd :=
  .ask (.selfTest plan.slot alg pubkey pin) fun tested =>
    match tested with
    | .ok results =>
        if results.any fun (_, outcome) => outcome.isFailure then
          .done (.error (.selfTestFailed ⟨plan.slot, cert, results⟩))
        else .done (.ok ⟨plan.slot, cert, results⟩)
    | .error error => .done (.error (.selfTestNotRun ⟨plan.slot, cert, []⟩ error))

def pinStep (pin : Option (List UInt8)) : ImportTalk (Except ImportFailure Unit) := do
  match pin with
  | none => return .ok ()
  | some pin => return (← verifyPinWith pin).mapError .pinNotVerified

/-- `run_import_with`. -/
def runImportWith (libs : Libraries) (plan : ImportPlan) (compression : CertCompression)
    (pin : Option (List UInt8)) : ImportTalk ImportEnd :=
  let alg := plan.entry.key.alg
  let pubkey := plan.entry.key.publicKey libs.points
  if !certificateBelongs libs plan.entry alg pubkey then
    .done (.error (.refused .keyCertificateMismatch))
  else
    .ask (.algorithmId alg) fun algId =>
      match importKeyBodyFor ⟨alg, algId, importParts plan.entry.key plan.layout⟩
          plan.pinPolicy plan.touchPolicy plan.layout with
      | .error e => .done (.error (.refused (.keyNotEncodable e)))
      | .ok body =>
          (pinStep pin).andThen fun _ =>
            (certificateStep libs plan compression).andThen fun cert =>
              (keyStep plan algId body cert).andThen fun _ =>
                selfTestStep plan alg pubkey pin cert

end Keyroost.Piv
