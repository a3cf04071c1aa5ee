import Keyroost.Library.Session
import Keyroost.OpenPgp.CardData
import Keyroost.OpenPgp.KeyImport

/-!
# Importing a key set into an OpenPGP card

The session's operations that load keys, from `keyroost-transport/src/openpgp.rs`: the checks before
anything is written, the algorithm attributes of a slot, the key itself in one command or a chain,
its public key read back, and its time and fingerprint.

The card is a dialogue: each command is a question, and its answer may be lost. The session
remembers whether a write for the slot at hand was sent, as the source's `changed` does, and the
errors of a set say from it whether the slot that failed may have been touched. `importKeySet` goes
through the checks of all keys first and then through the keys, one after the other.
-/

namespace Keyroost.OpenPgp

/-! ### What is asked -/

/-- A command to the card. A key goes as one object, or as the links of a chain, of which the last
says that it is. -/
inductive CardAsk where
  | getApplicationRelatedData
  | getAlgorithmInformation
  | readPublicKey (crt : KeyCrt)
  | putAlgorithmAttributes (crt : KeyCrt) (attr : List UInt8)
  | importKey (crt : KeyCrt) (object : List UInt8)
  | importLink (crt : KeyCrt) (last : Bool) (data : List UInt8)
  | putGenerationTime (crt : KeyCrt) (created : UInt32)
  | putFingerprint (crt : KeyCrt) (fpr : List UInt8)
deriving DecidableEq, Repr

/-- The exchange failed: the card may or may not have carried the command out. A refusal is no such
failure but a status word. -/
inductive Lost where
  | lost
deriving DecidableEq, Repr

/-- Data and a status word, all parts of them, or no answer. -/
abbrev CardReply (_ : CardAsk) : Type := Except Lost (List UInt8 × UInt16)

/-- A session; it remembers whether a write for the slot was sent. -/
abbrev CardTalk : Type → Type := Session CardReply Bool

inductive CardError where
  | lost
  | apdu (label : String) (sw : UInt16)
  | openPgpParse (e : ParseError)
  | openPgpSlotMismatch (e : SlotMismatch)
  | openPgpKeyNotForAlgorithm (slot : String) (alg : KeyAlg)
  | openPgpAlgorithmRefused (slot : String) (alg : KeyAlg)
  | openPgpSlotNotRsa (slot : String) (kind : EccKind) (curve : Curve)
  | openPgpExponentTooWide
  | openPgpFingerprintMismatch (slot : String)
  | openPgpKeySetPartial (done : List String) (failed : String) (slotChanged : Bool)
    (cause : CardError)
  /-- Not an error of the source: it panics. -/
  | panicked
deriving DecidableEq, Repr

abbrev Answered (α : Type) : Type := Except CardError α

def SW_OK : UInt16 := 0x9000

def crtLabel : KeyCrt → String
  | .sign => "signature"
  | .decrypt => "decryption"
  | .auth => "authentication"

def crtFlagName : KeyCrt → String
  | .sign => "sign"
  | .decrypt => "decrypt"
  | .auth => "auth"

def okOrApdu (label : String) (sw : UInt16) : Answered Unit :=
  if sw = SW_OK then .ok () else .error (.apdu label sw)

/-- One command. -/
def transmitFull (ask : CardAsk) : CardTalk (Answered (List UInt8 × UInt16)) := do
  return (← Session.ask ask).mapError fun _ => .lost

/-- A command that answers with a status alone. -/
def transmitStatus (ask : CardAsk) (label : String) : CardTalk (Answered Unit) :=
  Session.andThen (transmitFull ask) fun answer => pure (okOrApdu label answer.2)

/-! ### Reading -/

def algorithmAttributes (crt : KeyCrt) : CardTalk (Answered (List UInt8)) :=
  Session.andThen (transmitFull .getApplicationRelatedData) fun answer =>
    pure ((okOrApdu "get application related data" answer.2).bind fun _ =>
      ((parseApplicationRelatedData answer.1).mapError .openPgpParse).map fun ard =>
        ard.attributes crt)

def supportedAlgorithms : CardTalk (Answered (Option AlgorithmInformation)) :=
  Session.andThen (transmitFull .getAlgorithmInformation) fun answer =>
    pure (.ok (if answer.2 ≠ SW_OK then none else (parseAlgorithmInformation answer.1).toOption))

/-- The attributes as those of an RSA slot. -/
def asRsa (crt : KeyCrt) (attr : List UInt8) : Answered RsaAttributes :=
  match parseAlgorithmAttributes attr with
  | .ok (.rsa r) => .ok r
  | .ok (.ecc kind curve _) => .error (.openPgpSlotNotRsa (crtFlagName crt) kind curve)
  | .error e => .error (.openPgpParse e)

def rsaAttributes (crt : KeyCrt) : CardTalk (Answered RsaAttributes) :=
  Session.andThen (algorithmAttributes crt) fun attr => pure (asRsa crt attr)

def readPublicKey (crt : KeyCrt) : CardTalk (Answered PublicKey) :=
  Session.andThen (transmitFull (.readPublicKey crt)) fun answer =>
    pure ((okOrApdu "openpgp read public key" answer.2).bind fun _ =>
      (parseGeneratedPublicKey answer.1).mapError .openPgpParse)

/-! ### Keys -/

inductive ImportKey where
  | rsa (parts : RsaPrivateKeyParts)
  | ecc (parts : EccPrivateKeyParts)
deriving DecidableEq, Repr

/-- One key of a set. -/
structure KeyImport where
  crt : KeyCrt
  alg : KeyAlg
  key : ImportKey
  created : UInt32
  expectFpr : List UInt8
  expectPublic : PublicKey
deriving DecidableEq, Repr

/-- Leading zeros of a byte. -/
def leadingZeroBits (b : UInt8) : Nat := if b = 0 then 8 else 7 - b.toNat.log2

/-- The bits of a modulus, from its first byte that is not zero. -/
def modulusBits (n : List UInt8) : Nat :=
  let n := n.dropWhile fun b => decide (b = 0)
  match n with
  | [] => 0
  | top :: _ => n.length * 8 - leadingZeroBits top

def keyFits (alg : KeyAlg) (key : ImportKey) : Bool :=
  match key, alg.curve with
  | .rsa parts, none => decide (alg.rsaBits.map UInt16.toNat = some (modulusBits parts.n))
  | .ecc parts, some curve => eccScalarFits parts.scalar curve.fieldLen
  | _, _ => false

/-- The checks without the card. -/
def checkImport (crt : KeyCrt) (alg : KeyAlg) (key : ImportKey) : Answered Unit := do
  let _ ← (alg.attributes crt).mapError .openPgpSlotMismatch
  if keyFits alg key = true then .ok ()
  else .error (.openPgpKeyNotForAlgorithm (crtLabel crt) alg)

def needsAttributeWrite (current : List UInt8) (alg : KeyAlg) : Bool :=
  decide (algOf current ≠ some alg)

/-- The checks against what the card told before anything is written. A card that publishes no list
of algorithms is taken to have any; what it has not it refuses by itself. -/
def preflight (k : KeyImport) (current : List UInt8) (fa : Option AlgorithmInformation) :
    Answered Unit := do
  if fa.any (fun fa => decide (fa.keyAlgs k.crt ≠ [] ∧ k.alg ∉ fa.keyAlgs k.crt)) = true then
    throw (.openPgpAlgorithmRefused (crtLabel k.crt) k.alg)
  match k.key with
  | .ecc _ => return ()
  | .rsa parts =>
      let attrs ←
        if needsAttributeWrite current k.alg = true then
          (k.alg.attributes k.crt).mapError .openPgpSlotMismatch
        else .ok current
      if rsaExponentFits parts.e (← asRsa k.crt attrs).eBits = true then return ()
      else throw .openPgpExponentTooWide

def trimZeros (v : List UInt8) : List UInt8 := v.dropWhile fun b => decide (b = 0)

/-- A point of 32 bytes without the prefix of an OpenPGP file. -/
def barePoint : List UInt8 → List UInt8
  | 0x40 :: rest => if rest.length = 32 then rest else 0x40 :: rest
  | p => p

def samePublicKey (got want : PublicKey) : Bool :=
  match got, want with
  | .rsa gn ge, .rsa wn we =>
      decide (trimZeros gn = trimZeros wn) && decide (trimZeros ge = trimZeros we)
  | .ecc g, .ecc w => decide (barePoint g = barePoint w)
  | _, _ => false

/-! ### Writing -/

def setAlgorithm (crt : KeyCrt) (alg : KeyAlg) : CardTalk (Answered Unit) :=
  match alg.attributes crt with
  | .error e => pure (.error (.openPgpSlotMismatch e))
  | .ok attr =>
      Session.andThen (transmitFull (.putAlgorithmAttributes crt attr)) fun answer =>
        pure (if answer.2 = 0x6A80 ∨ answer.2 = 0x6A88 then
            .error (.openPgpAlgorithmRefused (crtLabel crt) alg)
          else okOrApdu "openpgp set algorithm attributes" answer.2)

/-- The links of a chain, each of them accepted but for the last, whose status is the result. -/
def transmitChain (crt : KeyCrt) (label : String) : List (List UInt8) → CardTalk (Answered Unit)
  | [] => pure (.ok ())
  | [chunk] => transmitStatus (.importLink crt true chunk) label
  | chunk :: next :: rest =>
      Session.andThen (transmitStatus (.importLink crt false chunk) label) fun _ =>
        transmitChain crt label (next :: rest)

/-- Up to 254 bytes in each link. -/
def importLinks (object : List UInt8) : List (List UInt8) :=
  if object = [] then [[]] else Piv.chunks 254 object

/-- One command with extended length, or a chain where the card or the reader does not take it.
`forced` is the environment variable that leaves out the first. -/
def putKeyImport (forced : Bool) (crt : KeyCrt) (object : List UInt8) :
    CardTalk (Answered Unit) :=
  if forced = true then transmitChain crt "openpgp import key" (importLinks object)
  else
    Session.andThen (transmitFull (.importKey crt object)) fun answer =>
      if answer.2 = SW_OK then pure (.ok ())
      else if answer.2 ≠ 0x6700 ∧ answer.2 ≠ 0x6883 then
        pure (okOrApdu "openpgp import key" answer.2)
      else transmitChain crt "openpgp import key" (importLinks object)

/-- A key's object once it is built: the write is sent from here on. An object that one command
has no room for panics before. -/
def sendObject (forced : Bool) (crt : KeyCrt) (object : List UInt8) :
    CardTalk (Answered Unit) :=
  if 0xFFFF < object.length then pure (.error .panicked)
  else do
    set true
    putKeyImport forced crt object

def importRsaTracked (forced : Bool) (crt : KeyCrt) (key : RsaPrivateKeyParts) :
    CardTalk (Answered Unit) :=
  Session.andThen (rsaAttributes crt) fun attrs =>
    if rsaExponentFits key.e attrs.eBits = false then pure (.error .openPgpExponentTooWide)
    else
      match extendedHeaderList crt key attrs.format attrs.eBits with
      | .error _ => pure (.error .openPgpExponentTooWide)
      | .ok object => sendObject forced crt object

/-- Whether the card wants the public point with a key. -/
def wantsPublicKey (attr : List UInt8) : Bool :=
  match parseAlgorithmAttributes attr with
  | .ok (.ecc _ _ withPublicKey) => withPublicKey
  | _ => false

/-- The parts of a key on a curve that are sent. -/
def sentParts (parts : EccPrivateKeyParts) (attr : List UInt8) : EccPrivateKeyParts :=
  { parts with publicPoint := parts.publicPoint.filter fun _ => wantsPublicKey attr }

def importEccTracked (forced : Bool) (crt : KeyCrt) (alg : KeyAlg) (parts : EccPrivateKeyParts)
    (attr : List UInt8) : CardTalk (Answered Unit) :=
  match eccExtendedHeaderList crt (sentParts parts attr) ((alg.curve.map Curve.fieldLen).getD 0) with
  | none => pure (.error .panicked)
  | some (.error _) => pure (.error (.openPgpKeyNotForAlgorithm (crtLabel crt) alg))
  | some (.ok object) => sendObject forced crt object

/-- The algorithm of the slot first, where it differs. The flag is set once the attributes are
written, and from then on a failure is told as one that left something changed. -/
def importAnyTracked (forced : Bool) (crt : KeyCrt) (alg : KeyAlg) (key : ImportKey) :
    CardTalk (Answered Unit) :=
  Session.andThen (pure (checkImport crt alg key)) fun _ =>
    Session.andThen (algorithmAttributes crt) fun current =>
      Session.andThen
        (if needsAttributeWrite current alg = true then
          Session.andThen (setAlgorithm crt alg) fun _ => do
            set true
            return .ok true
        else pure (.ok false)) fun wasSet =>
          match key with
          | .rsa parts => importRsaTracked forced crt parts
          | .ecc parts =>
              Session.andThen (if wasSet = true then algorithmAttributes crt else pure (.ok current))
                fun attr => importEccTracked forced crt alg parts attr

def importOne (forced : Bool) (k : KeyImport) : CardTalk (Answered Unit) :=
  Session.andThen (importAnyTracked forced k.crt k.alg k.key) fun _ =>
    Session.andThen (readPublicKey k.crt) fun got =>
      if samePublicKey got k.expectPublic = false then
        pure (.error (.openPgpFingerprintMismatch (crtLabel k.crt)))
      else
        Session.andThen
          (transmitStatus (.putGenerationTime k.crt k.created) "openpgp put generation time")
          fun _ => transmitStatus (.putFingerprint k.crt k.expectFpr) "openpgp put fingerprint"

/-- A panic is no error to wrap. -/
def slotFailure (done : List String) (crt : KeyCrt) (changed : Bool) (cause : CardError) :
    CardError :=
  if cause = .panicked then .panicked
  else if done = [] ∧ changed = false then cause
  else .openPgpKeySetPartial done (crtLabel crt) changed cause

/-! ### A set of keys -/

/-- The first failure of some checks, in order. -/
def checkEach (keys : List KeyImport) : Answered Unit :=
  keys.forM fun k => checkImport k.crt k.alg k.key

def preflightEach (fa : Option AlgorithmInformation) : List KeyImport → CardTalk (Answered Unit)
  | [] => pure (.ok ())
  | k :: keys =>
      Session.andThen (algorithmAttributes k.crt) fun current =>
        Session.andThen (pure (preflight k current fa)) fun _ => preflightEach fa keys

/-- Everything that is checked before the first write. -/
def checks (keys : List KeyImport) : CardTalk (Answered Unit) :=
  Session.andThen (pure (checkEach keys)) fun _ =>
    Session.andThen supportedAlgorithms fun fa => preflightEach fa keys

/-- The keys one after the other, those before them done. -/
def importEach (forced : Bool) (done : List KeyImport) :
    List KeyImport → CardTalk (Answered Unit)
  | [] => pure (.ok ())
  | k :: keys => do
      set false
      match ← importOne forced k with
      | .error cause =>
          return .error (slotFailure (done.map fun k => crtLabel k.crt) k.crt (← get) cause)
      | .ok () => importEach forced (done ++ [k]) keys

/-- The fingerprints written. -/
def importKeySet (forced : Bool) (keys : List KeyImport) :
    CardTalk (Answered (List (List UInt8))) :=
  Session.andThen (checks keys) fun _ =>
    Session.andThen (importEach forced [] keys) fun _ =>
      pure (.ok (keys.map KeyImport.expectFpr))

end Keyroost.OpenPgp
