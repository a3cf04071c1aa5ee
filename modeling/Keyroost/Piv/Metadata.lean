import Keyroost.Piv.CertObject

/-!
# What GET METADATA says of a slot

The reply's algorithm, policies and public key, as `keyroost-piv/src/lib.rs` reads them, and what a
session makes of it for each kind of applet (`keyroost-transport/src/piv.rs`).

A reply is a sequence of TLVs, of which unknown ones are skipped; `Metadata.push` is one turn of the
source's loop. Some applets are known to answer for an
empty slot as if it held a key, so what may be concluded from a reply depends on the applet
(`clearMetadataIfQuirky`, `metadataSaysNoKey`).
-/

namespace Keyroost.Piv

def PinPolicy.fromId (id : UInt8) : Option PinPolicy :=
  if id = 0x00 then some .default
  else if id = 0x01 then some .never
  else if id = 0x02 then some .once
  else if id = 0x03 then some .always
  else none

def TouchPolicy.fromId (id : UInt8) : Option TouchPolicy :=
  if id = 0x00 then some .default
  else if id = 0x01 then some .never
  else if id = 0x02 then some .always
  else if id = 0x03 then some .cached
  else none

def policyFromIds (ids : UInt8 × UInt8) : Option (PinPolicy × TouchPolicy) := do
  let pin ← PinPolicy.fromId ids.1
  let touch ← TouchPolicy.fromId ids.2
  return (pin, touch)

/-! ### Public keys -/

def publicKeyIn (inner : List UInt8) : Option PublicKey :=
  match findTlv inner 0x86 with
  | some point => some (.ecc point)
  | none => do
      let modulus ← findTlv inner 0x81
      let exponent ← findTlv inner 0x82
      return .rsa modulus exponent

/-- A generated key's template. The callers here drop the error's text. -/
def parsePublicKey : List UInt8 → Option PublicKey
  | 0x7F :: 0x49 :: rest => do
      let (len, header) ← readBerLen rest
      let inner ← slice? rest header len
      publicKeyIn inner
  | _ => none

def publicKeyFromMetadata (raw : List UInt8) : Option PublicKey :=
  if raw.take 2 = [0x7F, 0x49] then parsePublicKey raw else publicKeyIn raw

/-! ### The reply -/

structure Metadata where
  algorithm : Option UInt8
  isDefault : Option Bool
  retries : Option (UInt8 × UInt8)
  policy : Option (UInt8 × UInt8)
  origin : Option UInt8
  publicKey : Option (List UInt8)
deriving DecidableEq, Repr

def Metadata.default : Metadata :=
  { algorithm := none, isDefault := none, retries := none, policy := none, origin := none,
    publicKey := none }

def firstTwo : List UInt8 → Option (UInt8 × UInt8)
  | a :: b :: _ => some (a, b)
  | _ => none

/-- What one TLV of a reply sets. -/
def Metadata.push (md : Metadata) (tag : UInt8) (value : List UInt8) : Metadata :=
  if tag = 0x01 then { md with algorithm := value.head? }
  else if tag = 0x02 then { md with policy := (firstTwo value).or md.policy }
  else if tag = 0x03 then { md with origin := value.head? }
  else if tag = 0x04 then { md with publicKey := some value }
  else if tag = 0x05 then { md with isDefault := value.head?.map (· != 0) }
  else if tag = 0x06 then { md with retries := (firstTwo value).or md.retries }
  else md

/-- The loop of `parse_metadata`: the number counts down the bytes that may be left. -/
def parseMetadataFrom : Nat → Metadata → List UInt8 → Option Metadata
  | _, md, [] => some md
  | 0, _, _ :: _ => none
  | left + 1, md, tag :: rest => do
      let (len, header) ← readBerLen rest
      let value ← slice? rest header len
      parseMetadataFrom left (md.push tag value) (rest.drop (header + len))

def parseMetadata (buf : List UInt8) : Option Metadata :=
  parseMetadataFrom buf.length .default buf

/-! ### The applet -/

inductive HidCrescendoVariant where
  | generic
  | c2300
  | c4000
deriving DecidableEq, Repr

/-- What a session has found out about the applet, once for all: which of its extensions are
sent, its quirks, and its algorithm bytes. -/
structure Applet where
  metadataSent : Bool
  attestSent : Bool
  keyStatusSupported : Bool
  keyTypeIgnored : Bool
  policyIgnored : Bool
  resetFailsIfManagementKeyIsAes : Bool
  hidCrescendo : Option HidCrescendoVariant
  algId : KeyAlg → UInt8
  algOfId : UInt8 → Option KeyAlg

variable (applet : Applet)

def clearMetadataIfQuirky (md : Metadata) : Metadata :=
  let md := if applet.keyTypeIgnored then { md with algorithm := none, publicKey := none } else md
  if applet.policyIgnored then { md with policy := none } else md

def metadataSaysNoKey (sw : Option UInt16) : Bool :=
  !applet.keyTypeIgnored && decide (sw = some SW_REFERENCE_NOT_FOUND)

def metadataKeyMaterial (md : Metadata) : Option (KeyAlg × List UInt8) := do
  let alg ← md.algorithm.bind applet.algOfId
  let raw ← md.publicKey
  return (alg, raw)

/-- The metadata in a reply that was received. -/
def metadataIn (data : List UInt8) (sw : UInt16) : Option Metadata :=
  if sw ≠ SW_OK then none else (parseMetadata data).map (clearMetadataIfQuirky applet)

/-- The key that metadata names. -/
def Metadata.key (md : Metadata) : Option (KeyAlg × PublicKey) :=
  (metadataKeyMaterial applet md).bind fun (alg, raw) =>
    (publicKeyFromMetadata raw).map fun key => (alg, key)

def Metadata.slotPolicy (md : Metadata) : Option (PinPolicy × TouchPolicy) :=
  md.policy.bind policyFromIds

end Keyroost.Piv
