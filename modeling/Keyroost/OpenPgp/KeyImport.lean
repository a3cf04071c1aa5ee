import Keyroost.OpenPgp.Tlv
import Keyroost.Piv.LongApdu

/-!
# Key import commands of the OpenPGP card

A private key goes to the card as one extended header list: the slot, a template with the lengths
of the key's fields, and the fields. `none` is a panic.

The builders are those of `keyroost-openpgp/src/lib.rs`, for RSA keys and for keys on a curve, each
in one extended command or as a chain of short ones. A field is written at the width that the
attributes ask for; an exponent or a scalar that is too wide for it is refused with the two widths.
-/

namespace Keyroost.OpenPgp

def KeyCrt.tag : KeyCrt → UInt8
  | sign => 0xB6
  | decrypt => 0xB8
  | auth => 0xA4

/-! ### Fields -/

def keyTemplateEntry (tag : UInt8) (fieldLen : Nat) : List UInt8 := tag :: berLen fieldLen

/-- One zero byte in front is dropped, unless it is all there is. -/
def stripLeadingZero : List UInt8 → List UInt8
  | 0x00 :: b :: rest => b :: rest
  | field => field

structure RsaPrivateKeyParts where
  e : List UInt8
  p : List UInt8
  q : List UInt8
  u : List UInt8
  dp : List UInt8
  dq : List UInt8
  n : List UInt8
deriving DecidableEq, Repr

structure ExponentTooWide where
  eLen : Nat
  fieldLen : Nat
deriving DecidableEq, Repr

def padExponent (e : List UInt8) (reqlen : Nat) : Except ExponentTooWide (List UInt8) :=
  let e := stripLeadingZero e
  if reqlen < e.length then .error ⟨e.length, reqlen⟩
  else .ok (List.replicate (reqlen - e.length) 0 ++ e)

/-- `e_bits.div_ceil(8)`. -/
def exponentWidth (eBits : UInt16) : Nat := (eBits.toNat + 7) / 8

def rsaExponentFits (e : List UInt8) (eBits : UInt16) : Bool :=
  decide ((stripLeadingZero e).length ≤ exponentWidth eBits)

/-! ### RSA keys -/

def extendedHeaderList (crt : KeyCrt) (key : RsaPrivateKeyParts) (format : RsaImportFormat)
    (eBits : UInt16) : Except ExponentTooWide (List UInt8) :=
  (padExponent key.e (exponentWidth eBits)).map fun e =>
    let p := stripLeadingZero key.p
    let q := stripLeadingZero key.q
    let u := stripLeadingZero key.u
    let dp := stripLeadingZero key.dp
    let dq := stripLeadingZero key.dq
    let n := stripLeadingZero key.n
    let template :=
      keyTemplateEntry 0x91 e.length ++ keyTemplateEntry 0x92 p.length ++
        keyTemplateEntry 0x93 q.length ++
        (if format.includesCrt then
          keyTemplateEntry 0x94 u.length ++ keyTemplateEntry 0x95 dp.length ++
            keyTemplateEntry 0x96 dq.length
        else []) ++
        if format.includesModulus then keyTemplateEntry 0x97 n.length else []
    let keyData :=
      e ++ p ++ q ++ (if format.includesCrt then u ++ dp ++ dq else []) ++
        if format.includesModulus then n else []
    berTlv 0x4D ([crt.tag, 0x00] ++ berTlv 0x7F48 template ++ berTlv 0x5F48 keyData)

/-! ### Keys on a curve -/

structure EccPrivateKeyParts where
  scalar : List UInt8
  publicPoint : Option (List UInt8)
deriving DecidableEq, Repr

structure ScalarTooWide where
  scalarLen : Nat
  fieldLen : Nat
deriving DecidableEq, Repr

def eccScalarFits (scalar : List UInt8) (fieldLen : Nat) : Bool :=
  decide (scalar.length ≤ fieldLen) ||
    decide (scalar.length = fieldLen + 1) && decide (scalar.head? = some 0x00)

/-- The padding's width is a subtraction that panics below zero. -/
def eccExtendedHeaderList (crt : KeyCrt) (key : EccPrivateKeyParts) (fieldLen : Nat) :
    Option (Except ScalarTooWide (List UInt8)) :=
  let scalar := if fieldLen < key.scalar.length then stripLeadingZero key.scalar else key.scalar
  if eccScalarFits key.scalar fieldLen = false then some (.error ⟨scalar.length, fieldLen⟩)
  else if fieldLen < scalar.length then none
  else
    let template :=
      keyTemplateEntry 0x92 fieldLen ++
        (key.publicPoint.toList.map fun point => keyTemplateEntry 0x99 point.length).flatten
    let keyData :=
      List.replicate (fieldLen - scalar.length) 0 ++ scalar ++ key.publicPoint.toList.flatten
    some (.ok
      (berTlv 0x4D ([crt.tag, 0x00] ++ berTlv 0x7F48 template ++ berTlv 0x5F48 keyData)))

/-! ### Commands -/

def INS_PUT_DATA_ODD : UInt8 := 0xDB

def buildApduExtended (cla ins p1 p2 : UInt8) (data : List UInt8) : Option (List UInt8) :=
  if data.length ≤ 0xFFFF then
    let lc := data.length.toUInt16
    some ([cla, ins, p1, p2, 0x00, (lc >>> 8).toUInt8, (lc &&& 0xFF).toUInt8] ++ data)
  else none

def putDataOddChained (p1 p2 : UInt8) (data : List UInt8) (maxChunk : Nat) :
    Option (List (List UInt8)) :=
  if 1 ≤ maxChunk ∧ maxChunk ≤ 255 then
    if data = [] then some [[0x00, INS_PUT_DATA_ODD, p1, p2, 0x00]]
    else
      let chunks := Piv.chunks maxChunk data
      let last := chunks.length - 1
      some (chunks.mapIdx fun i chunk =>
        [if i < last then 0x10 else 0x00, INS_PUT_DATA_ODD, p1, p2, chunk.length.toUInt8] ++ chunk)
  else none

def importRsaKey (crt : KeyCrt) (key : RsaPrivateKeyParts) (format : RsaImportFormat)
    (eBits : UInt16) : Option (Except ExponentTooWide (List UInt8)) :=
  match extendedHeaderList crt key format eBits with
  | .error e => some (.error e)
  | .ok headerList =>
      (buildApduExtended 0x00 INS_PUT_DATA_ODD 0x3F 0xFF headerList).map .ok

def importRsaKeyChained (crt : KeyCrt) (key : RsaPrivateKeyParts) (format : RsaImportFormat)
    (eBits : UInt16) (maxChunk : Nat) : Option (Except ExponentTooWide (List (List UInt8))) :=
  match extendedHeaderList crt key format eBits with
  | .error e => some (.error e)
  | .ok headerList => (putDataOddChained 0x3F 0xFF headerList maxChunk).map .ok

def importEccKey (crt : KeyCrt) (key : EccPrivateKeyParts) (fieldLen : Nat) :
    Option (Except ScalarTooWide (List UInt8)) :=
  match eccExtendedHeaderList crt key fieldLen with
  | none => none
  | some (.error e) => some (.error e)
  | some (.ok headerList) =>
      (buildApduExtended 0x00 INS_PUT_DATA_ODD 0x3F 0xFF headerList).map .ok

def importEccKeyChained (crt : KeyCrt) (key : EccPrivateKeyParts) (fieldLen maxChunk : Nat) :
    Option (Except ScalarTooWide (List (List UInt8))) :=
  match eccExtendedHeaderList crt key fieldLen with
  | none => none
  | some (.error e) => some (.error e)
  | some (.ok headerList) => (putDataOddChained 0x3F 0xFF headerList maxChunk).map .ok

end Keyroost.OpenPgp
