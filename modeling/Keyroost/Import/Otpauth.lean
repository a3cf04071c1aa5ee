import Keyroost.Library.Utf8
import Keyroost.Proto.Commands
import Keyroost.Import.Entry

/-!
# The otpauth:// readers

The two readers of `keyroost-import/src/otpauth.rs`:

* `parse` is the narrow one, whose result a Molto2 slot can store; it stops at the first thing such
  a slot cannot hold;
* `parseEntry` is the wide one, which collects the parameters first and then checks them in a fixed
  order, so that the error a user sees does not depend on where a parameter stands.

Both cut the URI with `splitUri` and `queryParams`, and both undo percent escapes with the same
decoder, which takes bytes and only then asks whether they are UTF-8.
-/

namespace Keyroost.Import.Otpauth

open Keyroost.Proto

inductive OtpAuthError where
  | notOtpAuth
  | unsupportedType (typ : RustStr)
  | missingSecret
  | invalidSecret
  | unsupportedAlgorithm (name : RustStr)
  | unsupportedDigits (n : UInt32)
  | unsupportedPeriod (n : UInt32)
  | malformed (what : String)
deriving DecidableEq, Repr

/-- A parsed otpauth:// URI, normalized to the subset a Molto2 can store. -/
structure OtpAuth where
  issuer : Option RustStr
  account : Option RustStr
  secret : List UInt8
  algorithm : HmacAlgo
  digits : OtpDigits
  timeStep : TimeStep
deriving DecidableEq, Repr

/-! ### Percent decoding -/

def hexNibble (c : UInt8) : Option UInt8 :=
  if '0'.toUInt8 ≤ c ∧ c ≤ '9'.toUInt8 then some (c - '0'.toUInt8)
  else if 'a'.toUInt8 ≤ c ∧ c ≤ 'f'.toUInt8 then some (c - 'a'.toUInt8 + 10)
  else if 'A'.toUInt8 ≤ c ∧ c ≤ 'F'.toUInt8 then some (c - 'A'.toUInt8 + 10)
  else none

/-- The loop of `percent_decode_impl`, over the bytes still to read. -/
def percentDecodeBytes (plusIsSpace : Bool) : List UInt8 → Option (List UInt8)
  | [] => some []
  | c :: rest =>
      if c = '+'.toUInt8 ∧ plusIsSpace = true then
        (percentDecodeBytes plusIsSpace rest).map (' '.toUInt8 :: ·)
      else if c = '%'.toUInt8 then
        match rest with
        | first :: second :: rest => do
            let hi ← hexNibble first
            let lo ← hexNibble second
            let out ← percentDecodeBytes plusIsSpace rest
            return ((hi <<< 4) ||| lo) :: out
        | _ => none
      else (percentDecodeBytes plusIsSpace rest).map (c :: ·)

def percentDecodeImpl (s : RustStr) (plusIsSpace : Bool) : Option RustStr :=
  (percentDecodeBytes plusIsSpace s.asBytes).bind Utf8.fromUtf8

/-- Percent-decode a query value: `+` is a space. -/
def percentDecode (s : RustStr) : Option RustStr := percentDecodeImpl s true

/-- Percent-decode a URI path segment: `+` is a literal plus. -/
def percentDecodeKeepPlus (s : RustStr) : Option RustStr := percentDecodeImpl s false

/-! ### Cutting the URI -/

/-- The three parts of `otpauth://TYPE/LABEL?QUERY`, undecoded. -/
structure UriParts where
  typ : RustStr
  labelRaw : RustStr
  query : RustStr
deriving DecidableEq, Repr

inductive SplitError where
  | notOtpAuth
  | noLabel
deriving DecidableEq, Repr

def splitUri (uri : RustStr) : Except SplitError UriParts :=
  match RustStr.stripPrefix "otpauth://".toList uri with
  | none => .error .notOtpAuth
  | some rest =>
      let (typLabel, query) := (RustStr.splitOnce '?' rest).getD (rest, [])
      match RustStr.splitOnce '/' typLabel with
      | none => .error .noLabel
      | some (typ, labelRaw) => .ok { typ, labelRaw, query }

/-- The query's pairs in order, each value form-decoded, or nothing for bad
percent-encoding. -/
def queryParams (query : RustStr) : List (RustStr × Option RustStr) :=
  ((query.splitOn '&').filter fun kv => !kv.isEmpty).map fun kv =>
    let (k, v) := (RustStr.splitOnce '=' kv).getD (kv, [])
    (k, percentDecode v)

/-- Split an `Issuer:account` label on its first colon, both halves trimmed; a
label without a colon is the account. -/
def splitLabel (label : RustStr) : Option RustStr × Option RustStr :=
  match RustStr.splitOnce ':' label with
  | some (i, a) => (some (RustStr.trim i), some (RustStr.trim a))
  | none => if label.isEmpty then (none, none) else (none, some (RustStr.trim label))

/-! ### The narrow reader -/

/-- What the narrow reader has read of the query. What the query does not say has the default of the
format: SHA-1, six digits, 30 seconds. -/
structure NarrowParams where
  secretB32 : Option RustStr := none
  issuerParam : Option RustStr := none
  algorithm : HmacAlgo := .sha1
  digits : OtpDigits := .six
  period : UInt32 := 30
deriving DecidableEq, Repr

/-- The code lengths a Molto2 stores. -/
def otpDigits (n : UInt32) : Option OtpDigits :=
  if n = 4 then some .four
  else if n = 6 then some .six
  else if n = 8 then some .eight
  else if n = 10 then some .ten
  else none

/-- The hashes a Molto2 computes, as the query names them. -/
def hmacAlgo (upper : RustStr) : Option HmacAlgo :=
  if upper = "SHA1".toList then some .sha1
  else if upper = "SHA256".toList then some .sha256
  else none

/-- One turn of the narrow reader's loop over the query. The first parameter that cannot be read
stops it; the wide reader goes on and remembers the fault. -/
def narrowStep (p : NarrowParams) (kv : RustStr × Option RustStr) :
    Except OtpAuthError NarrowParams :=
  match kv.2 with
  | none => .error (.malformed "query value percent-encoding")
  | some v =>
      if kv.1 = "secret".toList then .ok { p with secretB32 := some v }
      else if kv.1 = "issuer".toList then .ok { p with issuerParam := some v }
      else if kv.1 = "algorithm".toList then
        match hmacAlgo v.toAsciiUppercase with
        | some algorithm => .ok { p with algorithm }
        | none => .error (.unsupportedAlgorithm v.toAsciiUppercase)
      else if kv.1 = "digits".toList then
        match RustStr.parseU32 v with
        | none => .error (.malformed "digits")
        | some n =>
            match otpDigits n with
            | some digits => .ok { p with digits }
            | none => .error (.unsupportedDigits n)
      else if kv.1 = "period".toList then
        match RustStr.parseU32 v with
        | none => .error (.malformed "period")
        | some period => .ok { p with period }
      else .ok p

/-- The periods a Molto2 keeps. -/
def timeStepOf (period : UInt32) : Option TimeStep :=
  if period = 30 then some .seconds30
  else if period = 60 then some .seconds60
  else none

/-- The checks after the loop, and the result. The period is checked before the secret is looked at,
and the issuer of the query goes before the one in the label. -/
def narrowFinish (label : RustStr) (p : NarrowParams) : Except OtpAuthError OtpAuth :=
  match timeStepOf p.period with
  | none => .error (.unsupportedPeriod p.period)
  | some timeStep =>
      match p.secretB32 with
      | none => .error .missingSecret
      | some secretB32 =>
          match Codec.base32Decode secretB32 with
          | .error _ => .error .invalidSecret
          | .ok secret =>
              if secret = [] ∨ 63 < secret.length then .error .invalidSecret
              else
                let (labelIssuer, account) := splitLabel label
                .ok {
                  issuer := nonEmpty (p.issuerParam.or labelIssuer)
                  account := nonEmpty account
                  secret, timeStep
                  algorithm := p.algorithm
                  digits := p.digits }

/-- Parse an otpauth:// URI into what a Molto2 can store. The type is checked before the label is
decoded, and the label before the query is read. -/
def parse (uri : RustStr) : Except OtpAuthError OtpAuth :=
  match splitUri uri with
  | .error .notOtpAuth => .error .notOtpAuth
  | .error .noLabel => .error (.malformed "missing label")
  | .ok parts =>
      if parts.typ.eqIgnoreAsciiCase "totp".toList = false then
        .error (.unsupportedType parts.typ)
      else
        match percentDecodeKeepPlus parts.labelRaw with
        | none => .error (.malformed "label percent-encoding")
        | some label => do
            let params ← (queryParams parts.query).foldlM narrowStep {}
            narrowFinish label params

/-! ### The wide reader -/

/-- What the wide reader has read of the query. `malformed` keeps the first
value it could not read. -/
structure WideParams where
  secretB32 : Option RustStr := none
  issuerParam : Option RustStr := none
  algorithm : Option RustStr := none
  digits : UInt32 := 6
  period : UInt32 := 30
  counter : UInt64 := 0
  counterMalformed : Bool := false
  malformed : Option String := none
deriving DecidableEq, Repr

/-- `malformed.get_or_insert(what)`. -/
def WideParams.reject (p : WideParams) (what : String) : WideParams :=
  { p with malformed := p.malformed.or (some what) }

/-- One turn of the wide reader's loop over the query. It refuses nothing: a fault is kept in the
state, where `wideFinish` looks for it in its place among the checks. -/
def wideStep (p : WideParams) (kv : RustStr × Option RustStr) : WideParams :=
  match kv.2 with
  | none => p.reject "a parameter's percent-encoding is invalid"
  | some v =>
      if kv.1 = "secret".toList then { p with secretB32 := some v }
      else if kv.1 = "issuer".toList then { p with issuerParam := some v }
      else if kv.1 = "algorithm".toList then { p with algorithm := some v }
      else if kv.1 = "digits".toList then
        match RustStr.parseU32 v with
        | some digits => { p with digits }
        | none => p.reject "the digits value isn't a number"
      else if kv.1 = "period".toList then
        match RustStr.parseU32 v with
        | some period => { p with period }
        | none => p.reject "the period value isn't a number"
      else if kv.1 = "counter".toList then
        match RustStr.parseU64 v with
        | some counter => { p with counter }
        | none => { p with counterMalformed := true }
      else p

/-- The checks after the loop, in their fixed order. -/
def wideFinish (typ : RustStr) (issuer account : Option RustStr) (p : WideParams) :
    Except Unusable ImportEntry := do
  let kind ← typeFromName typ
  if let some what := p.malformed then throw (.malformed what)
  if p.counterMalformed = true ∧ kind = .hotp then
    throw (.malformed "the counter value isn't a number")
  let secret ← decodeSecret (p.secretB32.getD [])
  let hash ← hashFromName (p.algorithm.getD "SHA1".toList)
  let kind := match kind with
    | .totp => OtpKind.totp p.period
    | .hotp => OtpKind.hotp p.counter
  finish issuer account secret hash p.digits kind

/-- Parse an otpauth:// URI into a format-neutral entry, together with the name
the URI carries, even when the entry is unusable. -/
def parseEntryLabeled (uri : RustStr) : Option RustStr × Except Unusable ImportEntry :=
  match splitUri uri with
  | .error .notOtpAuth => (none, .error (.malformed "not an otpauth:// URI"))
  | .error .noLabel => (none, .error (.malformed "the URI has no label"))
  | .ok parts =>
      match percentDecodeKeepPlus parts.labelRaw with
      | none => (none, .error (.malformed "the label's percent-encoding is invalid"))
      | some label =>
          let (labelIssuer, account) := splitLabel label
          let params := (queryParams parts.query).foldl wideStep {}
          let issuer := nonEmpty (params.issuerParam.or labelIssuer)
          let account := nonEmpty account
          (nameLabel issuer account, wideFinish parts.typ issuer account params)

/-- `parse_entry_labeled` without the name. -/
def parseEntry (uri : RustStr) : Except Unusable ImportEntry := (parseEntryLabeled uri).2

end Keyroost.Import.Otpauth
