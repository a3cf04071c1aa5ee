import Keyroost.Import.PlanInvariant
import Keyroost.Oath.Command

/-!
# OATH names read back

What the planner writes as the name of an OATH credential (`nameFor`,
`keyroost-import/src/plan.rs`), the name reader of `keyroost-oath/src/lib.rs` takes apart again when
the key is listed: `period/issuer:account`, where the period is left out if it is thirty and the
issuer if there is none.

`oathName_reads_back` says that the period, the issuer and the account come back, an issuer that
stands alone as the account. So two codes of one type share a name only when they differ in nothing
but which of the two a lone text was: the name is a key for the codes on the device.

The one family that reads no period in its names, the Nitrokey 3, is left out.
-/

/-! ### Names on an OATH key

`[period/][issuer:]account`, as ykman reads it. A period is read for time-based
codes only. -/

namespace Keyroost.Oath

/-- A stored name, taken apart. -/
structure NameParts where
  period : Option UInt32
  issuer : Option RustStr
  account : RustStr
deriving DecidableEq, Repr

/-- The period in front of a name, and the rest. Digits before the first slash are a period only
when they fit, are not zero, and something follows. -/
def splitPeriod (name : RustStr) : Option UInt32 × RustStr :=
  match RustStr.splitOnce '/' name with
  | some (head, rest) =>
      if !head.isEmpty && head.all RustStr.isAsciiDigit && !rest.isEmpty then
        match RustStr.parseU32 head with
        | some p => if p ≠ 0 then (some p, rest) else (none, name)
        | none => (none, name)
      else (none, name)
  | none => (none, name)

/-- The issuer in front of an account. -/
def splitIssuer (rest : RustStr) : Option RustStr × RustStr :=
  match RustStr.splitOnce ':' rest with
  | some (issuer, account) =>
      if !issuer.isEmpty && !account.isEmpty then (some issuer, account) else (none, rest)
  | none => (none, rest)

/-- Split a stored name into period, issuer and account. -/
def parseName (name : RustStr) (oathType : OathType) : NameParts :=
  let (period, rest) := match oathType with
    | .totp => splitPeriod name
    | .hotp => (none, name)
  let (issuer, account) := splitIssuer rest
  { period, issuer, account }

/-- The period a stored name implies. -/
def totpPeriod (name : RustStr) : UInt32 := ((parseName name .totp).period).getD 30

end Keyroost.Oath

/-! ### OATH names read back -/

namespace Keyroost.Import

open Keyroost.Oath

/-- The type the key is told. -/
def OtpKind.oathType : OtpKind → OathType
  | .totp _ => .totp
  | .hotp _ => .hotp

/-- What a name should read back as: a period only if it is not the usual one, and a
lone text as the account. -/
def ImportEntry.nameParts (e : ImportEntry) : NameParts where
  period := match e.kind with
    | .totp p => if p = 30 then none else some p
    | .hotp _ => none
  issuer := match e.issuer, e.account with
    | some i, some _ => some i
    | _, _ => none
  account := match e.issuer, e.account with
    | some _, some a => a
    | some one, none | none, some one => one
    | none, none => []

/-! ### The issuer -/

theorem splitIssuer_append {issuer account : RustStr} (hcolon : ':' ∉ issuer)
    (hissuer : issuer ≠ []) (haccount : account ≠ []) :
    splitIssuer (issuer ++ ':' :: account) = (some issuer, account) := by
  simp [splitIssuer, RustStr.splitOnce_append ':' issuer account hcolon, hissuer, haccount]

theorem splitIssuer_none {account : RustStr} (hcolon : ':' ∉ account) :
    splitIssuer account = (none, account) := by
  rw [splitIssuer, (RustStr.splitOnce_eq_none ':' account).mpr hcolon]

/-- The name without its period reads back. -/
theorem splitIssuer_oathBase {e : ImportEntry} {base : RustStr}
    (hbase : oathBase e.issuer e.account = .ok base) :
    base ≠ [] ∧ splitIssuer base = (e.nameParts.issuer, e.nameParts.account) := by
  have hissuerNe := e.issuer_ne
  have haccountNe := e.account_ne
  unfold oathBase at hbase
  simp only [ImportEntry.nameParts]
  cases hissuer : e.issuer with
  | none =>
      cases haccount : e.account with
      | none => simp [hissuer, haccount] at hbase
      | some a =>
          have hne : a ≠ [] := fun h => haccountNe (haccount.trans (congrArg some h))
          by_cases hcolon : ':' ∈ a
          · simp [hissuer, haccount, hcolon] at hbase
          · obtain rfl : a = base := by simpa [hissuer, haccount, hcolon] using hbase
            exact ⟨hne, splitIssuer_none hcolon⟩
  | some i =>
      have hine : i ≠ [] := fun h => hissuerNe (hissuer.trans (congrArg some h))
      cases haccount : e.account with
      | none =>
          by_cases hcolon : ':' ∈ i
          · simp [hissuer, haccount, hcolon] at hbase
          · obtain rfl : i = base := by simpa [hissuer, haccount, hcolon] using hbase
            exact ⟨hine, splitIssuer_none hcolon⟩
      | some a =>
          have hane : a ≠ [] := fun h => haccountNe (haccount.trans (congrArg some h))
          by_cases hcolon : ':' ∈ i
          · simp [hissuer, haccount, hcolon] at hbase
          · obtain rfl : i ++ ':' :: a = base := by simpa [hissuer, haccount, hcolon] using hbase
            exact ⟨by simp, splitIssuer_append hcolon hine hane⟩

/-! ### The period -/

theorem splitPeriod_prefix {p : UInt32} (hp : p ≠ 0) {base : RustStr} (hbase : base ≠ []) :
    splitPeriod (RustStr.decimal p.toNat ++ '/' :: base) = (some p, base) := by
  have hslash : '/' ∉ RustStr.decimal p.toNat := RustStr.not_mem_decimal (by decide) _
  have hcut := RustStr.splitOnce_append '/' (RustStr.decimal p.toNat) base hslash
  simp only [splitPeriod, hcut, RustStr.parseU32_decimal, RustStr.decimal_all_isAsciiDigit]
  simp [RustStr.decimal_ne_nil, hbase, hp]

theorem splitPeriod_none {name : RustStr} (hperiod : looksLikePeriodPrefix name = false) :
    splitPeriod name = (none, name) := by
  unfold looksLikePeriodPrefix at hperiod
  unfold splitPeriod
  cases hcut : RustStr.splitOnce '/' name with
  | none => rfl
  | some halves =>
      obtain ⟨head, rest⟩ := halves
      simp only [hcut] at hperiod
      simp only [hperiod, Bool.false_and, Bool.false_eq_true, if_false]

/-! ### The whole name -/

/-- What the planner writes reads back as its parts. -/
theorem parseName_of_oathName {e : ImportEntry} {family : OathFamily} {name : RustStr}
    (hfamily : family ≠ .nitrokey3) (hname : oathName e family = .ok name) :
    parseName name e.kind.oathType = e.nameParts := by
  unfold oathName at hname
  cases hbase : oathBase e.issuer e.account with
  | error why => simp [hbase] at hname
  | ok base =>
      obtain ⟨hne, hissuer⟩ := splitIssuer_oathBase hbase
      cases hkind : e.kind with
      | hotp counter =>
          obtain rfl : base = name := by
            simpa [hbase, hkind, periodPrefix, periodRead] using hname
          simp only [parseName, OtpKind.oathType, hissuer]
          simp [ImportEntry.nameParts, hkind]
      | totp p =>
          have hread : periodRead (.totp p) family = true := by simpa [periodRead] using hfamily
          by_cases husual : p = 30
          · have hplain : looksLikePeriodPrefix base = false ∧ base = name := by
              cases hlooks : looksLikePeriodPrefix base <;>
                simp [hbase, hkind, periodPrefix, husual, hlooks, periodRead, hfamily] at hname ⊢
              exact hname
            obtain ⟨hlooks, rfl⟩ := hplain
            simp only [parseName, OtpKind.oathType, splitPeriod_none hlooks, hissuer]
            simp [ImportEntry.nameParts, hkind, husual]
          · have hp : p ≠ 0 := by
              rintro rfl
              exact e.period_ne hkind
            obtain rfl : RustStr.decimal p.toNat ++ '/' :: base = name := by
              simpa [hbase, hkind, periodPrefix, husual, hread] using hname
            simp only [parseName, OtpKind.oathType, splitPeriod_prefix hp hne, hissuer]
            simp [ImportEntry.nameParts, hkind, husual]

/-- **OATH names read back**: on every family that reads a period in its names, the
period, the issuer and the account come back, a lone text as the account; and two
entries of one type that get the same name have the same period and, up to where a
lone text stood, the same issuer and account. -/
theorem oathName_reads_back {e : ImportEntry} {family : OathFamily} {name : RustStr}
    (hfamily : family ≠ .nitrokey3) (hname : oathName e family = .ok name) :
    (∀ period, e.kind = .totp period →
        (parseName name e.kind.oathType).period.getD 30 = period) ∧
      (∀ issuer account, e.issuer = some issuer → e.account = some account →
        (parseName name e.kind.oathType).issuer = some issuer ∧
          (parseName name e.kind.oathType).account = account) ∧
      (∀ one, e.issuer = some one ∧ e.account = none ∨ e.issuer = none ∧ e.account = some one →
        (parseName name e.kind.oathType).issuer = none ∧
          (parseName name e.kind.oathType).account = one) ∧
      ∀ e' family', family' ≠ .nitrokey3 → oathName e' family' = .ok name →
        e'.kind.oathType = e.kind.oathType → e'.nameParts = e.nameParts := by
  rw [parseName_of_oathName hfamily hname]
  refine ⟨?_, ?_, ?_, ?_⟩
  · intro period hkind
    by_cases husual : period = 30
    · simp [ImportEntry.nameParts, hkind, husual]
    · simp [ImportEntry.nameParts, hkind, husual]
  · intro issuer account hissuer haccount
    simp [ImportEntry.nameParts, hissuer, haccount]
  · rintro one (⟨hissuer, haccount⟩ | ⟨hissuer, haccount⟩)
    · simp [ImportEntry.nameParts, hissuer, haccount]
    · simp [ImportEntry.nameParts, hissuer, haccount]
  · intro e' family' hfamily' hname' htype
    rw [← parseName_of_oathName hfamily hname, ← parseName_of_oathName hfamily' hname', htype]

/-- Example's code for alice, with a period of 60 seconds. -/
def minuteEntry : ImportEntry :=
  { usualEntry (some "Example".toList) (some "alice".toList) (oneByteSeed 1) with
    kind := .totp 60
    period_ne := by decide }

theorem minuteEntry_reads_back :
    (parseName "60/Example:alice".toList .totp).period.getD 30 = 60 ∧
      (parseName "60/Example:alice".toList .totp).issuer = some "Example".toList := by
  have h := @oathName_reads_back minuteEntry .other "60/Example:alice".toList (by decide) (by rfl)
  exact ⟨h.1 60 rfl, (h.2.1 _ _ rfl rfl).1⟩

/-- A counter-based code whose issuer looks like a period. -/
def periodLikeEntry : ImportEntry :=
  { usualEntry (some "60/Example".toList) (some "alice".toList) (oneByteSeed 1) with
    kind := .hotp 0
    period_ne := by decide }

/-- An issuer that stands alone comes back as the account, so it shares its name with
that account; and a counter-based code can share its name with a time-based one. -/
theorem oathName_lone_issuer :
    oathName (usualEntry (some "Example".toList) none (oneByteSeed 1)) .other =
        .ok "Example".toList ∧
      (parseName "Example".toList .totp).issuer = none ∧
      oathName (usualEntry none (some "Example".toList) (oneByteSeed 1)) .other =
        .ok "Example".toList ∧
      oathName minuteEntry .other = oathName periodLikeEntry .other ∧
      minuteEntry.issuer ≠ periodLikeEntry.issuer := by
  refine ⟨by rfl, by decide, by rfl, by rfl, by decide⟩

end Keyroost.Import
