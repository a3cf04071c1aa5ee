import Mathlib.Data.List.Lex
import Keyroost.Library.Timeline
import Keyroost.Piv.Metadata

/-!
# What a PIV device supports, and from which version on

A feature is judged on two axes, the applet's version and the firmware's. Each axis has its recorded
verdicts, and the two gates are merged into one. For a feature that is refused the floor names the
version that lifts the refusal. Modelled from `keyroost-piv/src/compat.rs`.

The tables of verdicts are a parameter, so the results hold of any rows that are recorded later. One
axis is a `Timeline` of the library: the row in force at a version decides, and the first later row
that lifts the refusal is the floor (`resolveIn_lifted`, `resolveIn_short_of_lifted`). Which axis
refuses on its own is settled by cases on the way the gates are merged (`RefusesAlone`).
`version_floor` says that a named version is true, that silence is true, and that an import waits
for generating; `import_floor_below_generation` is a table on which it has to.
-/

namespace Keyroost.Piv

open Timeline

/-- Version bytes, compared byte for byte, a shorter version before a longer one. -/
abbrev Version := List UInt8

instance byteOrder : LinearOrder UInt8 where
  le_refl := UInt8.le_refl
  le_trans _ _ _ := UInt8.le_trans
  le_antisymm _ _ := UInt8.le_antisymm
  le_total := UInt8.le_total
  lt_iff_le_not_ge a b := by
    rw [UInt8.lt_iff_toNat_lt, UInt8.le_iff_toNat_le, UInt8.le_iff_toNat_le]
    omega
  toDecidableLE := inferInstance

/-! ### Verdicts -/

inductive Verdict where
  | knownSupported
  | knownUnsupported
  | knownUnsupportedSince
deriving DecidableEq, Repr

structure VersionVerdict where
  version : Version
  verdict : Verdict
deriving DecidableEq, Repr

/-- The verdicts on one axis, each at a later version than the one before. The order is part of the
type, so that a lookup need not assume it. -/
structure Verdicts where
  rows : List VersionVerdict
  ascending : Ascending VersionVerdict.version rows

/-- Enable, enable and flag, or dim. -/
inductive FeatureGate where
  | supported
  | unverified
  | unsupported
deriving DecidableEq, Repr

def resolveIn (verdicts : Option Verdicts) (version : Option Version) : FeatureGate :=
  match version, verdicts with
  | none, _ => .unverified
  | some _, none => .unverified
  | some version, some verdicts =>
      match inForce VersionVerdict.version version verdicts.rows with
      | none =>
          -- older than every verdict on record
          match verdicts.rows.head? with
          | some ⟨_, .knownUnsupported⟩ => .unsupported
          | _ => .unverified
      | some idx =>
          match verdicts.rows[idx].verdict with
          | .knownSupported => .supported
          | .knownUnsupported =>
              if verdicts.rows[idx].version = version then .unsupported
              else if (idx : Nat) + 1 = verdicts.rows.length then .unverified
              else .unsupported
          | .knownUnsupportedSince => .unsupported

/-! ### Extensions and fingerprints -/

inductive MgmtAlgChoice where
  | tripleDes
  | aes128
  | aes192
  | aes256
  | delete
deriving DecidableEq, Repr

inductive PivExtension where
  | moveKey
  | deleteKey
  | getMetadata
  | getSlotKeyStatus
  | attest
  | pinManagementAuth
  | reset
  | resetGlobal
  | setPinPukRetries
  | setManagementKey
  | slotPinPolicy
  | slotTouchPolicy
  | slotKeyAlgorithm (alg : KeyAlg)
  | managementKeyAlgorithm (choice : MgmtAlgChoice)
  | importKey (alg : KeyAlg)
deriving DecidableEq, Repr

inductive ArekinathVariant where
  | generic
  | swissbitIShield1
deriving DecidableEq, Repr

inductive TrussedVariant where
  | nitrokey
deriving DecidableEq, Repr

inductive OpenFips201Variant where
  | generic
  | swissbitIShield2
deriving DecidableEq, Repr

inductive UTrustVariant where
  | generic
  | gov
deriving DecidableEq, Repr

inductive AppletFingerprint where
  | generic
  | arekinathPivApplet (variant : ArekinathVariant)
  | authentrendATKey
  | feitian
  | hidCrescendo (variant : HidCrescendoVariant)
  | idPrime
  | trussed (variant : TrussedVariant)
  | openFips201 (variant : OpenFips201Variant)
  | thetis
  | token2
  | uTrust (variant : UTrustVariant)
  | yubiKey
deriving DecidableEq, Repr

/-! ### Merging the two axes -/

inductive AxisMergeMode where
  | mergeRelaxed
  | mergeStrict
  | appletWins
  | firmwareWins
deriving DecidableEq, Repr

def YUBIKEY_AXIS_MERGE_MODE : AxisMergeMode := .mergeRelaxed
def TOKEN2_AXIS_MERGE_MODE : AxisMergeMode := .mergeRelaxed
def SWISSBIT_ISHIELD2_AXIS_MERGE_MODE : AxisMergeMode := .mergeRelaxed
def THETIS_AXIS_MERGE_MODE : AxisMergeMode := .mergeRelaxed
def AREKINATH_GENERIC_AXIS_MERGE_MODE : AxisMergeMode := .mergeRelaxed
def AREKINATH_SWISSBIT_ISHIELD1_AXIS_MERGE_MODE : AxisMergeMode := .mergeRelaxed
def HID_CRESCENDO_C2300_AXIS_MERGE_MODE : AxisMergeMode := .mergeRelaxed
def HID_CRESCENDO_C4000_AXIS_MERGE_MODE : AxisMergeMode := .mergeRelaxed
def HID_CRESCENDO_GENERIC_AXIS_MERGE_MODE : AxisMergeMode := .mergeRelaxed
def GENERIC_AXIS_MERGE_MODE : AxisMergeMode := .mergeRelaxed
def AUTHENTREND_ATKEY_AXIS_MERGE_MODE : AxisMergeMode := .mergeRelaxed
def FEITIAN_AXIS_MERGE_MODE : AxisMergeMode := .mergeRelaxed
def IDPRIME_AXIS_MERGE_MODE : AxisMergeMode := .mergeRelaxed
def TRUSSED_NITROKEY_AXIS_MERGE_MODE : AxisMergeMode := .mergeRelaxed
def OPENFIPS201_GENERIC_AXIS_MERGE_MODE : AxisMergeMode := .mergeRelaxed
def UTRUST_GENERIC_AXIS_MERGE_MODE : AxisMergeMode := .mergeRelaxed
def UTRUST_GOV_AXIS_MERGE_MODE : AxisMergeMode := .mergeRelaxed

def axisMergeMode : AppletFingerprint → AxisMergeMode
  | .yubiKey => YUBIKEY_AXIS_MERGE_MODE
  | .token2 => TOKEN2_AXIS_MERGE_MODE
  | .openFips201 .swissbitIShield2 => SWISSBIT_ISHIELD2_AXIS_MERGE_MODE
  | .openFips201 .generic => OPENFIPS201_GENERIC_AXIS_MERGE_MODE
  | .thetis => THETIS_AXIS_MERGE_MODE
  | .arekinathPivApplet .generic => AREKINATH_GENERIC_AXIS_MERGE_MODE
  | .arekinathPivApplet .swissbitIShield1 => AREKINATH_SWISSBIT_ISHIELD1_AXIS_MERGE_MODE
  | .hidCrescendo .c2300 => HID_CRESCENDO_C2300_AXIS_MERGE_MODE
  | .hidCrescendo .c4000 => HID_CRESCENDO_C4000_AXIS_MERGE_MODE
  | .hidCrescendo .generic => HID_CRESCENDO_GENERIC_AXIS_MERGE_MODE
  | .generic => GENERIC_AXIS_MERGE_MODE
  | .authentrendATKey => AUTHENTREND_ATKEY_AXIS_MERGE_MODE
  | .feitian => FEITIAN_AXIS_MERGE_MODE
  | .idPrime => IDPRIME_AXIS_MERGE_MODE
  | .trussed .nitrokey => TRUSSED_NITROKEY_AXIS_MERGE_MODE
  | .uTrust .generic => UTRUST_GENERIC_AXIS_MERGE_MODE
  | .uTrust .gov => UTRUST_GOV_AXIS_MERGE_MODE

theorem axisMergeMode_eq (fingerprint : AppletFingerprint) :
    axisMergeMode fingerprint = .mergeRelaxed := by
  cases fingerprint with
  | arekinathPivApplet variant => cases variant <;> rfl
  | hidCrescendo variant => cases variant <;> rfl
  | trussed variant => cases variant; rfl
  | openFips201 variant => cases variant <;> rfl
  | uTrust variant => cases variant <;> rfl
  | _ => rfl

def combineStrict : FeatureGate → FeatureGate → FeatureGate
  | .unsupported, _ => .unsupported
  | _, .unsupported => .unsupported
  | .supported, _ => .supported
  | _, .supported => .supported
  | .unverified, .unverified => .unverified

def combineRelaxed : FeatureGate → FeatureGate → FeatureGate
  | .unsupported, .supported => .unverified
  | .supported, .unsupported => .unverified
  | .unsupported, _ => .unsupported
  | _, .unsupported => .unsupported
  | .supported, _ => .supported
  | _, .supported => .supported
  | .unverified, .unverified => .unverified

def combinePreferring (a b preferred : FeatureGate) : FeatureGate :=
  match a, b with
  | .unverified, .unverified => .unverified
  | .unverified, real => real
  | real, .unverified => real
  | x, y => if x = y then x else preferred

def mergeGates (mode : AxisMergeMode) (appletGate firmwareGate : FeatureGate) : FeatureGate :=
  match mode with
  | .mergeStrict => combineStrict appletGate firmwareGate
  | .mergeRelaxed => combineRelaxed appletGate firmwareGate
  | .appletWins => combinePreferring appletGate firmwareGate appletGate
  | .firmwareWins => combinePreferring appletGate firmwareGate firmwareGate

/-! ### Both axes -/

inductive VersionAxis where
  | applet
  | firmware
deriving DecidableEq, Repr

def VersionAxis.other : VersionAxis → VersionAxis
  | .applet => .firmware
  | .firmware => .applet

/-- What is on record about every device. -/
structure VerdictTables where
  appletVerdicts : AppletFingerprint → PivExtension → Option Verdicts
  firmwareVerdicts : AppletFingerprint → PivExtension → Option Verdicts

def VerdictTables.verdicts (tables : VerdictTables) (fingerprint : AppletFingerprint)
    (extension : PivExtension) : VersionAxis → Option Verdicts
  | .applet => tables.appletVerdicts fingerprint extension
  | .firmware => tables.firmwareVerdicts fingerprint extension

/-- The versions a device reports. -/
structure ReportedVersions where
  applet : Option Version
  firmware : Option Version
deriving DecidableEq, Repr

namespace ReportedVersions

def on (reported : ReportedVersions) : VersionAxis → Option Version
  | .applet => reported.applet
  | .firmware => reported.firmware

/-- The same device, reporting another version on one axis. -/
def raise (reported : ReportedVersions) (axis : VersionAxis) (version : Version) :
    ReportedVersions :=
  match axis with
  | .applet => { reported with applet := some version }
  | .firmware => { reported with firmware := some version }

/-- The version the device is at: before every other one where it reports none. -/
def version (reported : ReportedVersions) (axis : VersionAxis) : Version :=
  (reported.on axis).getD []

/-- The versions as they are read: a device that reports none is read at the empty version. -/
def read : ReportedVersions → ReportedVersions
  | ⟨none, none⟩ => ⟨some [], some []⟩
  | reported => reported

theorem version_of_read {reported : ReportedVersions} {axis : VersionAxis} {version : Version}
    (h : reported.read.on axis = some version) : reported.version axis = version := by
  obtain ⟨applet, firmware⟩ := reported
  cases axis <;> cases applet <;> cases firmware <;>
    first | exact Option.some.inj h | simp only [read, on, reduceCtorEq] at h

end ReportedVersions

structure AxisReading where
  axis : VersionAxis
  rows : Option Verdicts
  version : Option Version

section Tables

variable (tables : VerdictTables) (extension : PivExtension) (fingerprint : AppletFingerprint)
  (reported : ReportedVersions)

def axes : AxisReading × AxisReading :=
  (⟨.applet, tables.appletVerdicts fingerprint extension, reported.read.applet⟩,
    ⟨.firmware, tables.firmwareVerdicts fingerprint extension, reported.read.firmware⟩)

def resolveAxes : FeatureGate :=
  let (applet, firmware) := axes tables extension fingerprint reported
  mergeGates (axisMergeMode fingerprint) (resolveIn applet.rows applet.version)
    (resolveIn firmware.rows firmware.version)

/-- How many other extensions are asked on the way to an extension's own verdicts. -/
def PivExtension.detours : PivExtension → Nat
  | .importKey _ => 1
  | .getSlotKeyStatus => 1
  | _ => 0

/-- Whether a device has a feature. -/
def resolve (extension : PivExtension) : FeatureGate :=
  match extension with
  | .importKey alg =>
      let generation := resolve (.slotKeyAlgorithm alg)
      if generation = .unsupported then .unsupported
      else if fingerprint = .yubiKey then generation
      else resolveAxes tables (.importKey alg) fingerprint reported
  | .getSlotKeyStatus =>
      if (tables.appletVerdicts fingerprint .getSlotKeyStatus).isNone then resolve .getMetadata
      else resolveAxes tables .getSlotKeyStatus fingerprint reported
  | extension => resolveAxes tables extension fingerprint reported
termination_by extension.detours
decreasing_by all_goals exact Nat.one_pos

/-! ### The floor -/

structure VersionFloor where
  axis : VersionAxis
  version : Version
deriving DecidableEq, Repr

/-- The first verdict above a version that supports. -/
def lifted (rows : Verdicts) (version : Version) : Option VersionVerdict :=
  firstAfter VersionVerdict.version version (·.verdict == .knownSupported) rows.rows

def axisFloorFrom : List AxisReading → Option VersionFloor → Option VersionFloor
  | [], floor => floor
  | reading :: rest, floor =>
      if resolveIn reading.rows reading.version ≠ .unsupported then axisFloorFrom rest floor
      else if floor.isSome then none
      else
        match reading.rows, reading.version with
        | some rows, some version =>
            match lifted rows version with
            | some row => axisFloorFrom rest (some ⟨reading.axis, row.version⟩)
            | none => none
        | _, _ => none

/-- The floor on the one axis whose own verdicts refuse. -/
def axisFloor : Option VersionFloor :=
  let (applet, firmware) := axes tables extension fingerprint reported
  axisFloorFrom [applet, firmware] none

/-- The later of two floors, when they are on one axis. -/
def laterFloor (generationFloor ownFloor : Option VersionFloor) : Option VersionFloor :=
  match generationFloor, ownFloor with
  | some a, some b =>
      if a.axis = b.axis then some (if b.version ≤ a.version then a else b) else none
  | a, b => a.or b

def floorOf (extension : PivExtension) : Option VersionFloor :=
  match extension with
  | .importKey alg =>
      let generationFloor :=
        if resolve tables fingerprint reported (.slotKeyAlgorithm alg) = .unsupported then
          (floorOf (.slotKeyAlgorithm alg)).map some
        else some none
      let ownFloor :=
        if resolveAxes tables (.importKey alg) fingerprint reported = .unsupported then
          (axisFloor tables (.importKey alg) fingerprint reported).map some
        else some none
      generationFloor.bind fun generationFloor =>
        if fingerprint = .yubiKey then generationFloor
        else ownFloor.bind (laterFloor generationFloor)
  | .getSlotKeyStatus =>
      if (tables.appletVerdicts fingerprint .getSlotKeyStatus).isNone then floorOf .getMetadata
      else axisFloor tables .getSlotKeyStatus fingerprint reported
  | extension => axisFloor tables extension fingerprint reported
termination_by extension.detours
decreasing_by all_goals exact Nat.one_pos

/-- The version that lifts a refusal, where one is on record. -/
def supportedFrom (extension : PivExtension) : Option VersionFloor :=
  if resolve tables fingerprint reported extension ≠ .unsupported then none
  else floorOf tables fingerprint reported extension

end Tables

/-! ### One axis at every version -/

section OneAxis

variable {rows : Verdicts} {version later : Version} {row : VersionVerdict}

theorem resolveIn_none_rows (version : Option Version) : resolveIn none version = .unverified := by
  cases version <;> rfl

theorem resolveIn_none_version (rows : Option Verdicts) : resolveIn rows none = .unverified := rfl

/-- Whatever is in force where a feature is refused does not support it. -/
theorem not_supported_of_refused {idx : Fin rows.rows.length}
    (hrefused : resolveIn (some rows) (some version) = .unsupported)
    (hforce : inForce VersionVerdict.version version rows.rows = some idx) :
    (rows.rows.get idx).verdict ≠ .knownSupported := by
  intro hget
  have hverdict : rows.rows[idx].verdict = .knownSupported := hget
  simp only [resolveIn, hforce, hverdict, reduceCtorEq] at hrefused

/-- Only a verdict that supports, in force at a version, opens the gate there. -/
theorem resolveIn_ne_supported
    (hclosed : ∀ idx, inForce VersionVerdict.version version rows.rows = some idx →
      (rows.rows.get idx).verdict ≠ .knownSupported) :
    resolveIn (some rows) (some version) ≠ .supported := by
  intro hopen
  rw [resolveIn] at hopen
  split at hopen
  · split at hopen <;> exact FeatureGate.noConfusion hopen
  · rename_i idx hforce
    have hverdict := hclosed idx hforce
    split at hopen
    · exact hverdict ‹_›
    · split_ifs at hopen
    · exact FeatureGate.noConfusion hopen

theorem lifted_spec (hlifted : lifted rows version = some row) :
    version < row.version ∧ row.verdict = .knownSupported ∧
      (∃ i : Fin rows.rows.length, rows.rows.get i = row) ∧
      ∀ j : Fin rows.rows.length, version < (rows.rows.get j).version →
        (rows.rows.get j).version < row.version → (rows.rows.get j).verdict ≠ .knownSupported := by
  obtain ⟨hlt, hq, hmem, hbetween⟩ := rows.ascending.firstAfter_eq_some hlifted
  exact ⟨hlt, eq_of_beq hq, hmem, fun j hj hj' => ne_of_beq_false (hbetween j hj hj')⟩

/-- Raised to the version that lifts the refusal, the axis supports. -/
theorem resolveIn_lifted (hlifted : lifted rows version = some row) :
    resolveIn (some rows) (some row.version) = .supported := by
  obtain ⟨-, hverdict, ⟨i, hrow⟩, -⟩ := lifted_spec hlifted
  have hget : rows.rows[i] = row := hrow
  subst hget
  simp only [resolveIn, rows.ascending.inForce_self i, hverdict]

/-- Short of that version, the axis refuses still. -/
theorem resolveIn_short_of_lifted
    (hrefused : resolveIn (some rows) (some version) = .unsupported)
    (hlifted : lifted rows version = some row) (hlater : version ≤ later)
    (hshort : later < row.version) : resolveIn (some rows) (some later) = .unsupported := by
  obtain ⟨-, -, ⟨i, hrow⟩, hbetween⟩ := lifted_spec hlifted
  have hget : rows.rows[i] = row := hrow
  subst hget
  cases hforce : inForce VersionVerdict.version later rows.rows with
  | none =>
      have hnow := inForce_none_of_le hlater hforce
      simpa only [resolveIn, hforce, hnow] using hrefused
  | some idx =>
      have hclosed : rows.rows[idx].verdict ≠ .knownSupported := by
        rcases inForce_later hlater hforce with hnow | habove
        · exact not_supported_of_refused hrefused hnow
        · exact hbetween idx habove ((inForce_eq_some hforce).1.trans_lt hshort)
      have hmore := rows.ascending.not_last hforce hshort
      cases hverdict : rows.rows[idx].verdict with
      | knownSupported => exact absurd hverdict hclosed
      | knownUnsupported => simp only [resolveIn, hforce, hverdict, if_neg hmore, ite_self]
      | knownUnsupportedSince => simp only [resolveIn, hforce, hverdict]

/-- Where nothing on record lifts the refusal, no later version is supported. -/
theorem resolveIn_never_lifted
    (hrefused : resolveIn (some rows) (some version) = .unsupported)
    (hlifted : lifted rows version = none) (hlater : version ≤ later) :
    resolveIn (some rows) (some later) ≠ .supported := by
  refine resolveIn_ne_supported fun idx hforce => ?_
  rcases inForce_later hlater hforce with hnow | habove
  · exact not_supported_of_refused hrefused hnow
  · exact ne_of_beq_false (firstAfter_eq_none hlifted idx habove)

end OneAxis

/-! ### The axis that refuses -/

section TwoAxes

variable {tables : VerdictTables} {extension : PivExtension} {fingerprint : AppletFingerprint}
  {reported : ReportedVersions} {axis : VersionAxis}

/-- One axis, as it is read. -/
def gate (tables : VerdictTables) (extension : PivExtension) (fingerprint : AppletFingerprint)
    (reported : ReportedVersions) (axis : VersionAxis) : FeatureGate :=
  resolveIn (tables.verdicts fingerprint extension axis) (reported.read.on axis)

/-- One axis refuses, and it is the only one. -/
def RefusesAlone (tables : VerdictTables) (extension : PivExtension)
    (fingerprint : AppletFingerprint) (reported : ReportedVersions) (axis : VersionAxis) : Prop :=
  ∀ a, gate tables extension fingerprint reported a = .unsupported ↔ a = axis

theorem resolveAxes_eq :
    resolveAxes tables extension fingerprint reported =
      combineRelaxed (gate tables extension fingerprint reported .applet)
        (gate tables extension fingerprint reported .firmware) := by
  rw [resolveAxes, axisMergeMode_eq]
  rfl

theorem RefusesAlone.gate_self (h : RefusesAlone tables extension fingerprint reported axis) :
    gate tables extension fingerprint reported axis = .unsupported := (h axis).mpr rfl

theorem RefusesAlone.gate_other (h : RefusesAlone tables extension fingerprint reported axis) :
    gate tables extension fingerprint reported axis.other ≠ .unsupported := by
  intro hother
  have hsame := (h axis.other).mp hother
  cases axis <;> exact VersionAxis.noConfusion hsame

/-- What the other axis says when the feature is refused for one axis. -/
theorem RefusesAlone.other_unverified
    (h : RefusesAlone tables extension fingerprint reported axis)
    (hrefused : resolveAxes tables extension fingerprint reported = .unsupported) :
    gate tables extension fingerprint reported axis.other = .unverified := by
  have hself := h.gate_self
  have hother := h.gate_other
  rw [resolveAxes_eq] at hrefused
  cases axis with
  | applet =>
      rw [hself] at hrefused
      cases hg : gate tables extension fingerprint reported .firmware with
      | supported => rw [hg] at hrefused; exact FeatureGate.noConfusion hrefused
      | unverified => exact hg
      | unsupported => exact absurd hg hother
  | firmware =>
      rw [hself] at hrefused
      cases hg : gate tables extension fingerprint reported .applet with
      | supported => rw [hg] at hrefused; exact FeatureGate.noConfusion hrefused
      | unverified => exact hg
      | unsupported => exact absurd hg hother

theorem gate_raise (version : Version) :
    gate tables extension fingerprint (reported.raise axis version) axis =
      resolveIn (tables.verdicts fingerprint extension axis) (some version) := by
  obtain ⟨applet, firmware⟩ := reported
  cases axis <;> cases applet <;> cases firmware <;> rfl

/-- Raising one axis leaves the other at the verdict it had, or at none. -/
theorem gate_raise_other (version : Version) :
    gate tables extension fingerprint (reported.raise axis version) axis.other =
        gate tables extension fingerprint reported axis.other ∨
      gate tables extension fingerprint (reported.raise axis version) axis.other = .unverified := by
  obtain ⟨applet, firmware⟩ := reported
  cases axis with
  | applet =>
      cases firmware with
      | none => exact Or.inr (resolveIn_none_version _)
      | some => cases applet <;> exact Or.inl rfl
  | firmware =>
      cases applet with
      | none => exact Or.inr (resolveIn_none_version _)
      | some => cases firmware <;> exact Or.inl rfl

/-- With the other axis silent, the axis decides. -/
theorem resolveAxes_raise (version : Version)
    (hother : gate tables extension fingerprint reported axis.other = .unverified) :
    resolveAxes tables extension fingerprint (reported.raise axis version) =
      resolveIn (tables.verdicts fingerprint extension axis) (some version) := by
  have hsilent : gate tables extension fingerprint (reported.raise axis version) axis.other =
      .unverified := by
    rcases gate_raise_other version with h | h
    · exact h.trans hother
    · exact h
  have hself : gate tables extension fingerprint (reported.raise axis version) axis =
      resolveIn (tables.verdicts fingerprint extension axis) (some version) := gate_raise version
  rw [resolveAxes_eq, ← hself]
  cases axis with
  | applet =>
      rw [show VersionAxis.other .applet = .firmware from rfl] at hsilent
      rw [hsilent]
      cases gate tables extension fingerprint (reported.raise .applet version) .applet <;> rfl
  | firmware =>
      rw [show VersionAxis.other .firmware = .applet from rfl] at hsilent
      rw [hsilent]
      cases gate tables extension fingerprint (reported.raise .firmware version) .firmware <;> rfl

/-- An axis refuses only with verdicts and a version to read them at. -/
theorem gate_refused
    (h : gate tables extension fingerprint reported axis = .unsupported) :
    ∃ rows, tables.verdicts fingerprint extension axis = some rows ∧
      reported.read.on axis = some (reported.version axis) ∧
      resolveIn (some rows) (some (reported.version axis)) = .unsupported := by
  cases hrows : tables.verdicts fingerprint extension axis with
  | none =>
      rw [gate, hrows, resolveIn_none_rows] at h
      exact FeatureGate.noConfusion h
  | some rows =>
      have hversion : reported.read.on axis = some (reported.version axis) := by
        cases hread : reported.read.on axis with
        | none =>
            rw [gate, hread, resolveIn_none_version] at h
            exact FeatureGate.noConfusion h
        | some version =>
            rw [ReportedVersions.version_of_read hread]
      refine ⟨rows, rfl, hversion, ?_⟩
      rwa [gate, hrows, hversion] at h

theorem axisFloor_of_applet (h : RefusesAlone tables extension fingerprint reported .applet)
    {rows : Verdicts} (hrows : tables.appletVerdicts fingerprint extension = some rows)
    (hversion : reported.read.applet = some (reported.version .applet)) :
    axisFloor tables extension fingerprint reported =
      (lifted rows (reported.version .applet)).map fun row => ⟨.applet, row.version⟩ := by
  have hself : resolveIn (tables.appletVerdicts fingerprint extension) reported.read.applet =
      .unsupported := h.gate_self
  have hother : resolveIn (tables.firmwareVerdicts fingerprint extension) reported.read.firmware ≠
      .unsupported := h.gate_other
  rw [hrows, hversion] at hself
  cases hlifted : lifted rows (reported.version .applet) <;>
    simp [axisFloor, axes, axisFloorFrom, hrows, hversion, hself, hother, hlifted]

theorem axisFloor_of_firmware (h : RefusesAlone tables extension fingerprint reported .firmware)
    {rows : Verdicts} (hrows : tables.firmwareVerdicts fingerprint extension = some rows)
    (hversion : reported.read.firmware = some (reported.version .firmware)) :
    axisFloor tables extension fingerprint reported =
      (lifted rows (reported.version .firmware)).map fun row => ⟨.firmware, row.version⟩ := by
  have hself : resolveIn (tables.firmwareVerdicts fingerprint extension) reported.read.firmware =
      .unsupported := h.gate_self
  have hother : resolveIn (tables.appletVerdicts fingerprint extension) reported.read.applet ≠
      .unsupported := h.gate_other
  rw [hrows, hversion] at hself
  cases hlifted : lifted rows (reported.version .firmware) <;>
    simp [axisFloor, axes, axisFloorFrom, hrows, hversion, hself, hother, hlifted]

/-- The floor of the axis that refuses alone. -/
theorem axisFloor_eq (h : RefusesAlone tables extension fingerprint reported axis)
    {rows : Verdicts} (hrows : tables.verdicts fingerprint extension axis = some rows) :
    axisFloor tables extension fingerprint reported =
      (lifted rows (reported.version axis)).map fun row => ⟨axis, row.version⟩ := by
  obtain ⟨-, -, hversion, -⟩ := gate_refused h.gate_self
  cases axis with
  | applet => exact axisFloor_of_applet h hrows hversion
  | firmware => exact axisFloor_of_firmware h hrows hversion

theorem axisFloor_of_both
    (happlet : gate tables extension fingerprint reported .applet = .unsupported)
    (hfirmware : gate tables extension fingerprint reported .firmware = .unsupported) :
    axisFloor tables extension fingerprint reported = none := by
  obtain ⟨rows, hrows, hversion, hrefused⟩ := gate_refused happlet
  have hrows' : tables.appletVerdicts fingerprint extension = some rows := hrows
  have hversion' : reported.read.applet = some (reported.version .applet) := hversion
  have hfirmware' : resolveIn (tables.firmwareVerdicts fingerprint extension)
      reported.read.firmware = .unsupported := hfirmware
  cases hlifted : lifted rows (reported.version .applet) <;>
    simp [axisFloor, axes, axisFloorFrom, hrows', hversion', hrefused, hfirmware', hlifted]

theorem axisFloor_of_neither
    (happlet : gate tables extension fingerprint reported .applet ≠ .unsupported)
    (hfirmware : gate tables extension fingerprint reported .firmware ≠ .unsupported) :
    axisFloor tables extension fingerprint reported = none := by
  have happlet' : resolveIn (tables.appletVerdicts fingerprint extension)
      reported.read.applet ≠ .unsupported := happlet
  have hfirmware' : resolveIn (tables.firmwareVerdicts fingerprint extension)
      reported.read.firmware ≠ .unsupported := hfirmware
  simp [axisFloor, axes, axisFloorFrom, happlet', hfirmware']

/-- A floor is named for the one axis that refuses. -/
theorem refusesAlone_of_axisFloor {floor : VersionFloor}
    (h : axisFloor tables extension fingerprint reported = some floor) :
    RefusesAlone tables extension fingerprint reported floor.axis := by
  have hnamed : ∀ {a : VersionAxis}, RefusesAlone tables extension fingerprint reported a →
      RefusesAlone tables extension fingerprint reported floor.axis := by
    intro a halone
    obtain ⟨rows, hrows, -, -⟩ := gate_refused halone.gate_self
    rw [axisFloor_eq halone hrows, Option.map_eq_some_iff] at h
    obtain ⟨row, -, rfl⟩ := h
    exact halone
  by_cases happlet : gate tables extension fingerprint reported .applet = .unsupported
  · by_cases hfirmware : gate tables extension fingerprint reported .firmware = .unsupported
    · rw [axisFloor_of_both happlet hfirmware] at h
      exact absurd h (Option.some_ne_none floor).symm
    · refine hnamed (a := .applet) fun a => ?_
      cases a <;> simp [happlet, hfirmware]
  · by_cases hfirmware : gate tables extension fingerprint reported .firmware = .unsupported
    · refine hnamed (a := .firmware) fun a => ?_
      cases a <;> simp [happlet, hfirmware]
    · rw [axisFloor_of_neither happlet hfirmware] at h
      exact absurd h (Option.some_ne_none floor).symm

end TwoAxes

/-! ### The floor is true -/

section Floor

variable (tables : VerdictTables) (fingerprint : AppletFingerprint) (reported : ReportedVersions)
  (extension : PivExtension)

/-- The extension whose own verdicts decide. -/
def readAs : PivExtension :=
  if extension = .getSlotKeyStatus ∧
      (tables.appletVerdicts fingerprint .getSlotKeyStatus).isNone then .getMetadata
  else extension

/-- The named version lifts the refusal, and none short of it does. -/
def FloorIsTrue : Prop :=
  ∀ floor, supportedFrom tables fingerprint reported extension = some floor →
    resolve tables fingerprint (reported.raise floor.axis floor.version) extension = .supported ∧
      ∀ version, reported.version floor.axis ≤ version → version < floor.version →
        resolve tables fingerprint (reported.raise floor.axis version) extension = .unsupported

/-- Where one axis refuses and no version is named, no higher one lifts the refusal. -/
def SilenceIsTrue : Prop :=
  ∀ axis, resolve tables fingerprint reported extension = .unsupported →
    RefusesAlone tables (readAs tables fingerprint extension) fingerprint reported axis →
    supportedFrom tables fingerprint reported extension = none →
    ∀ version, reported.version axis < version →
      resolve tables fingerprint (reported.raise axis version) extension ≠ .supported

/-- The version from which generating a key type is marked supported on an axis. -/
def generationFrom (alg : KeyAlg) (axis : VersionAxis) : Option Version :=
  (tables.verdicts fingerprint (.slotKeyAlgorithm alg) axis).bind fun verdicts =>
    (verdicts.rows.find? (·.verdict == .knownSupported)).map VersionVerdict.version

/-- An import that waits for generating to be supported never names an earlier version. -/
def ImportWaits (alg : KeyAlg) : Prop :=
  ∀ floor, supportedFrom tables fingerprint reported (.importKey alg) = some floor →
    (resolve tables fingerprint reported (.slotKeyAlgorithm alg) = .unsupported →
      ∃ generation,
        supportedFrom tables fingerprint reported (.slotKeyAlgorithm alg) = some generation ∧
          generation.axis = floor.axis ∧ generation.version ≤ floor.version) ∧
    ∀ version, generationFrom tables fingerprint alg floor.axis = some version →
      resolve tables fingerprint reported (.slotKeyAlgorithm alg) = .unsupported ∨
        version ≤ reported.version floor.axis →
      version ≤ floor.version

variable {tables fingerprint reported extension}

theorem resolve_eq (hextension : ∀ alg, extension ≠ .importKey alg) :
    resolve tables fingerprint reported extension =
      resolveAxes tables (readAs tables fingerprint extension) fingerprint reported := by
  cases extension with
  | importKey alg => exact absurd rfl (hextension alg)
  | getSlotKeyStatus =>
      by_cases h : (tables.appletVerdicts fingerprint .getSlotKeyStatus).isNone <;>
        simp [resolve, readAs, h]
  | _ => simp [resolve, readAs]

theorem floorOf_eq (hextension : ∀ alg, extension ≠ .importKey alg) :
    floorOf tables fingerprint reported extension =
      axisFloor tables (readAs tables fingerprint extension) fingerprint reported := by
  cases extension with
  | importKey alg => exact absurd rfl (hextension alg)
  | getSlotKeyStatus =>
      by_cases h : (tables.appletVerdicts fingerprint .getSlotKeyStatus).isNone <;>
        simp [floorOf, readAs, h]
  | _ => simp [floorOf, readAs]

theorem supportedFrom_eq_some {floor : VersionFloor} :
    supportedFrom tables fingerprint reported extension = some floor ↔
      resolve tables fingerprint reported extension = .unsupported ∧
        floorOf tables fingerprint reported extension = some floor := by
  rw [supportedFrom]
  split_ifs with hrefused
  · simp only [hrefused, false_and]
  · rw [not_not] at hrefused
    rw [and_iff_right hrefused]

/-- A floor is the first verdict above the reported version that supports. -/
theorem axisFloor_eq_some {floor : VersionFloor}
    (h : axisFloor tables extension fingerprint reported = some floor) :
    ∃ rows row, tables.verdicts fingerprint extension floor.axis = some rows ∧
      resolveIn (some rows) (some (reported.version floor.axis)) = .unsupported ∧
      lifted rows (reported.version floor.axis) = some row ∧ row.version = floor.version := by
  have halone := refusesAlone_of_axisFloor h
  obtain ⟨rows, hrows, -, hrefused⟩ := gate_refused halone.gate_self
  rw [axisFloor_eq halone hrows, Option.map_eq_some_iff] at h
  obtain ⟨row, hlifted, hfloor⟩ := h
  exact ⟨rows, row, hrows, hrefused, hlifted, congrArg VersionFloor.version hfloor⟩

theorem floorIsTrue (hextension : ∀ alg, extension ≠ .importKey alg) :
    FloorIsTrue tables fingerprint reported extension := by
  intro floor hfloor
  obtain ⟨hrefused, hfloor⟩ := supportedFrom_eq_some.mp hfloor
  rw [resolve_eq hextension] at hrefused
  rw [floorOf_eq hextension] at hfloor
  have hother := (refusesAlone_of_axisFloor hfloor).other_unverified hrefused
  obtain ⟨rows, row, hrows, hgate, hlifted, hversion⟩ := axisFloor_eq_some hfloor
  refine ⟨?_, fun version hfrom hshort => ?_⟩
  · rw [resolve_eq hextension, resolveAxes_raise _ hother, hrows, ← hversion]
    exact resolveIn_lifted hlifted
  · rw [resolve_eq hextension, resolveAxes_raise _ hother, hrows]
    exact resolveIn_short_of_lifted hgate hlifted hfrom (hversion ▸ hshort)

theorem silenceIsTrue (hextension : ∀ alg, extension ≠ .importKey alg) :
    SilenceIsTrue tables fingerprint reported extension := by
  intro axis hrefused halone hsilent version hhigher
  rw [supportedFrom, if_neg (not_not.mpr hrefused), floorOf_eq hextension] at hsilent
  rw [resolve_eq hextension] at hrefused
  obtain ⟨rows, hrows, -, hgate⟩ := gate_refused halone.gate_self
  rw [axisFloor_eq halone hrows, Option.map_eq_none_iff] at hsilent
  rw [resolve_eq hextension, resolveAxes_raise _ (halone.other_unverified hrefused), hrows]
  exact resolveIn_never_lifted hgate hsilent hhigher.le

theorem laterFloor_eq_some {generation floor : VersionFloor} {own : Option VersionFloor}
    (h : laterFloor (some generation) own = some floor) :
    generation.axis = floor.axis ∧ generation.version ≤ floor.version := by
  cases own with
  | none =>
      obtain rfl : generation = floor := Option.some.inj h
      exact ⟨rfl, le_rfl⟩
  | some own =>
      rw [laterFloor] at h
      split_ifs at h with haxis hlater
      · obtain rfl : generation = floor := Option.some.inj h
        exact ⟨rfl, le_rfl⟩
      · obtain rfl : own = floor := Option.some.inj h
        exact ⟨haxis, (not_le.mp hlater).le⟩

/-- An import refused because generating is has a floor no lower than generating has. -/
theorem floorOf_importKey {alg : KeyAlg} {floor : VersionFloor}
    (h : floorOf tables fingerprint reported (.importKey alg) = some floor)
    (hrefused : resolve tables fingerprint reported (.slotKeyAlgorithm alg) = .unsupported) :
    ∃ generation, floorOf tables fingerprint reported (.slotKeyAlgorithm alg) = some generation ∧
      generation.axis = floor.axis ∧ generation.version ≤ floor.version := by
  rw [floorOf] at h
  simp only [if_pos hrefused] at h
  obtain ⟨generationFloor, hgeneration, h⟩ := Option.bind_eq_some_iff.mp h
  obtain ⟨generation, hfloor, rfl⟩ := Option.map_eq_some_iff.mp hgeneration
  refine ⟨generation, hfloor, ?_⟩
  by_cases hyubiKey : fingerprint = .yubiKey
  · rw [if_pos hyubiKey] at h
    obtain rfl : generation = floor := Option.some.inj h
    exact ⟨rfl, le_rfl⟩
  · rw [if_neg hyubiKey] at h
    obtain ⟨own, -, hlater⟩ := Option.bind_eq_some_iff.mp h
    exact laterFloor_eq_some hlater

/-- An import refused though generating is not has the floor of its own verdicts. -/
theorem floorOf_importKey_own {alg : KeyAlg} {floor : VersionFloor}
    (h : floorOf tables fingerprint reported (.importKey alg) = some floor)
    (hrefused : resolve tables fingerprint reported (.slotKeyAlgorithm alg) ≠ .unsupported) :
    axisFloor tables (.importKey alg) fingerprint reported = some floor := by
  rw [floorOf] at h
  simp only [if_neg hrefused] at h
  obtain ⟨generationFloor, hgeneration, h⟩ := Option.bind_eq_some_iff.mp h
  obtain rfl : none = generationFloor := Option.some.inj hgeneration
  split_ifs at h with hyubiKey hown
  · obtain ⟨ownFloor, hfloor, hlater⟩ := Option.bind_eq_some_iff.mp h
    obtain ⟨own, haxis, rfl⟩ := Option.map_eq_some_iff.mp hfloor
    obtain rfl : own = floor := Option.some.inj hlater
    exact haxis
  · exact absurd h (Option.some_ne_none floor).symm

theorem axisFloor_above {floor : VersionFloor}
    (h : axisFloor tables extension fingerprint reported = some floor) :
    reported.version floor.axis < floor.version := by
  obtain ⟨rows, row, -, -, hlifted, hversion⟩ := axisFloor_eq_some h
  exact hversion ▸ (lifted_spec hlifted).1

/-- A named version is above the reported one. -/
theorem floorOf_above {floor : VersionFloor}
    (h : floorOf tables fingerprint reported extension = some floor) :
    reported.version floor.axis < floor.version := by
  by_cases hextension : ∀ alg, extension ≠ .importKey alg
  · rw [floorOf_eq hextension] at h
    exact axisFloor_above h
  · obtain ⟨alg, rfl⟩ : ∃ alg, extension = .importKey alg := by simpa using hextension
    by_cases hrefused : resolve tables fingerprint reported (.slotKeyAlgorithm alg) = .unsupported
    · obtain ⟨generation, hgeneration, haxis, hle⟩ := floorOf_importKey h hrefused
      rw [floorOf_eq fun _ => PivExtension.noConfusion] at hgeneration
      exact (haxis ▸ axisFloor_above hgeneration).trans_le hle
    · exact axisFloor_above (floorOf_importKey_own h hrefused)

/-- Generating is marked supported no later than from its own floor. -/
theorem generationFrom_le {alg : KeyAlg} {generation : VersionFloor} {version : Version}
    (h : axisFloor tables (.slotKeyAlgorithm alg) fingerprint reported = some generation)
    (hfrom : generationFrom tables fingerprint alg generation.axis = some version) :
    version ≤ generation.version := by
  obtain ⟨rows, row, hrows, -, hlifted, hversion⟩ := axisFloor_eq_some h
  obtain ⟨-, hverdict, ⟨i, rfl⟩, -⟩ := lifted_spec hlifted
  rw [generationFrom, hrows, Option.bind_some, Option.map_eq_some_iff] at hfrom
  obtain ⟨first, hfirst, rfl⟩ := hfrom
  rw [← hversion]
  exact rows.ascending.find_le hfirst i (beq_iff_eq.mpr hverdict)

theorem importWaits (alg : KeyAlg) : ImportWaits tables fingerprint reported alg := by
  intro floor hfloor
  obtain ⟨-, hfloor⟩ := supportedFrom_eq_some.mp hfloor
  refine ⟨fun hrefused => ?_, fun version hfrom hwhen => ?_⟩
  · obtain ⟨generation, hgeneration, hle⟩ := floorOf_importKey hfloor hrefused
    exact ⟨generation, supportedFrom_eq_some.mpr ⟨hrefused, hgeneration⟩, hle⟩
  · rcases hwhen with hrefused | hreported
    · obtain ⟨generation, hgeneration, haxis, hle⟩ := floorOf_importKey hfloor hrefused
      rw [floorOf_eq fun _ => PivExtension.noConfusion] at hgeneration
      exact (generationFrom_le hgeneration (haxis ▸ hfrom)).trans hle
    · exact hreported.trans (floorOf_above hfloor).le

end Floor

/-- **The version floor is true**: a named version lifts the refusal and none short of it does,
where none is named no higher one lifts it, and an import waits for generating. The tables of
verdicts, the applet and the versions it reports are any. -/
theorem version_floor (tables : VerdictTables) (fingerprint : AppletFingerprint)
    (reported : ReportedVersions) :
    (∀ extension, (∀ alg, extension ≠ .importKey alg) →
      FloorIsTrue tables fingerprint reported extension ∧
        SilenceIsTrue tables fingerprint reported extension) ∧
      ∀ alg, ImportWaits tables fingerprint reported alg :=
  ⟨fun _ hextension => ⟨floorIsTrue hextension, silenceIsTrue hextension⟩, importWaits⟩

/-- A device without verdicts, except that importing one key type is. -/
def importedBefore : VerdictTables where
  appletVerdicts _ extension :=
    match extension with
    | .slotKeyAlgorithm .rsa2048 => some ⟨[⟨[10], .knownSupported⟩], by decide⟩
    | .importKey .rsa2048 =>
        some ⟨[⟨[5], .knownUnsupported⟩, ⟨[7], .knownSupported⟩], by decide⟩
    | _ => none
  firmwareVerdicts _ _ := none

/-- Without the refusal the import does not wait: generating is marked supported from version 10
on and merely unverified at 5, and the version named for an import at 5 is 7. -/
theorem import_floor_below_generation :
    ¬ ∀ (tables : VerdictTables) (fingerprint : AppletFingerprint) (reported : ReportedVersions)
        (alg : KeyAlg) (floor : VersionFloor) (version : Version),
      supportedFrom tables fingerprint reported (.importKey alg) = some floor →
        generationFrom tables fingerprint alg floor.axis = some version →
          version ≤ floor.version := by
  intro h
  have hle := h importedBefore .generic ⟨some [5], none⟩ .rsa2048 ⟨.applet, [7]⟩ [10]
    (by
      have hown : resolveAxes importedBefore (.importKey .rsa2048) .generic ⟨some [5], none⟩ =
          .unsupported := by decide +kernel
      have hgeneration : resolveAxes importedBefore (.slotKeyAlgorithm .rsa2048) .generic
          ⟨some [5], none⟩ = .unverified := by decide
      have hfloor : axisFloor importedBefore (.importKey .rsa2048) .generic ⟨some [5], none⟩ =
          some ⟨.applet, [7]⟩ := by decide
      simp [supportedFrom, resolve, floorOf, hown, hgeneration, hfloor, laterFloor])
    (by decide)
  exact absurd hle (by decide)

end Keyroost.Piv
