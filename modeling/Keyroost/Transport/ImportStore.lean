import Keyroost.Oath.Command
import Keyroost.Import.OathNames
import Keyroost.Import.PlanRows
import Keyroost.Import.Run

/-!
# Writing an import to an OATH applet

`putParams` of `keyroost-transport/src/import.rs` turns a planned row into the parameters of one
PUT. The planner checked the size of the PUT with `oathPutFits`, which counts everything but the two
bytes of the touch property.

`putBuilds_iff` says from the lengths of the parts when the builder of `Command` succeeds, and a row
that an OATH plan writes has these lengths from its plan. So `planned_put_builds_iff` is a condition
on the row alone; the two samples are a row that is written and one that is planned and cannot be.
-/

namespace Keyroost.Transport

open Keyroost.Import Keyroost.Oath

def counterTooLarge : StoreError := .failed "the counter doesn't fit this key's 32 bits".toList

/-- `u32::try_from` on a counter. -/
def counterU32 (counter : UInt64) : Option UInt32 :=
  if counter ≤ 0xFFFFFFFF then some counter.toUInt32 else none

/-- The PUT for one entry, requiring a touch when `touch`. -/
def putParams (name : RustStr) (entry : ImportEntry) (touch : Bool) :
    Except StoreError PutParams :=
  let algorithm := match entry.hash with
    | .sha1 => Algorithm.sha1
    | .sha256 => Algorithm.sha256
    | .sha512 => Algorithm.sha512
  let params oathType imf : PutParams :=
    { name, secret := entry.secret.val, oathType, algorithm, digits := entry.digits,
      requireTouch := touch, imf }
  match entry.kind with
  | .totp _ => .ok (params .totp 0)
  | .hotp counter =>
      match counterU32 counter with
      | some imf => .ok (params .hotp imf)
      | none => .error counterTooLarge

/-- The PUT of one entry is built. -/
def PutBuilds (name : RustStr) (entry : ImportEntry) (touch : Bool) : Prop :=
  ∃ params apdu, putParams name entry touch = .ok params ∧ put params = .ok apdu

/-! ### The two ways to count -/

theorem toUInt32_eq_zero {counter : UInt64} (hcounter : counter ≤ 0xFFFFFFFF) :
    counter.toUInt32 = 0 ↔ counter = 0 := by
  simp only [← UInt32.toNat_inj, ← UInt64.toNat_inj, UInt64.le_iff_toNat_le,
    UInt64.toNat_toUInt32] at hcounter ⊢
  simp at hcounter ⊢
  omega

/-- What a PUT needs: the planner's count, and two bytes more for a touch. -/
theorem putBuilds_iff {name : RustStr} {entry : ImportEntry} {touch : Bool}
    (hcounter : ∀ counter, entry.kind = .hotp counter → counter ≤ 0xFFFFFFFF) :
    PutBuilds name entry touch ↔
      oathPutFits (name.len + if touch then 2 else 0) entry.secret.val.length
        (sendsImf entry.kind) = true := by
  unfold PutBuilds putParams
  cases hkind : entry.kind with
  | totp period =>
      simp only [Except.ok.injEq, exists_and_left, exists_eq_left', put_isOk, bodyLength,
        oathPutFits, sendsImf]
      simp only [ne_eq, not_true_eq_false, if_false, Bool.false_eq_true, decide_eq_true_eq,
        Oath.MIN_HMAC_KEY_LEN, Import.MIN_HMAC_KEY_LEN]
      omega
  | hotp counter =>
      have hfits := hcounter counter hkind
      simp only [counterU32, if_pos hfits, Except.ok.injEq, exists_and_left, exists_eq_left',
        put_isOk, bodyLength, oathPutFits, sendsImf]
      by_cases hzero : counter = 0
      · simp only [hzero]
        simp [Oath.MIN_HMAC_KEY_LEN, Import.MIN_HMAC_KEY_LEN]
        omega
      · have himf : counter.toUInt32 ≠ 0 := fun h => hzero ((toUInt32_eq_zero hfits).mp h)
        simp [hzero, himf, Oath.MIN_HMAC_KEY_LEN, Import.MIN_HMAC_KEY_LEN]
        omega

/-! ### The PUT of a planned row -/

/-- What an OATH family makes of an entry it takes. -/
theorem oath_of_namedAs {family : OathFamily} {item : ImportItem} {n : StoredName}
    (hname : namedAs (.oath family) item = some n) :
    ∃ e name, item.entry = .ok e ∧ n = .oath name ∧
      oathPutFits name.len e.secret.val.length (sendsImf e.kind) = true ∧
      ∀ counter, e.kind = .hotp counter → counter ≤ 0xFFFFFFFF := by
  obtain ⟨e, hentry, hparams, hfor⟩ := namedAs_eq_some.mp hname
  obtain ⟨name, -, -, hfits, rfl⟩ := nameFor_oath_eq_ok.mp hfor
  refine ⟨e, name, hentry, rfl, hfits, ?_⟩
  intro counter hkind
  have hfit := (checkParams_eq_ok.mp hparams).kind
  have hrule : (limits (.oath family)).hotp = .counterU32 := by cases family <;> rfl
  simpa [KindFits, hkind, hrule] using hfit

/-- **When a planned PUT is built**: for every row an OATH plan writes, the PUT of its
parameters is built exactly when the row asks for no touch or its name, key and
counter leave two more bytes. -/
theorem planned_put_builds_iff (file : ImportFile) (target : Target) (family : OathFamily)
    (wants : PlanRow → Bool) :
    ∀ pair ∈ plannedItems file
        ((plan file { target with store := .oath family }).setTouch wants),
      ∃ e name, pair.1.entry = .ok e ∧ pair.2.name = some (.oath name) ∧
        (PutBuilds name e pair.2.touch ↔
          (pair.2.touch = true →
            oathPutFits (name.len + 2) e.secret.val.length (sendsImf e.kind) = true)) := by
  intro pair hpair
  obtain ⟨n, hn, hname⟩ := namedAs_planned (by simp) hpair
  obtain ⟨e, name, hentry, rfl, hfits, hcounter⟩ := oath_of_namedAs hname
  refine ⟨e, name, hentry, hn, ?_⟩
  rw [putBuilds_iff hcounter]
  cases pair.2.touch with
  | false => simpa using hfits
  | true => simp

/-- A seed of one byte over and over. -/
def repeatedSeed (b : UInt8) (n : Nat) (hn : 0 < n ∧ n ≤ MAX_SECRET_BYTES) : Secret :=
  ⟨List.replicate n b, by
    refine ⟨?_, by rw [List.length_replicate]; exact hn.2⟩
    intro h
    have hlen := congrArg List.length h
    rw [List.length_replicate, List.length_nil] at hlen
    omega⟩

/-- One account with a name of 64 bytes and a seed of 185. -/
def longAccount : ImportFile where
  format := .otpauthList
  items := [{
    index := 0
    label := ['a']
    entry := .ok (usualEntry none (some (List.replicate 64 'a'))
      (repeatedSeed 1 185 (by decide))) }]
  batch := none

def emptyYubiKey : Target where
  store := .oath (.yubiKey (some (5, 7, 0)))
  firstSlot := 0
  existing := { names := [], hidden := 0 }
  replace := false

/-- The PUT of a planned row, as the result of building it. -/
def builtPut (pair : ImportItem × PlanRow) : Option (Except BuildError (List UInt8)) :=
  match pair.1.entry, pair.2.name with
  | .ok e, some (.oath name) =>
      match putParams name e pair.2.touch with
      | .ok params => some (put params)
      | .error _ => none
  | _, _ => none

/-- Without a touch its PUT is built. -/
theorem longAccount_put_built :
    ∃ pair ∈ plannedItems longAccount
        ((plan longAccount
          { emptyYubiKey with store := .oath (.yubiKey (some (5, 7, 0))) }).setTouch
          fun _ => false),
      ∃ e name, pair.1.entry = .ok e ∧ pair.2.name = some (.oath name) ∧
        PutBuilds name e pair.2.touch := by
  have hone : 0 < (plannedItems longAccount
      ((plan longAccount { emptyYubiKey with store := .oath (.yubiKey (some (5, 7, 0))) }).setTouch
        fun _ => false)).length := by decide +kernel
  have htouch : (plannedItems longAccount
      ((plan longAccount { emptyYubiKey with store := .oath (.yubiKey (some (5, 7, 0))) }).setTouch
        fun _ => false)).all (fun pair => !pair.2.touch) = true := by decide +kernel
  obtain ⟨e, name, hentry, hname, hbuilds⟩ := planned_put_builds_iff longAccount emptyYubiKey
    (.yubiKey (some (5, 7, 0))) (fun _ => false) _ (List.getElem_mem hone)
  refine ⟨_, List.getElem_mem hone, e, name, hentry, hname, hbuilds.mpr fun h => ?_⟩
  have hno := List.all_eq_true.mp htouch _ (List.getElem_mem hone)
  rw [h] at hno
  exact absurd hno Bool.false_ne_true

/-- With a touch this account is planned as an add, and its PUT is two bytes too
long. -/
theorem longAccount_put_too_long :
    (plannedItems longAccount ((plan longAccount emptyYubiKey).setTouch fun _ => true)).map
        (fun pair => (pair.2.verdict, builtPut pair)) =
      [(.add, some (.error (.bodyTooLong 257)))] := by
  decide +kernel

end Keyroost.Transport
