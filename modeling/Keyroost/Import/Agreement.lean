import Keyroost.Import.MigrationAgreement

/-!
# The narrow and the wide readers agree

The crate reads every export twice over: a narrow reader for a Molto2
(`keyroost-import/src/migration.rs`, `keyroost-import/src/otpauth.rs`), which keeps what one of
its slots can hold, and a wide reader for all other keys (`keyroost-import/src/bulk.rs`), which
keeps everything and leaves the choice to the planner. Nothing in the source ties the two together.

* On exports the two field loops go through the same bytes side by side: `sim_parsePayload` of
  `MigrationAgreement` is a simulation with one step for each protobuf field.
* On `otpauth://` URIs what the narrow reader has collected determines what the wide reader has,
  so one run through the query parameters serves both.

`readers_agree` states both: what the narrow reader keeps is what the wide reader makes and the
Molto2 check lets through, field by field and in order.
-/

namespace Keyroost.Import

open Keyroost.Proto

namespace Otpauth

/-! ### One URI in both models -/

/-- What both readers have collected from the same parameters, all of which the
narrow reader could take. -/
structure SameParams (p : NarrowParams) (q : WideParams) : Prop where
  secretB32 : p.secretB32 = q.secretB32
  issuerParam : p.issuerParam = q.issuerParam
  algorithm : hmacAlgo (q.algorithm.getD "SHA1".toList).toAsciiUppercase = some p.algorithm
  digits : otpDigits q.digits = some p.digits
  period : p.period = q.period
  malformed : q.malformed = none

/-- The wide reader's turn on a parameter it can read. -/
theorem sameParams_step {p p' : NarrowParams} {q : WideParams} (h : SameParams p q)
    {kv : RustStr × Option RustStr} (hstep : narrowStep p kv = .ok p') :
    SameParams p' (wideStep q kv) := by
  obtain ⟨k, v⟩ := kv
  cases v with
  | none => cases hstep
  | some v =>
      simp only [narrowStep] at hstep
      simp only [wideStep]
      split at hstep
      · rename_i hk
        obtain rfl := Except.ok.inj hstep
        rw [if_pos hk]
        exact ⟨rfl, h.issuerParam, h.algorithm, h.digits, h.period, h.malformed⟩
      rename_i hk
      rw [if_neg hk]
      clear hk
      split at hstep
      · rename_i hk
        obtain rfl := Except.ok.inj hstep
        rw [if_pos hk]
        exact ⟨h.secretB32, rfl, h.algorithm, h.digits, h.period, h.malformed⟩
      rename_i hk
      rw [if_neg hk]
      clear hk
      split at hstep
      · rename_i hk
        rw [if_pos hk]
        cases halgorithm : hmacAlgo v.toAsciiUppercase with
        | none =>
            rw [halgorithm] at hstep
            cases hstep
        | some algorithm =>
            rw [halgorithm] at hstep
            obtain rfl := Except.ok.inj hstep
            exact ⟨h.secretB32, h.issuerParam, halgorithm, h.digits, h.period, h.malformed⟩
      rename_i hk
      rw [if_neg hk]
      clear hk
      split at hstep
      · rename_i hk
        rw [if_pos hk]
        cases hn : RustStr.parseU32 v with
        | none =>
            rw [hn] at hstep
            cases hstep
        | some n =>
            simp only [hn] at hstep
            cases hdigits : otpDigits n with
            | none =>
                rw [hdigits] at hstep
                cases hstep
            | some digits =>
                rw [hdigits] at hstep
                obtain rfl := Except.ok.inj hstep
                exact ⟨h.secretB32, h.issuerParam, h.algorithm, hdigits, h.period, h.malformed⟩
      rename_i hk
      rw [if_neg hk]
      clear hk
      split at hstep
      · rename_i hk
        rw [if_pos hk]
        cases hn : RustStr.parseU32 v with
        | none =>
            rw [hn] at hstep
            cases hstep
        | some period =>
            rw [hn] at hstep
            obtain rfl := Except.ok.inj hstep
            exact ⟨h.secretB32, h.issuerParam, h.algorithm, h.digits, rfl, h.malformed⟩
      rename_i hk
      rw [if_neg hk]
      obtain rfl := Except.ok.inj hstep
      split
      · cases RustStr.parseU64 v with
        | none => exact ⟨h.secretB32, h.issuerParam, h.algorithm, h.digits, h.period, h.malformed⟩
        | some _ => exact ⟨h.secretB32, h.issuerParam, h.algorithm, h.digits, h.period, h.malformed⟩
      · exact h

theorem sameParams_foldl {pairs : List (RustStr × Option RustStr)} {p p' : NarrowParams}
    {q : WideParams} (h : SameParams p q) (hloop : pairs.foldlM narrowStep p = .ok p') :
    SameParams p' (pairs.foldl wideStep q) := by
  induction pairs generalizing p q with
  | nil => exact Except.ok.inj hloop ▸ h
  | cons kv pairs ih =>
      obtain ⟨p₁, hstep, hloop⟩ := Checks.bind_eq_ok.mp hloop
      exact ih (sameParams_step h hstep) hloop

theorem hashFromName_of_hmacAlgo {name : RustStr} {algorithm : HmacAlgo}
    (h : hmacAlgo name.toAsciiUppercase = some algorithm) :
    hashFromName name = .ok (hashOf algorithm) := by
  unfold hmacAlgo at h
  simp only [hashFromName]
  split at h
  · rename_i hname
    obtain rfl := Option.some.inj h
    rw [if_pos hname, hashOf]
  · split at h
    · rename_i hnot hname
      obtain rfl := Option.some.inj h
      rw [if_neg hnot, if_pos hname, hashOf]
    · cases h

theorem digits_of_otpDigits {n : UInt32} {digits : OtpDigits} (h : otpDigits n = some digits) :
    (1 ≤ n ∧ n ≤ 10) ∧ n.toUInt8 = digits.asByte := by
  unfold otpDigits at h
  split at h
  · rename_i hn
    obtain rfl := Option.some.inj h
    subst hn
    decide
  split at h
  · rename_i hn
    obtain rfl := Option.some.inj h
    subst hn
    decide
  split at h
  · rename_i hn
    obtain rfl := Option.some.inj h
    subst hn
    decide
  split at h
  · rename_i hn
    obtain rfl := Option.some.inj h
    subst hn
    decide
  · cases h

theorem seconds_timeStepOf {period : UInt32} {timeStep : TimeStep}
    (h : timeStepOf period = some timeStep) : timeStep.seconds = period ∧ period ≠ 0 := by
  unfold timeStepOf at h
  split at h
  · rename_i hperiod
    obtain rfl := Option.some.inj h
    subst hperiod
    decide
  split at h
  · rename_i hperiod
    obtain rfl := Option.some.inj h
    subst hperiod
    decide
  · cases h

/-- The wide reader's last checks on a time-based entry: nothing is left but the
digits and the period. -/
theorem wideFinish_totp {typ : RustStr} {issuer account : Option RustStr} {q : WideParams}
    {secret : Secret} {hash : HashAlg} (htyp : typ.eqIgnoreAsciiCase "totp".toList = true)
    (hmalformed : q.malformed = none) (hsecret : decodeSecret (q.secretB32.getD []) = .ok secret)
    (hhash : hashFromName (q.algorithm.getD "SHA1".toList) = .ok hash) :
    wideFinish typ issuer account q =
      finish issuer account secret hash q.digits (.totp q.period) := by
  have hcounter : ¬(q.counterMalformed = true ∧ TypeName.totp = .hotp) := fun h => by cases h.2
  have htyp' : typeFromName typ = .ok .totp := by rw [typeFromName, if_pos htyp]
  simp only [wideFinish, htyp', hmalformed, hsecret, hhash, bind, Except.bind, hcounter, if_false]

/-- After the same parameters, what the narrow reader's last checks accept, the
wide reader's accept too. -/
theorem wideFinish_of_narrow {typ label : RustStr} {p : NarrowParams} {q : WideParams}
    {auth : OtpAuth} (htyp : typ.eqIgnoreAsciiCase "totp".toList = true) (h : SameParams p q)
    (hnarrow : narrowFinish label p = .ok auth) :
    ∃ e, wideFinish typ (nonEmpty (q.issuerParam.or (splitLabel label).1))
        (nonEmpty (splitLabel label).2) q = .ok e ∧
      SameFields (BulkEntry.fromOtpAuth auth) e := by
  unfold narrowFinish at hnarrow
  cases hstep : timeStepOf p.period with
  | none =>
      rw [hstep] at hnarrow
      cases hnarrow
  | some timeStep =>
      cases hb32 : p.secretB32 with
      | none =>
          simp only [hstep, hb32] at hnarrow
          cases hnarrow
      | some secretB32 =>
          cases hdecoded : Codec.base32Decode secretB32 with
          | error why =>
              simp only [hstep, hb32, hdecoded] at hnarrow
              cases hnarrow
          | ok secret =>
              simp only [hstep, hb32, hdecoded] at hnarrow
              split at hnarrow
              · cases hnarrow
              rename_i hsecret
              obtain rfl := Except.ok.inj hnarrow
              have hseed : secret ≠ [] ∧ secret.length ≤ MAX_SECRET_BYTES :=
                ⟨fun hnil => hsecret (.inl hnil), by
                  have hshort := Nat.not_lt.mp fun hlong => hsecret (.inr hlong)
                  simp only [MAX_SECRET_BYTES]
                  omega⟩
              obtain ⟨hrange, hdigits⟩ := digits_of_otpDigits h.digits
              obtain ⟨hseconds, hperiod⟩ := seconds_timeStepOf hstep
              obtain ⟨e, he⟩ := @exists_finish
                (nonEmpty (q.issuerParam.or (splitLabel label).1))
                (nonEmpty (splitLabel label).2) ⟨secret, hseed⟩ (hashOf p.algorithm) _ _ hrange
                (show OtpKind.totp q.period ≠ .totp 0 from fun hzero =>
                  hperiod (h.period.trans (OtpKind.totp.inj hzero)))
              obtain ⟨hissuer, haccount, hsecretEq, hhash, hdigitsEq, hkind⟩ := finish_fields he
              refine ⟨e, ?_, ?_, ?_, ?_, hhash.symm, ?_, ?_⟩
              · have hdecode : decodeSecret (q.secretB32.getD []) = .ok ⟨secret, hseed⟩ := by
                  rw [← h.secretB32, hb32, Option.getD_some, decodeSecret, hdecoded]
                  exact checkSecret_eq_ok.mpr rfl
                rw [wideFinish_totp htyp h.malformed hdecode
                  (hashFromName_of_hmacAlgo h.algorithm)]
                exact he
              · rw [hissuer, nonEmpty_nonEmpty, ← h.issuerParam]
                rfl
              · rw [haccount, nonEmpty_nonEmpty]
                rfl
              · rw [hsecretEq]
                rfl
              · rw [hdigitsEq, hdigits]
                rfl
              · rw [hkind, ← h.period, ← hseconds]
                rfl

theorem parseEntry_of_parse {uri : RustStr} {auth : OtpAuth} (h : parse uri = .ok auth) :
    ∃ e, parseEntry uri = .ok e ∧ SameFields (BulkEntry.fromOtpAuth auth) e := by
  unfold parse at h
  unfold parseEntry parseEntryLabeled
  cases hsplit : splitUri uri with
  | error why =>
      rw [hsplit] at h
      cases why <;> cases h
  | ok parts =>
      simp only [hsplit] at h
      split at h
      · cases h
      rename_i htyp
      cases hlabel : percentDecodeKeepPlus parts.labelRaw with
      | none =>
          rw [hlabel] at h
          cases h
      | some label =>
          simp only [hlabel] at h
          obtain ⟨p, hloop, hfinish⟩ := Checks.bind_eq_ok.mp h
          have hparams : SameParams p ((queryParams parts.query).foldl wideStep {}) :=
            sameParams_foldl ⟨rfl, rfl, by decide, by decide, rfl, rfl⟩ hloop
          simp only [hlabel]
          exact wideFinish_of_narrow (by simpa using htyp) hparams hfinish

/-- One URI through both readers: the wide one has whatever the narrow one has. -/
def UriAgrees (uri : RustStr) : Prop :=
  match parse uri with
  | .ok auth => ∃ e, parseEntry uri = .ok e ∧ SameFields (BulkEntry.fromOtpAuth auth) e
  | .error _ => True

theorem uriAgrees (uri : RustStr) : UriAgrees uri := by
  unfold UriAgrees
  cases hparse : parse uri with
  | error why => trivial
  | ok auth => exact parseEntry_of_parse hparse

end Otpauth

open Migration

/-! ### The readers agree -/

/-- One payload through both readers. Only the wide reader counts the accounts. -/
def PayloadAgrees (buf : List UInt8) : Prop :=
  match parsePayload buf with
  | .ok m =>
      if m.entries.length + m.skipped.length ≤ MAX_ENTRIES then
        ∃ file, parsePayloadWide buf = .ok file ∧ SameFile m file
      else parsePayloadWide buf = .error .tooManyEntries
  | .error why =>
      parsePayloadWide buf = .error why ∨ parsePayloadWide buf = .error .tooManyEntries

theorem payloadAgrees (buf : List UInt8) : PayloadAgrees buf := by
  unfold PayloadAgrees
  have hsim := sim_parsePayload buf
  generalize parsePayload buf = narrow at hsim ⊢
  generalize parsePayloadWide buf = wide at hsim ⊢
  cases hsim with
  | @ok m file h =>
      have hroom : m.entries.length + m.skipped.length ≤ MAX_ENTRIES := h.count ▸ h.bound
      simp only [if_pos hroom]
      exact ⟨file, rfl, h⟩
  | error why => exact .inl rfl
  | out hmany =>
      cases narrow with
      | ok m => simp only [if_neg (Nat.not_le_of_lt (hmany m rfl))]
      | error why => exact .inr rfl

theorem refused_of_many {buf : List UInt8} {m : Migration} (hnarrow : parsePayload buf = .ok m)
    (hmany : MAX_ENTRIES < m.entries.length + m.skipped.length) :
    parsePayloadWide buf = .error .tooManyEntries := by
  have hagree := payloadAgrees buf
  unfold PayloadAgrees at hagree
  rw [hnarrow] at hagree
  simpa only [if_neg (Nat.not_le_of_lt hmany)] using hagree

/-- **The narrow and the wide readers agree.** On every payload of at most a
thousand accounts, the narrow reader's entries are the wide reader's items that
pass the Molto2 check, field by field and in order; and every URI the narrow reader
accepts, the wide reader accepts with the same fields. -/
theorem readers_agree : (∀ buf, PayloadAgrees buf) ∧ ∀ uri, Otpauth.UriAgrees uri :=
  ⟨payloadAgrees, Otpauth.uriAgrees⟩

/-- A payload account whose only field is a one-byte seed. -/
def SEED_ACCOUNT : List UInt8 := [0x0a, 3, 0x0a, 1, 1]

def seedEntry : BulkEntry where
  issuer := none
  account := none
  secret := [1]
  algorithm := .sha1
  digits := .six
  timeStep := .seconds30

/-- The narrow reader takes any number of such accounts. -/
theorem readMessage_seedAccounts (n : Nat) (s : NarrowPayload) :
    readMessage payloadBody s (List.replicate n SEED_ACCOUNT).flatten =
      .ok { s with entries := s.entries ++ List.replicate n seedEntry } := by
  induction n generalizing s with
  | zero =>
      rw [readMessage_eq forward_payloadBody]
      simp [key]
  | succ n ih =>
      have hkey (rest : List UInt8) :
          key (SEED_ACCOUNT ++ rest) = .ok (some ((1, 2), [3, 0x0a, 1, 1] ++ rest)) := rfl
      have hbytes (rest : List UInt8) :
          bytes ([3, 0x0a, 1, 1] ++ rest) = .ok ([0x0a, 1, 1], rest) := by
        have hlen : varint ([3, 0x0a, 1, 1] ++ rest) = .ok (3, [0x0a, 1, 1] ++ rest) := rfl
        have hroom : ¬([0x0a, 1, 1] ++ rest).length < (3 : UInt64).toNat := by simp
        unfold bytes
        rw [hlen]
        simp only [bind, Except.bind, if_neg hroom]
        rfl
      have hconvert : convert [0x0a, 1, 1] = .ok (.ok seedEntry) := by decide
      rw [List.replicate_succ, List.flatten_cons, readMessage_eq forward_payloadBody, hkey]
      simp only [bind, Except.bind, payloadBody_account, hbytes, hconvert]
      refine (ih _).trans ?_
      simp [NarrowPayload.take, List.replicate_succ]

/-- Past a thousand accounts the readers part: the narrow reader goes on, the wide
reader refuses the payload. -/
theorem manyAccounts_narrow_only :
    (∃ m, parsePayload (List.replicate 1001 SEED_ACCOUNT).flatten = .ok m ∧
      m.entries = List.replicate 1001 seedEntry) ∧
    ¬∃ file, parsePayloadWide (List.replicate 1001 SEED_ACCOUNT).flatten = .ok file := by
  have hnarrow : parsePayload (List.replicate 1001 SEED_ACCOUNT).flatten =
      .ok { entries := List.replicate 1001 seedEntry, skipped := [], batch := none } := by
    unfold parsePayload
    rw [readMessage_seedAccounts]
    simp only [bind, Except.bind, List.nil_append]
    rw [if_neg fun h => by
      rw [List.replicate_eq_nil_iff] at h
      omega]
    rfl
  refine ⟨⟨_, hnarrow, rfl⟩, ?_⟩
  have hrefused := refused_of_many hnarrow (by
    rw [List.length_replicate]
    decide)
  rintro ⟨file, hwide⟩
  rw [hrefused] at hwide
  cases hwide

end Keyroost.Import
