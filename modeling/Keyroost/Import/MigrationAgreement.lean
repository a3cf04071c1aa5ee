import Keyroost.Import.FieldLoop
import Keyroost.Import.Migration
import Keyroost.Import.PlanInvariant

/-!
# One export through both readers

The narrow reader of `keyroost-import/src/migration.rs` keeps what a Molto2 can hold; the wide
reader of `keyroost-import/src/bulk.rs` keeps everything and leaves the choice to the planner's
parameter check. Both take the same fields from the same bytes, so what the narrow reader keeps is
what passes that check afterwards.

The proof is a simulation at two levels, both by `sim_fieldLoop`: one over the fields of an account,
where the narrow reader's record is a part of the wide reader's, and one over the accounts of a
payload, where its list is the wide list with the refused accounts taken out. `sim_parsePayload` is
the result that `Agreement` uses.
-/

/-! ### One account in both models

What it means that a narrow and a wide entry are the same account, and which wide
entries a Molto2 has room for. -/

namespace Keyroost.Import

open Keyroost.Proto

def hashOf : HmacAlgo → HashAlg
  | .sha1 => .sha1
  | .sha256 => .sha256

/-- A narrow and a wide entry with the same fields. The narrow one has hash, digits and period as
the codes of the token, the wide one as what the file states. -/
structure SameFields (b : BulkEntry) (e : ImportEntry) : Prop where
  issuer : b.issuer = e.issuer
  account : b.account = e.account
  secret : b.secret = e.secret.val
  hash : hashOf b.algorithm = e.hash
  digits : b.digits.asByte = e.digits
  kind : e.kind = .totp b.timeStep.seconds

/-- The entry of an item that passes the Molto2 parameter check. -/
def moltoEntry (entry : Except Unusable ImportEntry) : Option ImportEntry :=
  match entry with
  | .error _ => none
  | .ok e =>
      match checkParams e .molto2 (limits .molto2) with
      | .ok () => some e
      | .error _ => none

theorem moltoEntry_eq_some {entry : Except Unusable ImportEntry} {e : ImportEntry} :
    moltoEntry entry = some e ↔ entry = .ok e ∧ ParamsFit e .molto2 (limits .molto2) := by
  rw [← checkParams_eq_ok]
  unfold moltoEntry
  cases entry with
  | error why => simp
  | ok e' =>
      cases hparams : checkParams e' .molto2 (limits .molto2) with
      | error why =>
          simp only [hparams, Except.ok.injEq]
          constructor
          · intro h
            cases h
          · rintro ⟨rfl, h⟩
            rw [hparams] at h
            cases h
      | ok _ =>
          simp only [hparams, Except.ok.injEq]
          constructor
          · intro h
            obtain rfl := Option.some.inj h
            exact ⟨rfl, hparams⟩
          · rintro ⟨rfl, -⟩
            rfl

theorem moltoEntry_ok {e : ImportEntry} (hfit : ParamsFit e .molto2 (limits .molto2)) :
    moltoEntry (.ok e) = some e :=
  moltoEntry_eq_some.mpr ⟨rfl, hfit⟩

/-- Narrow entries are within the limits of a Molto2. -/
theorem SameFields.paramsFit {b : BulkEntry} {e : ImportEntry} (hsame : SameFields b e)
    (hsecret : b.secret.length ≤ 63) : ParamsFit e .molto2 (limits .molto2) := by
  refine ⟨?_, ?_, fun _ => ?_, ?_, ?_⟩
  · rw [← hsame.hash]
    cases b.algorithm <;> decide
  · rw [← hsame.digits]
    cases b.digits <;> decide
  · rw [← hsame.digits]
    cases b.digits <;> decide
  · rw [hsame.kind]
    cases b.timeStep <;> simp [KindFits, limits, TimeStep.seconds]
  · rw [← hsame.secret]
    simpa [limits] using hsecret

end Keyroost.Import

/-! ### One export through both readers -/

namespace Keyroost.Import

open Keyroost.Proto

namespace Migration

/-! ### One protobuf account -/

/-- The issuer and the account of an account, in either model. -/
def issuerOf (p : OtpParameters) : Option RustStr :=
  nonEmpty (if p.issuer.isEmpty then (Otpauth.splitLabel p.name).1 else some p.issuer)

def accountOf (p : OtpParameters) : Option RustStr := nonEmpty (Otpauth.splitLabel p.name).2

/-- When the narrow reader keeps an account, and as what. -/
theorem narrowEntry_eq_ok {p : OtpParameters} {b : BulkEntry} :
    narrowEntry p = .ok b ↔
      ¬(p.typ ≠ 0 ∧ p.typ ≠ 2) ∧ ∃ algorithm digits,
        narrowAlgorithm p.algorithm = some algorithm ∧ narrowDigits p.digits = some digits ∧
          ¬(p.secret = [] ∨ 63 < p.secret.length) ∧
          { issuer := issuerOf p, account := accountOf p, secret := p.secret, algorithm, digits,
            timeStep := .seconds30 } = b := by
  unfold narrowEntry
  by_cases htyp : p.typ ≠ 0 ∧ p.typ ≠ 2
  · simp [htyp]
  · cases halgorithm : narrowAlgorithm p.algorithm with
    | none => simp [htyp]
    | some algorithm =>
        cases hdigits : narrowDigits p.digits with
        | none => simp [htyp]
        | some digits =>
            by_cases hsecret : p.secret = [] ∨ 63 < p.secret.length
            · simp [htyp, hsecret]
            · simp only [htyp, hsecret, if_false, not_false_eq_true, true_and,
                Except.ok.injEq, Option.some.injEq]
              constructor
              · intro h
                exact ⟨algorithm, digits, rfl, rfl, h⟩
              · rintro ⟨_, _, rfl, rfl, h⟩
                exact h

theorem wideEntryOf_eq_ok {p : OtpParameters} {e : ImportEntry} :
    (wideEntryOf p).2 = .ok e ↔
      ∃ kind, wideKind p.typ p.counter = .ok kind ∧ ∃ secret, checkSecret p.secret = .ok secret ∧
        ∃ hash, wideHash p.algorithm = .ok hash ∧ ∃ digits, wideDigits p.digits = .ok digits ∧
          finish (issuerOf p) (accountOf p) secret hash digits kind = .ok e := by
  simp only [wideEntryOf, wideEntry, Checks.bind_eq_ok]
  rfl

theorem wideHash_of_narrow {code : UInt64} {algorithm : HmacAlgo}
    (h : narrowAlgorithm code = some algorithm) : wideHash code = .ok (hashOf algorithm) := by
  unfold narrowAlgorithm at h
  unfold wideHash
  split at h
  · rename_i hcode
    obtain rfl := Option.some.inj h
    rw [if_pos hcode, hashOf]
  · split at h
    · rename_i hnot hcode
      obtain rfl := Option.some.inj h
      rw [if_neg hnot, if_pos hcode, hashOf]
    · cases h

theorem narrow_of_wideHash {code : UInt64} {hash : HashAlg} (h : wideHash code = .ok hash)
    (hmolto : hash ∈ SHA1_256) : ∃ algorithm, narrowAlgorithm code = some algorithm := by
  unfold wideHash at h
  unfold narrowAlgorithm
  split at h
  · rename_i hcode
    exact ⟨.sha1, by rw [if_pos hcode]⟩
  · split at h
    · rename_i hnot hcode
      exact ⟨.sha256, by rw [if_neg hnot, if_pos hcode]⟩
    · split at h
      · obtain rfl := Except.ok.inj h
        exact absurd hmolto (by decide)
      · split at h <;> cases h

theorem wideDigits_of_narrow {code : UInt64} {digits : OtpDigits}
    (h : narrowDigits code = some digits) :
    ∃ n, wideDigits code = .ok n ∧ (1 ≤ n ∧ n ≤ 10) ∧ n.toUInt8 = digits.asByte := by
  unfold narrowDigits at h
  unfold wideDigits
  split at h
  · rename_i hcode
    obtain rfl := Option.some.inj h
    exact ⟨6, by rw [if_pos hcode], by decide, by decide⟩
  · split at h
    · rename_i hnot hcode
      obtain rfl := Option.some.inj h
      exact ⟨8, by rw [if_neg hnot, if_pos hcode], by decide, by decide⟩
    · cases h

theorem narrow_of_wideDigits {code : UInt64} {n : UInt32} (h : wideDigits code = .ok n) :
    ∃ digits, narrowDigits code = some digits := by
  unfold wideDigits at h
  unfold narrowDigits
  split at h
  · rename_i hcode
    exact ⟨.six, by rw [if_pos hcode]⟩
  · split at h
    · rename_i hnot hcode
      exact ⟨.eight, by rw [if_neg hnot, if_pos hcode]⟩
    · cases h

/-- What the narrow reader keeps, the wide reader has, within a Molto2's limits. -/
theorem wide_of_narrow {p : OtpParameters} {b : BulkEntry} (hnarrow : narrowEntry p = .ok b)
    (counter : UInt64) :
    ∃ e, (wideEntryOf { p with counter }).2 = .ok e ∧ SameFields b e ∧
      ParamsFit e .molto2 (limits .molto2) := by
  obtain ⟨htyp, algorithm, digits, halgorithm, hdigits, hsecret, rfl⟩ :=
    narrowEntry_eq_ok.mp hnarrow
  have hkind : wideKind p.typ counter = .ok (.totp 30) := by
    rw [wideKind, if_pos (by by_contra h; exact htyp (not_or.mp h))]
  obtain ⟨n, hwideDigits, hrange, hn⟩ := wideDigits_of_narrow hdigits
  have hseed : p.secret ≠ [] ∧ p.secret.length ≤ MAX_SECRET_BYTES :=
    ⟨fun h => hsecret (.inl h), by
      have hshort := Nat.not_lt.mp fun h => hsecret (.inr h)
      simp only [MAX_SECRET_BYTES]
      omega⟩
  obtain ⟨e, he⟩ := @exists_finish (issuerOf p) (accountOf p) ⟨p.secret, hseed⟩
    (hashOf algorithm) _ _ hrange
    (show OtpKind.totp 30 ≠ .totp 0 by decide)
  obtain ⟨hissuer, haccount, hsecretEq, hhash, hdigitsEq, hkindEq⟩ := finish_fields he
  have hsame : SameFields
      { issuer := issuerOf p, account := accountOf p, secret := p.secret, algorithm, digits,
        timeStep := .seconds30 } e :=
    ⟨by rw [hissuer, issuerOf, nonEmpty_nonEmpty], by rw [haccount, accountOf, nonEmpty_nonEmpty],
      by rw [hsecretEq], hhash.symm, by rw [hdigitsEq, hn], hkindEq⟩
  refine ⟨e, ?_, hsame, hsame.paramsFit (Nat.not_lt.mp fun h => hsecret (.inr h))⟩
  exact wideEntryOf_eq_ok.mpr ⟨_, hkind, _, checkSecret_eq_ok.mpr rfl, _,
    wideHash_of_narrow halgorithm, n, hwideDigits, he⟩

/-- What the wide reader has within a Molto2's limits, the narrow reader keeps. -/
theorem narrow_of_wide {p : OtpParameters} {counter : UInt64} {e : ImportEntry}
    (hwide : (wideEntryOf { p with counter }).2 = .ok e)
    (hfit : ParamsFit e .molto2 (limits .molto2)) : ∃ b, narrowEntry p = .ok b := by
  obtain ⟨kind, hkind, secret, hsecret, hash, hhash, n, hdigits, he⟩ := wideEntryOf_eq_ok.mp hwide
  obtain ⟨-, -, rfl, rfl, -, rfl⟩ := finish_fields he
  obtain ⟨algorithm, halgorithm⟩ := narrow_of_wideHash hhash hfit.hash
  obtain ⟨digits, hnarrowDigits⟩ := narrow_of_wideDigits hdigits
  have hseed : e.secret.val = p.secret := checkSecret_eq_ok.mp hsecret
  refine ⟨_, narrowEntry_eq_ok.mpr ⟨?_, algorithm, digits, halgorithm, hnarrowDigits, ?_, rfl⟩⟩
  · -- A counter-based code is never within a Molto2's limits.
    rintro ⟨hzero, htwo⟩
    have hfits := hfit.kind
    unfold wideKind at hkind
    split at hkind
    · rename_i htyp
      exact htyp.elim hzero htwo
    · split at hkind
      · rw [← Except.ok.inj hkind] at hfits
        exact hfits
      · cases hkind
  · rintro (hempty | hlong)
    · exact e.secret.property.1 (hseed.trans hempty)
    · have hmax := hfit.secret 63 rfl
      rw [hseed] at hmax
      omega

/-- One account: the narrow reader keeps it exactly when the wide reader's entry
passes the Molto2 check, and with the same fields. -/
theorem narrow_wide_account (p : OtpParameters) (counter : UInt64) :
    Option.Rel SameFields (narrowEntry p).toOption
      (moltoEntry (wideEntryOf { p with counter }).2) := by
  cases hnarrow : narrowEntry p with
  | ok b =>
      obtain ⟨e, hwide, hsame, hfit⟩ := wide_of_narrow hnarrow counter
      rw [hwide, moltoEntry_ok hfit]
      exact .some hsame
  | error skipped =>
      cases hmolto : moltoEntry (wideEntryOf { p with counter }).2 with
      | none => exact .none
      | some e =>
          obtain ⟨hwide, hfit⟩ := moltoEntry_eq_some.mp hmolto
          obtain ⟨b, hb⟩ := narrow_of_wide hwide hfit
          rw [hnarrow] at hb
          cases hb

/-! ### One account's fields -/

/-- The wide reader's fields are the narrow reader's, and a counter. -/
def SameButCounter (p q : OtpParameters) : Prop := q = { p with counter := q.counter }

theorem sim_convertBody {p q : OtpParameters} (h : SameButCounter p q) (field : UInt64 × UInt8)
    (buf : List UInt8) (e : BulkError) :
    Sim (fun x y => SameButCounter x.1 y.1 ∧ x.2 = y.2) (fun _ => False) e
      (convertBody p field buf) (convertBody q field buf) := by
  obtain ⟨counter, rfl⟩ : ∃ counter, q = { p with counter } := ⟨_, h⟩
  unfold convertBody
  repeat' split
  all_goals exact Sim.bind_same fun _ => .ok ⟨rfl, rfl⟩

/-- Skipping a varint field and reading it leave the same bytes. -/
theorem convertBody_counter (p : OtpParameters) (buf : List UInt8) :
    convertBody p (7, 0) buf = (do
      let (_, rest) ← varint buf
      return (p, rest)) := by
  simp [convertBody, skip]

theorem sim_convertWideBody {p q : OtpParameters} (h : SameButCounter p q) (field : UInt64 × UInt8)
    (buf : List UInt8) (e : BulkError) :
    Sim (fun x y => SameButCounter x.1 y.1 ∧ x.2 = y.2) (fun _ => False) e
      (convertBody p field buf) (convertWideBody q field buf) := by
  unfold convertWideBody
  split
  · rename_i hfield
    rw [hfield, convertBody_counter]
    obtain ⟨counter, rfl⟩ : ∃ counter, q = { p with counter } := ⟨_, h⟩
    exact Sim.bind_same fun _ => .ok ⟨rfl, rfl⟩
  · exact sim_convertBody h field buf e

/-- A kept account and its wide entry, or neither. -/
def SameAccount (kept : Except Skipped BulkEntry)
    (item : Option RustStr × Except Unusable ImportEntry) : Prop :=
  Option.Rel SameFields kept.toOption (moltoEntry item.2)

theorem sim_convert (account : List UInt8) (e : BulkError) :
    Sim SameAccount (fun _ => False) e (convert account) (convertWide account) := by
  have hfields : Sim SameButCounter (fun _ => False) e
      (readMessage convertBody {} account) (readMessage convertWideBody {} account) :=
    sim_fieldLoop (fun _ _ field buf h => sim_convertWideBody h field buf e)
      (fun _ _ _ _ _ h _ => h) rfl
  unfold convert convertWide
  refine Sim.map hfields ?_ ?_
  · intro p q h
    obtain ⟨counter, rfl⟩ : ∃ counter, q = { p with counter } := ⟨_, h⟩
    exact narrow_wide_account p counter
  · exact fun _ h => h

/-! ### The whole payload -/

/-- How many accounts the narrow reader has seen. -/
def NarrowPayload.count (s : NarrowPayload) : Nat := s.entries.length + s.skipped.length

/-- The narrow reader's variables after one more account. -/
def NarrowPayload.take (s : NarrowPayload) : Except Skipped BulkEntry → NarrowPayload
  | .ok e => { s with entries := s.entries ++ [e] }
  | .error skipped => { s with skipped := s.skipped ++ [skipped] }

theorem NarrowPayload.count_take (s : NarrowPayload) (kept : Except Skipped BulkEntry) :
    (s.take kept).count = s.count + 1 := by
  cases kept with
  | ok e =>
      simp only [NarrowPayload.take, NarrowPayload.count, List.length_append,
        List.length_singleton]
      omega
  | error skipped =>
      simp only [NarrowPayload.take, NarrowPayload.count, List.length_append,
        List.length_singleton]
      omega

/-- The readers' variables after the same fields. The narrow reader's entries are those of the wide
reader's items that a Molto2 can take, and both have counted every account. -/
structure SamePayload (s : NarrowPayload) (t : WidePayload) : Prop where
  entries : List.Forall₂ SameFields s.entries (t.items.filterMap fun item => moltoEntry item.entry)
  count : t.items.length = s.count
  bound : t.items.length ≤ MAX_ENTRIES
  batchSize : s.batchSize = t.batchSize
  batchIndex : s.batchIndex = t.batchIndex

/-- One more account on both sides. -/
theorem SamePayload.account {s : NarrowPayload} {t : WidePayload} (h : SamePayload s t)
    (hroom : t.items.length < MAX_ENTRIES) {kept : Except Skipped BulkEntry}
    {item : Option RustStr × Except Unusable ImportEntry} (hsame : SameAccount kept item)
    (index : Nat) (label : RustStr) :
    SamePayload (s.take kept)
      { t with items := t.items ++ [{ index, label, entry := item.2 }] } := by
  have hentries : List.Forall₂ SameFields (s.take kept).entries
      (t.items.filterMap (fun item => moltoEntry item.entry) ++ (moltoEntry item.2).toList) := by
    unfold SameAccount at hsame
    cases kept with
    | ok b =>
        cases hmolto : moltoEntry item.2 with
        | none =>
            rw [hmolto] at hsame
            cases hsame
        | some e =>
            rw [hmolto] at hsame
            cases hsame with
            | some hfields => exact List.rel_append h.entries (.cons hfields .nil)
    | error skipped =>
        cases hmolto : moltoEntry item.2 with
        | some e =>
            rw [hmolto] at hsame
            cases hsame
        | none =>
            rw [Option.toList_none, List.append_nil]
            exact h.entries
  refine ⟨?_, ?_, ?_, ?_, ?_⟩
  · rw [List.filterMap_append]
    cases hmolto : moltoEntry item.2 with
    | none => simpa [hmolto] using hentries
    | some e => simpa [hmolto] using hentries
  · rw [s.count_take, List.length_append, List.length_singleton, h.count]
  · rw [List.length_append, List.length_singleton]
    exact hroom
  · cases kept <;> exact h.batchSize
  · cases kept <;> exact h.batchIndex

/-- The narrow reader's account step, with its two outcomes side by side. -/
theorem payloadBody_account (s : NarrowPayload) (buf : List UInt8) :
    payloadBody s (1, 2) buf = (do
      let (account, rest) ← bytes buf
      let kept ← convert account
      return (s.take kept, rest)) := by
  unfold payloadBody
  rw [if_pos rfl]
  refine Checks.bind_congr_ok fun x _ => Checks.bind_congr_ok fun kept _ => ?_
  cases kept with
  | ok e => rfl
  | error skipped => rfl

/-- Each field adds at most an account, and an account field adds one. -/
theorem payloadBody_count {s s' : NarrowPayload} {field : UInt64 × UInt8} {buf rest : List UInt8}
    (h : payloadBody s field buf = .ok (s', rest)) :
    s'.count = if field = (1, 2) then s.count + 1 else s.count := by
  split
  · rename_i hfield
    rw [hfield, payloadBody_account] at h
    obtain ⟨_, -, h⟩ := Checks.bind_eq_ok.mp h
    obtain ⟨kept, -, h⟩ := Checks.bind_eq_ok.mp h
    obtain ⟨rfl, -⟩ := Prod.mk.inj (Except.ok.inj h)
    exact s.count_take kept
  · rename_i hfield
    unfold payloadBody at h
    rw [if_neg hfield] at h
    split at h
    · obtain ⟨_, -, h⟩ := Checks.bind_eq_ok.mp h
      obtain ⟨rfl, -⟩ := Prod.mk.inj (Except.ok.inj h)
      rfl
    · split at h
      · obtain ⟨_, -, h⟩ := Checks.bind_eq_ok.mp h
        obtain ⟨rfl, -⟩ := Prod.mk.inj (Except.ok.inj h)
        rfl
      · obtain ⟨_, -, h⟩ := Checks.bind_eq_ok.mp h
        obtain ⟨rfl, -⟩ := Prod.mk.inj (Except.ok.inj h)
        rfl

/-- More accounts than the wide reader takes. -/
def TooMany (s : NarrowPayload) : Prop := MAX_ENTRIES < s.count

theorem tooMany_kept {s s' : NarrowPayload} {field : UInt64 × UInt8} {buf rest : List UInt8}
    (hs : TooMany s) (h : payloadBody s field buf = .ok (s', rest)) : TooMany s' := by
  unfold TooMany at hs ⊢
  rw [payloadBody_count h]
  split
  · exact hs.trans (Nat.lt_succ_self _)
  · exact hs

theorem sim_payloadBody {s : NarrowPayload} {t : WidePayload} (h : SamePayload s t)
    (field : UInt64 × UInt8) (buf : List UInt8) :
    Sim (fun x y => SamePayload x.1 y.1 ∧ x.2 = y.2) (fun x => TooMany x.1) .tooManyEntries
      (payloadBody s field buf) (payloadWideBody t field buf) := by
  by_cases haccount : field = (1, 2)
  · subst haccount
    unfold payloadWideBody
    simp only [if_true]
    by_cases hfull : MAX_ENTRIES ≤ t.items.length
    · rw [if_pos hfull]
      refine .out fun x hx => ?_
      rw [TooMany, payloadBody_count hx, if_pos rfl, ← h.count]
      exact Nat.lt_succ_of_le hfull
    · rw [if_neg hfull, payloadBody_account]
      refine Sim.bind_same fun read => (sim_convert read.1 .tooManyEntries).bind ?_ ?_
      · exact fun kept item hsame => .ok ⟨h.account (Nat.lt_of_not_le hfull) hsame _ _, rfl⟩
      · exact fun _ _ hfalse _ => hfalse.elim
  · unfold payloadBody payloadWideBody
    rw [if_neg haccount, if_neg haccount]
    split
    · exact Sim.bind_same fun _ =>
        .ok ⟨⟨h.entries, h.count, h.bound, rfl, h.batchIndex⟩, rfl⟩
    · split
      · exact Sim.bind_same fun _ =>
          .ok ⟨⟨h.entries, h.count, h.bound, h.batchSize, rfl⟩, rfl⟩
      · exact Sim.bind_same fun _ => .ok ⟨h, rfl⟩

/-- The readers' results on the same payload. The narrow entries are, in order, those of the wide
items that a Molto2 can take; every other item is one that the narrow reader lists as skipped. -/
structure SameFile (m : Migration) (file : ImportFile) : Prop where
  entries :
    List.Forall₂ SameFields m.entries (file.items.filterMap fun item => moltoEntry item.entry)
  count : file.items.length = m.entries.length + m.skipped.length
  bound : file.items.length ≤ MAX_ENTRIES
  batch : m.batch = file.batch

/-- A payload through both readers: the same entries, the same error, or more
accounts than the wide reader takes. -/
theorem sim_parsePayload (buf : List UInt8) :
    Sim SameFile (fun m => MAX_ENTRIES < m.entries.length + m.skipped.length) .tooManyEntries
      (parsePayload buf) (parsePayloadWide buf) := by
  have hloop : Sim SamePayload TooMany .tooManyEntries (readMessage payloadBody {} buf)
      (readMessage payloadWideBody {} buf) :=
    sim_fieldLoop (fun _ _ field rest h => sim_payloadBody h field rest)
      (fun _ _ _ _ _ hs h => tooMany_kept hs h)
      ⟨.nil, rfl, Nat.zero_le _, rfl, rfl⟩
  unfold parsePayload parsePayloadWide
  refine hloop.bind ?_ ?_
  · intro s t h
    have hcount := h.count
    by_cases hnone : s.entries = [] ∧ s.skipped = []
    · have hitems : t.items.isEmpty = true := by
        rw [List.isEmpty_iff, ← List.length_eq_zero_iff, hcount, NarrowPayload.count, hnone.1,
          hnone.2]
        rfl
      rw [if_pos hnone, if_pos hitems]
      exact .error noAccounts
    · have hitems : ¬t.items.isEmpty = true := by
        rw [List.isEmpty_iff, ← List.length_eq_zero_iff, hcount, NarrowPayload.count]
        intro hzero
        exact hnone ⟨List.length_eq_zero_iff.mp (by omega), List.length_eq_zero_iff.mp (by omega)⟩
      rw [if_neg hnone, if_neg hitems]
      exact .ok ⟨h.entries, hcount, h.bound, by rw [h.batchSize, h.batchIndex]⟩
  · intro s m hmany h
    obtain ⟨-, h⟩ := Checks.check_eq_ok.mp h
    obtain rfl := Except.ok.inj h
    exact hmany

end Migration

end Keyroost.Import
