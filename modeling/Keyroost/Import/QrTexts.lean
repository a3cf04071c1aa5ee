import Keyroost.Import.ListItems
import Keyroost.Library.Lines
import Keyroost.Library.Pass

/-!
# The codes of an image

`fileFromTexts` of `keyroost-qr/src/lib.rs`: the texts decoded from an image become the items of
one file, numbered anew. How an image is decoded is the business of another crate; the texts are
given.

`fileFromTexts_ok_iff` says when that succeeds: some code is readable, the codes fit, and nothing
stands behind codes that fill the file. The last condition is not wanted: a text that is no code
and makes no item is refused all the same if a thousand items are there already. `readsCodes_iff`
states that as the one exception to reading an image as it should be read.

A list of the same texts is read alike (`parseListWide_listOf`), so an image and a text file are two
ways to one plan.
-/

namespace Keyroost.Import.Qr

open Checks

/-- How the texts of an image can be refused. A payload's error is kept whole, not as its text. -/
inductive QrError where
  | notOtpauth
  | payload (e : BulkError)
  | tooManyEntries
deriving DecidableEq, Repr

/-- The variables of `file_from_texts`: what was read so far, which kinds of codes were met, and the
error that is told when codes were met and none of them could be read. -/
structure TextsState where
  items : List ImportItem := []
  batch : Option (UInt32 × UInt32) := none
  anyOtpauth : Bool := false
  anyMigration : Bool := false
  anyParsed : Bool := false
  payloadErr : Option BulkError := none

def damagedItem : ImportItem where
  index := 0
  label := "damaged QR code".toList
  entry := .error (.malformed "QR payload could not be read")

/-- One turn of the loop. The cap stands in front of every text, one that is no code included. -/
def textStep (s : TextsState) (raw : RustStr) : Except QrError TextsState :=
  if MAX_ENTRIES ≤ s.items.length then .error .tooManyEntries
  else
    let text := raw.trim
    if Migration.isMigrationUri text then
      match Migration.parseWide text with
      | .error .tooManyEntries => .error .tooManyEntries
      | .ok file =>
          if MAX_ENTRIES < s.items.length + file.items.length then .error .tooManyEntries
          else .ok { s with
            anyOtpauth := true
            anyMigration := true
            anyParsed := true
            batch := s.batch.or file.batch
            items := s.items ++ file.items }
      | .error e => .ok { s with
          anyOtpauth := true
          anyMigration := true
          payloadErr := s.payloadErr.or (some e)
          items := s.items ++ [damagedItem] }
    else if text.startsWith "otpauth://".toList then
      let (label, entry) := Otpauth.parseEntryLabeled text
      .ok { s with
        anyOtpauth := true
        anyParsed := true
        items := s.items ++ [{ index := 0, label := label.getD [], entry }] }
    else .ok s

/-- One running index, and a name for what has none. -/
def numbered (items : List ImportItem) : List ImportItem :=
  items.zipIdx.map fun (item, i) =>
    { item with
      index := i
      label := if item.label.isEmpty then "entry ".toList ++ RustStr.decimal (i + 1)
        else item.label }

/-- Behind the loop: the first error counts when nothing was read. -/
def finishTexts (s : TextsState) : Except QrError ImportFile :=
  if s.anyOtpauth = false then .error .notOtpauth
  else
    match s.anyParsed, s.payloadErr with
    | false, some e => .error (.payload e)
    | _, _ => .ok {
        format := if s.anyMigration then .googleExport else .qrImage
        items := numbered s.items
        batch := s.batch }

def fileFromTexts (texts : List RustStr) : Except QrError ImportFile := do
  finishTexts (← texts.foldlM textStep {})

/-! ### What the texts are -/

inductive Code where
  | other
  | account (label : Option RustStr) (entry : Except Unusable ImportEntry)
  | exported (file : ImportFile)
  | damaged (e : BulkError)
  | oversized

def codeOf (raw : RustStr) : Code :=
  let text := raw.trim
  if Migration.isMigrationUri text then
    match Migration.parseWide text with
    | .ok file => .exported file
    | .error .tooManyEntries => .oversized
    | .error e => .damaged e
  else if text.startsWith "otpauth://".toList then
    .account (Otpauth.parseEntryLabeled text).1 (Otpauth.parseEntryLabeled text).2
  else .other

namespace Code

def isCode : Code → Bool
  | other => false
  | _ => true

def readable : Code → Bool
  | account _ _ | exported _ => true
  | _ => false

def unreadable : Code → Bool
  | damaged _ => true
  | _ => false

/-- One item for an account, all those of an export, and one for a damaged export. -/
def items : Code → List ImportItem
  | account label entry => [{ index := 0, label := label.getD [], entry }]
  | exported file => file.items
  | damaged _ => [damagedItem]
  | other | oversized => []

/-- The state after a code was taken. -/
def next (s : TextsState) : Code → TextsState
  | account label entry => { s with
      anyOtpauth := true
      anyParsed := true
      items := s.items ++ (account label entry).items }
  | exported file => { s with
      anyOtpauth := true
      anyMigration := true
      anyParsed := true
      batch := s.batch.or file.batch
      items := s.items ++ file.items }
  | damaged e => { s with
      anyOtpauth := true
      anyMigration := true
      payloadErr := s.payloadErr.or (some e)
      items := s.items ++ [damagedItem] }
  | other | oversized => s

end Code

/-- All the items of the codes, in order. -/
def itemsOf (texts : List RustStr) : List ImportItem := texts.flatMap fun raw => (codeOf raw).items

theorem textStep_ok_iff {s t : TextsState} {raw : RustStr} :
    textStep s raw = .ok t ↔ s.items.length < MAX_ENTRIES ∧ codeOf raw ≠ .oversized ∧
      s.items.length + (codeOf raw).items.length ≤ MAX_ENTRIES ∧ t = (codeOf raw).next s := by
  rw [textStep, codeOf]
  by_cases hfull : MAX_ENTRIES ≤ s.items.length
  · rw [if_pos hfull]
    constructor
    · intro h
      cases h
    · rintro ⟨hroom, -⟩
      exact absurd hroom (Nat.not_lt.mpr hfull)
  · have hroom : s.items.length < MAX_ENTRIES := Nat.lt_of_not_le hfull
    rw [if_neg hfull]
    dsimp only
    by_cases hlink : Migration.isMigrationUri (RustStr.trim raw) = true
    · rw [if_pos hlink, if_pos hlink]
      cases hread : Migration.parseWide (RustStr.trim raw) with
      | ok file =>
          dsimp only
          rw [Code.items]
          by_cases hmany : MAX_ENTRIES < s.items.length + file.items.length
          · rw [if_pos hmany]
            constructor
            · intro h
              cases h
            · rintro ⟨-, -, hle, -⟩
              exact absurd hmany (Nat.not_lt.mpr hle)
          · rw [if_neg hmany, Except.ok.injEq]
            constructor
            · rintro rfl
              exact ⟨hroom, nofun, Nat.le_of_not_lt hmany, rfl⟩
            · rintro ⟨-, -, -, rfl⟩
              rfl
      | error e =>
          cases e with
          | tooManyEntries =>
              constructor
              · intro h
                cases h
              · rintro ⟨-, hover, -⟩
                exact absurd rfl hover
          | _ =>
              dsimp only
              rw [Except.ok.injEq]
              constructor
              · rintro rfl
                exact ⟨hroom, nofun, hroom, rfl⟩
              · rintro ⟨-, -, -, rfl⟩
                rfl
    · rw [if_neg hlink, if_neg hlink]
      by_cases hcode : RustStr.startsWith (RustStr.trim raw) "otpauth://".toList = true
      · rw [if_pos hcode, if_pos hcode, Except.ok.injEq]
        constructor
        · rintro rfl
          exact ⟨hroom, nofun, hroom, rfl⟩
        · rintro ⟨-, -, -, rfl⟩
          rfl
      · rw [if_neg hcode, if_neg hcode, Except.ok.injEq]
        constructor
        · rintro rfl
          exact ⟨hroom, nofun, hroom.le, rfl⟩
        · rintro ⟨-, -, -, rfl⟩
          rfl

theorem items_next (s : TextsState) (code : Code) :
    (code.next s).items = s.items ++ code.items := by
  cases code with
  | account label entry => rfl
  | exported file => rfl
  | damaged e => rfl
  | other => exact (List.append_nil _).symm
  | oversized => exact (List.append_nil _).symm

/-! ### A whole image -/

theorem parseWide_items_ne {uri : RustStr} {file : ImportFile}
    (h : Migration.parseWide uri = .ok file) : file.items ≠ [] := by
  obtain ⟨buf, -, h⟩ := bind_eq_ok.mp h
  obtain ⟨st, -, h⟩ := bind_eq_ok.mp h
  simp only [throw_bind, check_eq_ok, pure_eq_ok] at h
  obtain ⟨hne, rfl⟩ := h
  rintro hnil
  exact hne (List.isEmpty_iff.mpr hnil)

theorem items_pos {raw : RustStr} (hcode : (codeOf raw).isCode = true)
    (hfit : codeOf raw ≠ .oversized) : 0 < (codeOf raw).items.length := by
  rw [codeOf] at hcode hfit ⊢
  split
  · split
    · rename_i file hread
      exact List.length_pos_of_ne_nil (parseWide_items_ne hread)
    · rename_i hlink _ hover
      rw [if_pos hlink, hover] at hfit
      exact absurd rfl hfit
    · exact Nat.one_pos
  · split
    · exact Nat.one_pos
    · rename_i hlink hother
      rw [if_neg hlink, if_neg hother] at hcode
      cases hcode

theorem isCode_of_items {code : Code} (h : 0 < code.items.length) : code.isCode = true := by
  cases code with
  | other => exact absurd h (Nat.lt_irrefl 0)
  | _ => rfl

theorem isCode_of_readable {code : Code} (h : code.readable = true) : code.isCode = true := by
  cases code with
  | account label entry => rfl
  | exported file => rfl
  | _ => cases h

/-- The codes hold at most so many items as a file may have. -/
def Fits (texts : List RustStr) : Prop :=
  (∀ raw ∈ texts, codeOf raw ≠ .oversized) ∧ (itemsOf texts).length ≤ MAX_ENTRIES

/-- No text stands behind the last code. -/
def EndsInCode (texts : List RustStr) : Prop :=
  ∀ raw, texts.getLast? = some raw → (codeOf raw).isCode = true

theorem itemsOf_cons (raw : RustStr) (rest : List RustStr) :
    itemsOf (raw :: rest) = (codeOf raw).items ++ itemsOf rest := List.flatMap_cons

theorem itemsOf_singleton (raw : RustStr) : itemsOf [raw] = (codeOf raw).items :=
  List.append_nil _

theorem itemsOf_pos {texts : List RustStr} (hne : texts ≠ [])
    (hfit : ∀ raw ∈ texts, codeOf raw ≠ .oversized) (hends : EndsInCode texts) :
    0 < (itemsOf texts).length := by
  obtain ⟨init, raw, rfl⟩ : ∃ init raw, texts = init ++ [raw] :=
    ⟨_, _, (List.dropLast_append_getLast hne).symm⟩
  have hpos := items_pos (hends raw List.getLast?_concat) (hfit raw List.mem_concat_self)
  rw [← itemsOf_singleton] at hpos
  rw [itemsOf, List.flatMap_append, List.length_append]
  exact Nat.lt_of_lt_of_le hpos (Nat.le_add_left _ _)

theorem endsInCode_cons {raw next : RustStr} {rest : List RustStr} :
    EndsInCode (raw :: next :: rest) ↔ EndsInCode (next :: rest) := by
  rw [EndsInCode, EndsInCode, List.getLast?_cons_cons]

/-- The texts are taken when the codes fit, and only a code stands where the cap is reached. -/
theorem foldlM_ok_iff {texts : List RustStr} {s : TextsState}
    (hroom : s.items.length ≤ MAX_ENTRIES) :
    (∃ t, texts.foldlM textStep s = .ok t) ↔ (∀ raw ∈ texts, codeOf raw ≠ .oversized) ∧
      s.items.length + (itemsOf texts).length ≤ MAX_ENTRIES ∧
      (s.items.length + (itemsOf texts).length = MAX_ENTRIES → EndsInCode texts) := by
  induction texts generalizing s with
  | nil =>
      refine ⟨fun _ => ⟨fun _ hmem => ?_, hroom, fun _ raw hlast => ?_⟩, fun _ => ⟨s, rfl⟩⟩
      · cases hmem
      · cases hlast
  | cons raw rest ih =>
      have hnext : ((codeOf raw).next s).items.length =
          s.items.length + (codeOf raw).items.length := by
        rw [items_next, List.length_append]
      rw [itemsOf_cons, List.length_append, ← Nat.add_assoc]
      constructor
      · rintro ⟨t, hfold⟩
        rw [List.foldlM_cons, bind_eq_ok] at hfold
        obtain ⟨u, hstep, hrest⟩ := hfold
        obtain ⟨hbefore, hover, hfit, rfl⟩ := textStep_ok_iff.mp hstep
        obtain ⟨hall, hle, hends⟩ := (ih (hnext ▸ hfit)).mp ⟨t, hrest⟩
        rw [hnext] at hle hends
        refine ⟨List.forall_mem_cons.mpr ⟨hover, hall⟩, hle, fun hfull => ?_⟩
        cases rest with
        | nil =>
            intro last hlast
            obtain rfl : raw = last := Option.some.inj hlast
            have hnil : (itemsOf []).length = 0 := rfl
            exact isCode_of_items (by omega)
        | cons next rest => exact endsInCode_cons.mpr (hends hfull)
      · rintro ⟨hall, hle, hends⟩
        obtain ⟨hover, hrestAll⟩ := List.forall_mem_cons.mp hall
        have hbefore : s.items.length < MAX_ENTRIES := by
          refine Nat.lt_of_le_of_ne hroom fun hfull => ?_
          have hpos := itemsOf_pos (List.cons_ne_nil raw rest) hall (hends (by omega))
          rw [itemsOf_cons, List.length_append] at hpos
          omega
        have hstep := textStep_ok_iff.mpr ⟨hbefore, hover, by omega, rfl⟩
        obtain ⟨t, hrest⟩ := (ih (s := (codeOf raw).next s) (by omega)).mpr
          ⟨hrestAll, by omega, fun hfull => by
            rw [hnext] at hfull
            cases rest with
            | nil => exact fun last hlast => nomatch hlast
            | cons next rest => exact endsInCode_cons.mp (hends hfull)⟩
        refine ⟨t, ?_⟩
        rw [List.foldlM_cons, hstep]
        exact hrest

/-- What the state says of the texts before. By the last clause an error is kept where codes were
seen and none of them could be read, so there is one to report. -/
structure Read (s : TextsState) (texts : List RustStr) (t : TextsState) : Prop where
  items : t.items = s.items ++ itemsOf texts
  otpauth : t.anyOtpauth = true ↔ s.anyOtpauth = true ∨ ∃ raw ∈ texts, (codeOf raw).isCode = true
  parsed : t.anyParsed = true ↔ s.anyParsed = true ∨ ∃ raw ∈ texts, (codeOf raw).readable = true
  kept : (s.anyOtpauth = true → s.anyParsed = true ∨ s.payloadErr ≠ none) →
    t.anyOtpauth = true → t.anyParsed = true ∨ t.payloadErr ≠ none

theorem exists_mem_singleton {p : RustStr → Prop} {raw : RustStr} :
    (∃ a ∈ [raw], p a) ↔ p raw := by
  simp only [List.mem_singleton, exists_eq_left]

theorem exists_mem_cons {p : RustStr → Prop} {raw : RustStr} {rest : List RustStr} :
    (∃ a ∈ raw :: rest, p a) ↔ p raw ∨ ∃ a ∈ rest, p a := by
  simp only [List.mem_cons, exists_eq_or_imp]

theorem read_next {s : TextsState} {raw : RustStr} (hover : codeOf raw ≠ .oversized) :
    Read s [raw] ((codeOf raw).next s) := by
  refine ⟨?_, ?_, ?_, ?_⟩
  · rw [items_next, itemsOf_singleton]
  · rw [exists_mem_singleton]
    cases hcode : codeOf raw with
    | oversized => exact absurd hcode hover
    | _ => simp [Code.next, Code.isCode]
  · rw [exists_mem_singleton]
    cases hcode : codeOf raw with
    | oversized => exact absurd hcode hover
    | _ => simp [Code.next, Code.readable]
  · cases hcode : codeOf raw with
    | oversized => exact absurd hcode hover
    | other => exact id
    | damaged e => simp [Code.next]
    | _ => exact fun _ _ => .inl rfl

theorem Read.cons {s u t : TextsState} {raw : RustStr} {rest : List RustStr}
    (h : Read s [raw] u) (h' : Read u rest t) : Read s (raw :: rest) t := by
  refine ⟨?_, ?_, ?_, fun hkept => h'.kept (h.kept hkept)⟩
  · rw [h'.items, h.items, List.append_assoc, itemsOf_cons raw rest, itemsOf_singleton]
  · rw [h'.otpauth, h.otpauth, exists_mem_singleton, exists_mem_cons, or_assoc]
  · rw [h'.parsed, h.parsed, exists_mem_singleton, exists_mem_cons, or_assoc]

theorem foldlM_read {texts : List RustStr} {s t : TextsState}
    (h : texts.foldlM textStep s = .ok t) : Read s texts t := by
  induction texts generalizing s with
  | nil =>
      cases h
      exact ⟨(List.append_nil _).symm, by simp, by simp, id⟩
  | cons raw rest ih =>
      rw [List.foldlM_cons, bind_eq_ok] at h
      obtain ⟨u, hstep, hrest⟩ := h
      obtain ⟨-, hover, -, rfl⟩ := textStep_ok_iff.mp hstep
      exact (read_next hover).cons (ih hrest)

theorem finishTexts_ok_iff {s : TextsState} {texts : List RustStr} (h : Read {} texts s)
    {file : ImportFile} :
    finishTexts s = .ok file ↔ (∃ raw ∈ texts, (codeOf raw).readable = true) ∧
      file = {
        format := if s.anyMigration then .googleExport else .qrImage
        items := numbered (itemsOf texts)
        batch := s.batch } := by
  have hitems : s.items = itemsOf texts := h.items
  have hparsed : s.anyParsed = true ↔ ∃ raw ∈ texts, (codeOf raw).readable = true := by
    refine h.parsed.trans (or_iff_right ?_)
    exact Bool.false_ne_true
  have hkept := h.kept nofun
  rw [finishTexts, ← hparsed, ← hitems]
  by_cases hread : s.anyParsed = true
  · have hcode : ¬ s.anyOtpauth = false := by
      obtain ⟨raw, hmem, hraw⟩ := hparsed.mp hread
      have hsome : s.anyOtpauth = true := by
        exact h.otpauth.mpr (.inr ⟨raw, hmem, isCode_of_readable hraw⟩)
      rw [hsome]
      exact Bool.noConfusion
    rw [if_neg hcode, hread]
    dsimp only
    rw [Except.ok.injEq]
    exact ⟨fun heq => ⟨rfl, heq.symm⟩, fun heq => heq.2.symm⟩
  · refine ⟨fun hok => ?_, fun hok => absurd hok.1 hread⟩
    split at hok
    · cases hok
    · rename_i hcode
      rcases hkept (eq_true_of_ne_false hcode) with hparse | herr
      · exact absurd hparse hread
      · obtain ⟨e, he⟩ := Option.ne_none_iff_exists'.mp herr
        rw [Bool.eq_false_iff.mpr hread, he] at hok
        cases hok

/-- **When an image is read**: some code is readable, the codes fit, and nothing stands behind
codes that fill the file. -/
theorem fileFromTexts_ok_iff (texts : List RustStr) :
    (∃ file, fileFromTexts texts = .ok file) ↔ (∃ raw ∈ texts, (codeOf raw).readable = true) ∧
      Fits texts ∧ ((itemsOf texts).length = MAX_ENTRIES → EndsInCode texts) := by
  have hstart := @foldlM_ok_iff texts {} (Nat.zero_le _)
  rw [show (({} : TextsState).items.length) = 0 from rfl, Nat.zero_add] at hstart
  constructor
  · rintro ⟨file, hfile⟩
    obtain ⟨s, hfold, hfinish⟩ := bind_eq_ok.mp hfile
    obtain ⟨hall, hle, hends⟩ := hstart.mp ⟨s, hfold⟩
    exact ⟨((finishTexts_ok_iff (foldlM_read hfold)).mp hfinish).1, ⟨hall, hle⟩, hends⟩
  · rintro ⟨hreadable, ⟨hall, hle⟩, hends⟩
    obtain ⟨s, hfold⟩ := hstart.mpr ⟨hall, hle, hends⟩
    have hfinish := (finishTexts_ok_iff (foldlM_read hfold)).mpr ⟨hreadable, rfl⟩
    exact ⟨_, bind_eq_ok.mpr ⟨s, hfold, hfinish⟩⟩

theorem fileFromTexts_items {texts : List RustStr} {file : ImportFile}
    (h : fileFromTexts texts = .ok file) : file.items = numbered (itemsOf texts) := by
  obtain ⟨s, hfold, hfinish⟩ := bind_eq_ok.mp h
  rw [((finishTexts_ok_iff (foldlM_read hfold)).mp hfinish).2]

theorem entry_numbered (items : List ImportItem) :
    (numbered items).map ImportItem.entry = items.map ImportItem.entry := by
  rw [numbered, List.map_map]
  conv_rhs => rw [← List.zipIdx_map_fst 0 items, List.map_map]
  rfl

theorem index_numbered {items : List ImportItem} {i : Nat} {item : ImportItem}
    (h : (numbered items)[i]? = some item) : item.index = i := by
  rw [numbered, List.getElem?_map, List.getElem?_zipIdx] at h
  obtain ⟨pair, hpair, rfl⟩ := Option.map_eq_some_iff.mp h
  obtain ⟨inner, -, rfl⟩ := Option.map_eq_some_iff.mp hpair
  exact Nat.zero_add i

/-! ### The same texts as a list -/

theorem trim_concat {s : RustStr} {c : Char} (hc : RustStr.isWhitespace c = true) :
    RustStr.trim (s ++ [c]) = RustStr.trim s := by
  rw [RustStr.trim, RustStr.trim, RustStr.trimStart, RustStr.trimStart, List.dropWhile_append]
  cases hdrop : s.dropWhile RustStr.isWhitespace with
  | nil =>
      rw [List.dropWhile_cons_of_pos hc]
      rfl
  | cons first rest => exact List.rdropWhile_concat_pos _ _ _ hc

theorem trim_append {s w : RustStr} (hw : ∀ c ∈ w, RustStr.isWhitespace c = true) :
    RustStr.trim (s ++ w) = RustStr.trim s := by
  induction w generalizing s with
  | nil => rw [List.append_nil]
  | cons c w ih =>
      obtain ⟨hc, hrest⟩ := List.forall_mem_cons.mp hw
      rw [List.append_cons, ih hrest, trim_concat hc]

theorem trim_trimEnd (s : RustStr) : RustStr.trim (RustStr.trimEnd s) = RustStr.trim s := by
  have hsplit : s = RustStr.trimEnd s ++ s.rtakeWhile RustStr.isWhitespace :=
    List.rdropWhile_append_rtakeWhile.symm
  conv_rhs => rw [hsplit]
  refine (trim_append fun c hc => ?_).symm
  rw [List.rtakeWhile, List.mem_reverse] at hc
  exact List.mem_takeWhile_imp hc

/-- The 2FA texts, one in each line. -/
def listOf (texts : List RustStr) : RustStr :=
  (texts.filter fun raw => (codeOf raw).isCode).flatMap (· ++ ['\n'])

/-- Two items with the same entry, or with the two readers' own words for an export that cannot be
read. There is no other difference between them. -/
inductive SameEntry (a b : ImportItem) : Prop where
  | same : a.entry = b.entry → SameEntry a b
  | damaged : a.entry = damagedItem.entry → b.entry = .error
      (.malformed "the Google Authenticator export couldn't be read") → SameEntry a b

theorem not_blank {raw : RustStr} (hcode : (codeOf raw).isCode = true) :
    Bulk.isBlankOrComment raw.trim = false := by
  rw [codeOf] at hcode
  generalize RustStr.trim raw = text at hcode ⊢
  cases text with
  | nil => cases hcode
  | cons c rest =>
      refine Bool.eq_false_iff.mpr fun hblank => ?_
      have hc : c = '#' := by
        rw [Bulk.isBlankOrComment, RustStr.startsWith, List.isEmpty_cons, Bool.false_or,
          List.isPrefixOf_cons_cons, Bool.and_eq_true, beq_iff_eq] at hblank
        exact hblank.1.symm
      subst hc
      cases hcode

/-- A line that is one of the codes gives the code's entries. -/
theorem lineItems_code {raw line : RustStr} (htrim : line.trim = raw.trim)
    (hcode : (codeOf raw).isCode = true) (hfit : codeOf raw ≠ .oversized) (i : Nat) :
    List.Forall₂ SameEntry (codeOf raw).items (Bulk.lineItems (line, i)) := by
  have hblank := not_blank hcode
  rw [Bulk.lineItems]
  dsimp only
  rw [htrim, hblank, if_neg Bool.false_ne_true]
  rw [codeOf] at hcode hfit ⊢
  by_cases hlink : Migration.isMigrationUri (RustStr.trim raw) = true
  · rw [if_pos hlink] at hfit ⊢
    rw [if_pos hlink]
    cases hread : Migration.parseWide (RustStr.trim raw) with
    | ok file =>
        refine List.forall₂_map_right_iff.mpr ?_
        exact List.forall₂_same.mpr fun item _ => .same rfl
    | error e =>
        cases e with
        | tooManyEntries =>
            rw [hread] at hfit
            exact absurd rfl hfit
        | _ => exact .cons (.damaged rfl rfl) .nil
  · rw [if_neg hlink] at hcode ⊢
    rw [if_neg hlink]
    by_cases hotp : RustStr.startsWith (RustStr.trim raw) "otpauth://".toList = true
    · rw [if_pos hotp]
      exact .cons (.same rfl) .nil
    · rw [if_neg hotp] at hcode
      cases hcode

theorem listStep_code {raw line : RustStr} (htrim : line.trim = raw.trim)
    (hcode : (codeOf raw).isCode = true) (hfit : codeOf raw ≠ .oversized) (i : Nat)
    {s : Bulk.ListState} (hroom : s.items.length + (codeOf raw).items.length ≤ MAX_ENTRIES) :
    ∃ t, Bulk.listStep s (line, i) = .ok t := by
  have hblank := not_blank hcode
  have hpos := items_pos hcode hfit
  have hmore : ¬ MAX_ENTRIES ≤ s.items.length := by omega
  rw [Bulk.listStep]
  dsimp only
  rw [htrim, hblank, if_neg Bool.false_ne_true, if_neg hmore]
  rw [codeOf] at hfit hroom
  by_cases hlink : Migration.isMigrationUri (RustStr.trim raw) = true
  · rw [if_pos hlink] at hfit hroom ⊢
    cases hread : Migration.parseWide (RustStr.trim raw) with
    | ok file =>
        rw [hread] at hroom
        refine ⟨_, if_neg (Nat.not_lt.mpr ?_)⟩
        exact hroom
    | error e =>
        cases e with
        | tooManyEntries =>
            rw [hread] at hfit
            exact absurd rfl hfit
        | _ => exact ⟨_, rfl⟩
  · rw [if_neg hlink]
    exact ⟨_, rfl⟩

theorem trim_lines {ts : List RustStr} (h : ∀ t ∈ ts, '\n' ∉ t) :
    (RustStr.lines (ts.flatMap (· ++ ['\n']))).map RustStr.trim = ts.map RustStr.trim := by
  have hlines : ∀ text, (RustStr.lines text).map RustStr.trim =
      (RustStr.trimmedLines text).map RustStr.trim := by
    intro text
    rw [RustStr.trimmedLines, List.map_map]
    exact List.map_congr_left fun l _ => (trim_trimEnd l).symm
  rw [hlines]
  induction ts with
  | nil => rfl
  | cons t ts ih =>
      obtain ⟨ht, hts⟩ := List.forall_mem_cons.mp h
      rw [List.flatMap_cons, List.append_assoc, List.singleton_append,
        RustStr.trimmedLines_cons ht, List.map_cons, List.map_cons, ih hts, trim_trimEnd]

/-- A list whose lines are codes is read through, with the codes' entries. -/
theorem foldlM_listStep_codes {ts ls : List RustStr} (hlines : ls.map RustStr.trim =
    ts.map RustStr.trim) (hcode : ∀ raw ∈ ts, (codeOf raw).isCode = true)
    (hfit : ∀ raw ∈ ts, codeOf raw ≠ .oversized) (k : Nat) {s : Bulk.ListState}
    (hroom : s.items.length + (itemsOf ts).length ≤ MAX_ENTRIES) :
    (∃ t, (ls.zipIdx k).foldlM Bulk.listStep s = .ok t) ∧
      List.Forall₂ SameEntry (itemsOf ts) ((ls.zipIdx k).flatMap Bulk.lineItems) := by
  induction ts generalizing ls s k with
  | nil =>
      obtain rfl : ls = [] := List.map_eq_nil_iff.mp hlines
      exact ⟨⟨s, rfl⟩, .nil⟩
  | cons raw ts ih =>
      obtain ⟨line, ls, rfl⟩ : ∃ line rest, ls = line :: rest := by
        cases ls with
        | nil => cases hlines
        | cons line rest => exact ⟨line, rest, rfl⟩
      obtain ⟨htrim, hrest⟩ := List.cons.inj hlines
      obtain ⟨hraw, hts⟩ := List.forall_mem_cons.mp hcode
      obtain ⟨hrawFit, htsFit⟩ := List.forall_mem_cons.mp hfit
      rw [itemsOf_cons, List.length_append] at hroom
      have hsame := lineItems_code htrim hraw hrawFit k
      obtain ⟨u, hstep⟩ := listStep_code htrim hraw hrawFit k (s := s) (by omega)
      have hlength : u.items.length = s.items.length + (codeOf raw).items.length := by
        rw [Bulk.listStep_items hstep, List.length_append, hsame.length_eq]
      obtain ⟨⟨t, hfold⟩, hall⟩ := ih hrest hts htsFit (k + 1) (s := u) (by omega)
      rw [List.zipIdx_cons, List.flatMap_cons, itemsOf_cons, List.foldlM_cons, hstep]
      exact ⟨⟨t, hfold⟩, List.rel_append hsame hall⟩

theorem itemsOf_filter (texts : List RustStr) :
    itemsOf (texts.filter fun raw => (codeOf raw).isCode) = itemsOf texts := by
  induction texts with
  | nil => rfl
  | cons raw rest ih =>
      rw [List.filter_cons, itemsOf_cons, ← ih]
      cases hcode : (codeOf raw).isCode with
      | true => exact itemsOf_cons _ _
      | false =>
          have hnone : (codeOf raw).items = [] := by
            refine List.eq_nil_of_length_eq_zero (Nat.eq_zero_of_not_pos fun hpos => ?_)
            rw [isCode_of_items hpos] at hcode
            cases hcode
          rw [hnone]
          rfl

/-- **A list of the same codes** is read, with the same entries. -/
theorem parseListWide_listOf {texts : List RustStr} (hfits : Fits texts)
    (hreadable : ∃ raw ∈ texts, (codeOf raw).readable = true) (hbreak : ∀ raw ∈ texts, '\n' ∉ raw) :
    ∃ file, Bulk.parseListWide (listOf texts) = .ok file ∧
      List.Forall₂ SameEntry (itemsOf texts) file.items := by
  have hcode : ∀ raw ∈ texts.filter fun raw => (codeOf raw).isCode, (codeOf raw).isCode = true :=
    fun raw hmem => (List.mem_filter.mp hmem).2
  have hfeed : ∀ raw ∈ texts.filter fun raw => (codeOf raw).isCode, '\n' ∉ raw :=
    fun raw hmem => hbreak raw (List.mem_filter.mp hmem).1
  have hlines := trim_lines hfeed
  obtain ⟨⟨t, hfold⟩, hall⟩ := foldlM_listStep_codes hlines hcode
    (fun raw hmem => hfits.1 raw (List.mem_filter.mp hmem).1) 0 (s := {}) (by
      rw [itemsOf_filter]
      exact Nat.zero_add _ ▸ hfits.2)
  rw [itemsOf_filter] at hall
  have hitems : t.items = _ := Bulk.foldlM_listStep_items hfold
  rw [List.nil_append] at hitems
  rw [← hitems] at hall
  have hne : ¬ t.items.isEmpty = true := by
    obtain ⟨raw, hmem, hraw⟩ := hreadable
    have hpos := items_pos (isCode_of_readable hraw) (hfits.1 raw hmem)
    intro hempty
    rw [List.isEmpty_iff] at hempty
    rw [hempty, List.forall₂_nil_right_iff, itemsOf, List.flatMap_eq_nil_iff] at hall
    rw [hall raw hmem] at hpos
    exact absurd hpos (Nat.lt_irrefl 0)
  refine ⟨{ format := .otpauthList, items := t.items, batch := t.batch }, ?_, hall⟩
  rw [Bulk.parseListWide]
  simp only [throw_bind, check_eq_ok, bind_eq_ok, pure_eq_ok]
  exact ⟨t, hfold, hne, rfl⟩

/-- What reading the codes of an image should be: it succeeds exactly when there is a code, not
every code is an unreadable export and the codes fit; then the items are the codes' in order,
numbered through; and a list of the same codes has the same entries. -/
def ReadsCodes (texts : List RustStr) : Prop :=
  ((∃ file, fileFromTexts texts = .ok file) ↔
    (∃ raw ∈ texts, (codeOf raw).isCode = true) ∧
    (¬ ∀ raw ∈ texts, (codeOf raw).isCode = true → (codeOf raw).unreadable = true) ∧ Fits texts) ∧
  ∀ file, fileFromTexts texts = .ok file →
    file.items = numbered (itemsOf texts) ∧
    file.items.map ImportItem.entry = (itemsOf texts).map ImportItem.entry ∧
    (∀ i : Nat, ∀ item : ImportItem, file.items[i]? = some item → item.index = i) ∧
    ((∀ raw ∈ texts, '\n' ∉ raw) → ∃ listed, Bulk.parseListWide (listOf texts) = .ok listed ∧
      List.Forall₂ SameEntry file.items listed.items)

theorem readable_iff {texts : List RustStr} (hfits : Fits texts) :
    (∃ raw ∈ texts, (codeOf raw).readable = true) ↔
      (∃ raw ∈ texts, (codeOf raw).isCode = true) ∧
      ¬ ∀ raw ∈ texts, (codeOf raw).isCode = true → (codeOf raw).unreadable = true := by
  constructor
  · rintro ⟨raw, hmem, hraw⟩
    refine ⟨⟨raw, hmem, isCode_of_readable hraw⟩, fun hall => ?_⟩
    have hbad := hall raw hmem (isCode_of_readable hraw)
    cases hcode : codeOf raw with
    | account label entry => rw [hcode] at hbad; cases hbad
    | exported file => rw [hcode] at hbad; cases hbad
    | _ => rw [hcode] at hraw; cases hraw
  · rintro ⟨-, hall⟩
    by_contra hnone
    refine hall fun raw hmem hcode => ?_
    have hover := hfits.1 raw hmem
    have hraw : ¬ (codeOf raw).readable = true := fun h => hnone ⟨raw, hmem, h⟩
    revert hcode hover hraw
    cases codeOf raw with
    | other => exact fun hcode => nomatch hcode
    | oversized => exact fun _ hover => absurd rfl hover
    | damaged e => exact fun _ _ _ => rfl
    | _ => exact fun _ _ hraw => absurd rfl hraw

theorem sameEntry_numbered {items listed : List ImportItem}
    (h : List.Forall₂ SameEntry items listed) : List.Forall₂ SameEntry (numbered items) listed := by
  have hentries : List.Forall₂ (· = ·) ((numbered items).map ImportItem.entry)
      (items.map ImportItem.entry) := by
    rw [entry_numbered]
    exact List.forall₂_same.mpr fun _ _ => rfl
  rw [List.forall₂_map_left_iff, List.forall₂_map_right_iff] at hentries
  refine Pass.forall₂_comp (fun a b c hab hbc => ?_) hentries h
  rcases hbc with hsame | ⟨hb, hc⟩
  · exact .same (hab.trans hsame)
  · exact .damaged (hab.trans hb) hc

/-- **When the codes of an image are read as they should be**: unless the readable codes that fit
fill a file to the last item and another text stands behind them. The texts are any, in any order
and number. -/
theorem readsCodes_iff (texts : List RustStr) :
    ReadsCodes texts ↔ ((∃ raw ∈ texts, (codeOf raw).readable = true) → Fits texts →
      (itemsOf texts).length = MAX_ENTRIES → EndsInCode texts) := by
  constructor
  · rintro ⟨hok, -⟩ hreadable hfits
    obtain ⟨hcode, hnotAll⟩ := (readable_iff hfits).mp hreadable
    exact ((fileFromTexts_ok_iff texts).mp (hok.mpr ⟨hcode, hnotAll, hfits⟩)).2.2
  · intro hcondition
    refine ⟨?_, fun file hfile => ?_⟩
    · rw [fileFromTexts_ok_iff]
      constructor
      · rintro ⟨hreadable, hfits, -⟩
        obtain ⟨hcode, hnotAll⟩ := (readable_iff hfits).mp hreadable
        exact ⟨hcode, hnotAll, hfits⟩
      · rintro ⟨hcode, hnotAll, hfits⟩
        have hreadable := (readable_iff hfits).mpr ⟨hcode, hnotAll⟩
        exact ⟨hreadable, hfits, hcondition hreadable hfits⟩
    · obtain ⟨hreadable, hfits, -⟩ := (fileFromTexts_ok_iff texts).mp ⟨file, hfile⟩
      have hitems := fileFromTexts_items hfile
      refine ⟨hitems, ?_, ?_, fun hbreak => ?_⟩
      · rw [hitems, entry_numbered]
      · intro i item hitem
        rw [hitems] at hitem
        exact index_numbered hitem
      · obtain ⟨listed, hlisted, hsame⟩ := parseListWide_listOf hfits hreadable hbreak
        exact ⟨listed, hlisted, hitems ▸ sameEntry_numbered hsame⟩

theorem length_itemsOf_replicate {raw : RustStr} {label : Option RustStr}
    {entry : Except Unusable ImportEntry} (h : codeOf raw = .account label entry) (n : Nat) :
    (itemsOf (List.replicate n raw)).length = n := by
  induction n with
  | zero => rfl
  | succ n ih =>
      rw [List.replicate_succ, itemsOf_cons, List.length_append, ih, h]
      exact Nat.add_comm 1 n

/-- As many codes as a file may have items, and a text that is no code behind them: refused. -/
theorem not_always_readsCodes :
    ¬ ReadsCodes (List.replicate 1000 "otpauth://totp/a?secret=AAAAAAAA".toList ++
      ["hello".toList]) := by
  have hcode : codeOf "otpauth://totp/a?secret=AAAAAAAA".toList = .account _ _ := rfl
  have hother : codeOf "hello".toList = .other := rfl
  generalize "otpauth://totp/a?secret=AAAAAAAA".toList = code at hcode ⊢
  generalize "hello".toList = text at hother ⊢
  have hmem : code ∈ List.replicate 1000 code ++ [text] :=
    List.mem_append_left _ (List.mem_replicate.mpr ⟨by decide, rfl⟩)
  have hlength : (itemsOf (List.replicate 1000 code ++ [text])).length = MAX_ENTRIES := by
    have hcodes := length_itemsOf_replicate hcode 1000
    have hrest : (itemsOf [text]).length = 0 := by
      rw [itemsOf_singleton, hother]
      rfl
    rw [itemsOf, List.flatMap_append, List.length_append]
    exact congrArg₂ (· + ·) hcodes hrest
  have hfits : Fits (List.replicate 1000 code ++ [text]) := by
    refine ⟨fun raw hraw => ?_, hlength.le⟩
    rcases List.mem_append.mp hraw with hraw | hraw
    · rw [List.eq_of_mem_replicate hraw, hcode]
      exact nofun
    · rw [List.mem_singleton.mp hraw, hother]
      exact nofun
  have hreadable : ∃ raw ∈ List.replicate 1000 code ++ [text], (codeOf raw).readable = true :=
    ⟨code, hmem, by rw [hcode]; rfl⟩
  rintro ⟨hok, -⟩
  obtain ⟨hsome, hnotAll⟩ := (readable_iff hfits).mp hreadable
  have hends := ((fileFromTexts_ok_iff _).mp (hok.mpr ⟨hsome, hnotAll, hfits⟩)).2.2 hlength
  have hlast := hends text List.getLast?_concat
  rw [hother] at hlast
  cases hlast

end Keyroost.Import.Qr
