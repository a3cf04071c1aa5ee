import Keyroost.Library.Sift
import Keyroost.Ctap.LargeBlobReread

/-!
# Rewriting the large-blob array

Each edit of `keyroost-ctap/src/large_blobs.rs` names the elements it replaces or removes. The
others it moves without touching them, and keeps in their order; so through any sequence of edits,
an element that none of them named is written back byte for byte.

`names` says which elements an edit is about, `place` where another one goes, and `follow` is its
way through a list of edits. `getElem?_place` is the step, with one case for each edit, and
`getElem?_follow` and `follow_lt_follow` the run. An edit by number is explained without the
index function of the source by `names_by_number`. `rewrite_sound` adds what `LargeBlobReread`
says of writing the array and reading it back.
-/

namespace Keyroost.Ctap

open Cbor

/-- The operations that derive a changed copy from an array. Entries are counted over those that
have the form of an entry, so an index says nothing of its place among the others. -/
inductive Edit where
  | textNote (text : RustStr)
  | replacedNote (idx : Nat) (text : RustStr)
  | withoutEntry (idx : Nat)
  | label (label : Option DeviceLabel) (nonce : Nonce)
  | onlyLabel

theorem built_of_encodeEntry {c : Crypto} {l : DeviceLabel} {nonce : Nonce} {e : LargeBlobEntry}
    (h : DeviceLabel.encodeEntry c l nonce = .ok e) : e.original = none ∧ e.nonce = nonce.val := by
  obtain ⟨p, -, h⟩ := Checks.bind_eq_ok.mp h
  obtain rfl := Except.ok.inj h
  exact ⟨rfl, rfl⟩

namespace Edit

/-- The changed copy, if the operation succeeds. -/
def apply (c : Crypto) (a : LargeBlobArray) : Edit → Option LargeBlobArray
  | textNote text => some (a.withTextNote text)
  | replacedNote idx text => a.withReplacedNote idx text
  | withoutEntry idx => a.withoutEntry idx
  | label l nonce => (a.withLabel c l nonce).toOption
  | onlyLabel => some (a.onlyLabel c)

/-- The copy after a sequence of operations that all succeed. -/
def applyAll (c : Crypto) : List Edit → LargeBlobArray → Option LargeBlobArray
  | [], a => some a
  | e :: edits, a => (e.apply c a).bind (applyAll c edits)

/-! ### Which elements an edit names, and where the others go -/

/-- Whether an operation is about the element at `pos`: the entry with its number, the
name entries for a change of name, the other elements when only those are kept. -/
def names (c : Crypto) (a : LargeBlobArray) (pos : Nat) : Edit → Bool
  | textNote _ => false
  | replacedNote idx _ => a.itemIndex idx == some pos
  | withoutEntry idx => a.itemIndex idx == some pos
  | label _ _ => a.items[pos]?.any fun item => item.isLabelItem c
  | onlyLabel => a.items[pos]?.any fun item => !item.isLabelItem c

/-- The position at which a filter with positions finds its element numbered `idx`: it passes, and
so many before it do. -/
theorem getElem?_filter_zipIdx {α : Type} (p : α → Bool) (l : List α) (start idx pos : Nat) :
    (((l.zipIdx start).filter fun x => p x.1).map (·.2))[idx]? = some pos ↔
      ∃ i, pos = start + i ∧ l[i]?.any p = true ∧ (l.take i).countP p = idx := by
  induction l generalizing start idx with
  | nil => simp
  | cons x xs ih =>
      rw [List.zipIdx_cons]
      cases hx : p x with
      | false =>
          rw [List.filter_cons_of_neg (by simp [hx]), ih]
          constructor
          · rintro ⟨i, rfl, hany, hcount⟩
            exact ⟨i + 1, by omega, hany, by rw [List.take_succ_cons,
              List.countP_cons_of_neg (by simp [hx]), hcount]⟩
          · rintro ⟨_ | i, rfl, hany, hcount⟩
            · simp [hx] at hany
            · rw [List.take_succ_cons, List.countP_cons_of_neg (by simp [hx])] at hcount
              exact ⟨i, by omega, hany, hcount⟩
      | true =>
          rw [List.filter_cons_of_pos (by simp [hx]), List.map_cons]
          rcases idx with _ | idx
          · rw [List.getElem?_cons_zero, Option.some.injEq]
            constructor
            · rintro rfl
              exact ⟨0, rfl, hx, rfl⟩
            · rintro ⟨_ | i, rfl, -, hcount⟩
              · rfl
              · rw [List.take_succ_cons, List.countP_cons_of_pos hx] at hcount
                cases hcount
          · rw [List.getElem?_cons_succ, ih]
            constructor
            · rintro ⟨i, rfl, hany, hcount⟩
              exact ⟨i + 1, by omega, hany, by rw [List.take_succ_cons,
                List.countP_cons_of_pos hx, hcount]⟩
            · rintro ⟨_ | i, rfl, hany, hcount⟩
              · cases hcount
              · rw [List.take_succ_cons, List.countP_cons_of_pos hx] at hcount
                exact ⟨i, by omega, hany, Nat.succ.inj hcount⟩

theorem itemIndex_eq_some {a : LargeBlobArray} {idx pos : Nat} : a.itemIndex idx = some pos ↔
    a.items[pos]?.any (·.asEntry.isSome) = true ∧
      (a.items.take pos).countP (·.asEntry.isSome) = idx := by
  rw [LargeBlobArray.itemIndex, getElem?_filter_zipIdx (fun i : Item => i.asEntry.isSome)]
  constructor
  · rintro ⟨i, rfl, h⟩
    rwa [Nat.zero_add]
  · rintro h
    exact ⟨pos, (Nat.zero_add pos).symm, h⟩

/-- **An edit by number names the entry with that number**: the conforming entry that has so many
conforming ones before it in the array, and no other element. -/
theorem names_by_number (c : Crypto) (a : LargeBlobArray) (idx pos : Nat) (text : RustStr) :
    (names c a pos (replacedNote idx text) = true ↔
      a.items[pos]?.any (·.asEntry.isSome) = true ∧
        (a.items.take pos).countP (·.asEntry.isSome) = idx) ∧
    names c a pos (withoutEntry idx) = names c a pos (replacedNote idx text) :=
  ⟨beq_iff_eq.trans itemIndex_eq_some, rfl⟩

/-- A replaced element leaves its place to the new one; the other named elements leave
the array. -/
def removes (c : Crypto) (a : LargeBlobArray) (pos : Nat) (e : Edit) : Bool :=
  match e with
  | replacedNote _ _ => false
  | _ => e.names c a pos

/-- Where an element that is not named goes: past the elements before it that stay. -/
def place (c : Crypto) (a : LargeBlobArray) (e : Edit) (pos : Nat) : Nat :=
  Sift.rank (fun i => !e.removes c a i) pos

/-- Where the element at `pos` is after a sequence of operations, if none of them named
it. -/
def follow (c : Crypto) : List Edit → LargeBlobArray → Nat → Option Nat
  | [], _, pos => some pos
  | e :: edits, a, pos =>
      if e.names c a pos then none
      else (e.apply c a).bind fun b => follow c edits b (e.place c a pos)

/-! ### One edit -/

/-- What each operation makes of the items. -/
theorem items_of_apply {c : Crypto} {a b : LargeBlobArray} {e : Edit}
    (h : e.apply c a = some b) :
    b.trailing = a.trailing ∧
      match e with
      | textNote text => b.items = a.items ++ [.entry (.fromText text)]
      | replacedNote idx text =>
          ∃ pos, a.itemIndex idx = some pos ∧ b.items = a.items.set pos (.entry (.fromText text))
      | withoutEntry idx => ∃ pos, a.itemIndex idx = some pos ∧ b.items = a.items.eraseIdx pos
      | label _ nonce => ∃ fresh : List LargeBlobEntry,
          (∀ x ∈ fresh, x.original = none ∧ x.nonce = nonce.val) ∧
            b.items = (a.items.filter fun item => !item.isLabelItem c) ++ fresh.map .entry
      | onlyLabel => b.items = a.items.filter fun item => item.isLabelItem c := by
  cases e with
  | textNote text =>
      obtain rfl := Option.some.inj h
      exact ⟨rfl, rfl⟩
  | replacedNote idx text =>
      simp only [apply, LargeBlobArray.withReplacedNote, Option.bind_eq_bind,
        Option.bind_eq_some_iff] at h
      obtain ⟨x, -, h⟩ := h
      split at h
      · cases h
      · obtain ⟨pos, hpos, hb⟩ := Option.bind_eq_some_iff.mp h
        obtain rfl := Option.some.inj hb
        exact ⟨rfl, pos, hpos, rfl⟩
  | withoutEntry idx =>
      simp only [apply, LargeBlobArray.withoutEntry, Option.bind_eq_bind, Option.bind_eq_some_iff,
        Option.pure_def, Option.some.injEq] at h
      obtain ⟨pos, hpos, rfl⟩ := h
      exact ⟨rfl, pos, hpos, rfl⟩
  | label l nonce =>
      cases l with
      | none =>
          obtain rfl := Option.some.inj h
          exact ⟨rfl, [], by simp, by simp [LargeBlobArray.changed]⟩
      | some l =>
          simp only [apply, LargeBlobArray.withLabel] at h
          cases hentry : DeviceLabel.encodeEntry c l nonce with
          | error why =>
              rw [hentry] at h
              cases h
          | ok x =>
              rw [hentry] at h
              obtain rfl := Option.some.inj h
              obtain ⟨horiginal, hnonce⟩ := built_of_encodeEntry hentry
              exact ⟨rfl, [x], by simp [horiginal, hnonce], rfl⟩
  | onlyLabel =>
      obtain rfl := Option.some.inj h
      exact ⟨rfl, rfl⟩

theorem trailing_of_apply {c : Crypto} {a b : LargeBlobArray} {e : Edit}
    (h : e.apply c a = some b) : b.trailing = a.trailing :=
  (items_of_apply h).1

/-- A note built from text is well-formed. -/
theorem wellFormed_fromText (text : RustStr) : (Item.entry (.fromText text)).WellFormed := rfl

/-- Every operation keeps the invariant. -/
theorem wellFormed_of_apply {c : Crypto} {a b : LargeBlobArray} {e : Edit} (hwf : a.WellFormed)
    (h : e.apply c a = some b) : b.WellFormed := by
  obtain ⟨-, hitems⟩ := items_of_apply h
  unfold LargeBlobArray.WellFormed
  cases e with
  | textNote text =>
      rw [hitems]
      intro item hitem
      rcases List.mem_append.mp hitem with hold | hnew
      · exact hwf item hold
      · exact List.mem_singleton.mp hnew ▸ wellFormed_fromText text
  | replacedNote idx text =>
      obtain ⟨pos, -, hitems⟩ := hitems
      rw [hitems]
      intro item hitem
      rcases List.mem_or_eq_of_mem_set hitem with hold | rfl
      · exact hwf item hold
      · exact wellFormed_fromText text
  | withoutEntry idx =>
      obtain ⟨pos, -, hitems⟩ := hitems
      rw [hitems]
      exact fun item hitem => hwf item (List.mem_of_mem_eraseIdx hitem)
  | label l nonce =>
      obtain ⟨fresh, hfresh, hitems⟩ := hitems
      rw [hitems]
      intro item hitem
      rcases List.mem_append.mp hitem with hold | hnew
      · exact hwf item (List.mem_of_mem_filter hold)
      · obtain ⟨x, hx, rfl⟩ := List.mem_map.mp hnew
        obtain ⟨horiginal, hnonce⟩ := hfresh x hx
        simp only [Item.WellFormed, horiginal, hnonce]
        exact nonce.property
  | onlyLabel =>
      rw [hitems]
      exact fun item hitem => hwf item (List.mem_of_mem_filter hitem)

/-- Where a filter leaves an element that it does not take out. -/
theorem getElem?_filter_rank {items : List Item} {out : Item → Bool} {pos : Nat}
    (hpos : pos < items.length) (hstays : items[pos]?.any out = false) :
    (items.filter fun item => !out item)[Sift.rank (fun i => !items[i]?.any out) pos]? =
      items[pos]? := by
  have hin (i : Nat) (hi : i < items.length) :
      (!items[i]?.any out) = items[i]?.any fun item => !out item := by
    rw [List.getElem?_eq_getElem hi]
    rfl
  rw [Sift.rank_congr fun i hi => hin i (hi.trans hpos), Sift.filter_eq_sift]
  refine @Sift.getElem?_sift _ (fun i => items[i]?.any fun item => !out item) _ ?_ items
  rw [← hin pos hpos, hstays]
  rfl

/-- An element that an edit does not name is where `place` says, untouched. -/
theorem getElem?_place {c : Crypto} {a b : LargeBlobArray} {e : Edit} {pos : Nat}
    (h : e.apply c a = some b) (hpos : pos < a.items.length) (hnamed : e.names c a pos = false) :
    b.items[e.place c a pos]? = a.items[pos]? := by
  obtain ⟨-, hitems⟩ := items_of_apply h
  cases e with
  | textNote text =>
      have hplace : (textNote text).place c a pos = pos := Sift.rank_all pos
      rw [hitems, hplace, List.getElem?_append_left hpos]
  | replacedNote idx text =>
      obtain ⟨gone, hidx, hitems⟩ := hitems
      have hplace : (replacedNote idx text).place c a pos = pos := Sift.rank_all pos
      have hne : gone ≠ pos := by
        rintro rfl
        simp [names, hidx] at hnamed
      rw [hitems, hplace, List.getElem?_set_ne hne]
  | withoutEntry idx =>
      obtain ⟨gone, hidx, hitems⟩ := hitems
      have hplace : (withoutEntry idx).place c a pos = Sift.rank (fun i => i != gone) pos := by
        refine Sift.rank_congr fun i _ => ?_
        simp only [removes, names, hidx, bne]
        have hsame : (some gone == some i) = (i == gone) := by
          rw [Bool.eq_iff_iff, beq_iff_eq, beq_iff_eq, Option.some.injEq, eq_comm]
        rw [hsame]
      have hne : (pos != gone) = true := by
        rw [bne_iff_ne]
        rintro rfl
        simp [names, hidx] at hnamed
      rw [hitems, hplace, Sift.eraseIdx_eq_sift]
      exact @Sift.getElem?_sift _ (fun i => i != gone) _ hne a.items
  | label l nonce =>
      obtain ⟨fresh, -, hitems⟩ := hitems
      have hstays := getElem?_filter_rank hpos hnamed
      rw [hitems, List.getElem?_append_left]
      · exact hstays
      · rw [List.getElem?_eq_getElem hpos] at hstays
        exact (List.getElem?_eq_some_iff.mp hstays).1
  | onlyLabel =>
      have hstays := getElem?_filter_rank hpos hnamed
      simp only [Bool.not_not] at hstays
      rw [hitems]
      exact hstays

/-- Elements that an edit does not name keep their order. -/
theorem place_lt_place {c : Crypto} {a : LargeBlobArray} {e : Edit} {p q : Nat}
    (hnamed : e.names c a p = false) (h : p < q) : e.place c a p < e.place c a q := by
  refine Sift.rank_lt_rank ?_ h
  cases e with
  | replacedNote idx text => rfl
  | textNote text => rfl
  | withoutEntry idx => simp only [removes, hnamed, Bool.not_false]
  | label l nonce => simp only [removes, hnamed, Bool.not_false]
  | onlyLabel => simp only [removes, hnamed, Bool.not_false]

/-! ### A sequence of edits -/

theorem wellFormed_of_applyAll {c : Crypto} {edits : List Edit} {a b : LargeBlobArray}
    (hwf : a.WellFormed) (h : applyAll c edits a = some b) : b.WellFormed := by
  induction edits generalizing a with
  | nil => exact Option.some.inj h ▸ hwf
  | cons e edits ih =>
      obtain ⟨mid, hfirst, hrest⟩ := Option.bind_eq_some_iff.mp h
      exact ih (wellFormed_of_apply hwf hfirst) hrest

/-- Every copy carries the count of trailing bytes along. -/
theorem trailing_of_applyAll {c : Crypto} {edits : List Edit} {a b : LargeBlobArray}
    (h : applyAll c edits a = some b) : b.trailing = a.trailing := by
  induction edits generalizing a with
  | nil => rw [Option.some.inj h]
  | cons e edits ih =>
      obtain ⟨mid, hfirst, hrest⟩ := Option.bind_eq_some_iff.mp h
      rw [ih hrest, trailing_of_apply hfirst]

/-- The turn of `follow` for an edit that succeeds and does not name the element. -/
theorem follow_cons {c : Crypto} {e : Edit} {edits : List Edit} {a mid : LargeBlobArray}
    {pos pos' : Nat} (hfirst : e.apply c a = some mid)
    (h : follow c (e :: edits) a pos = some pos') :
    e.names c a pos = false ∧ follow c edits mid (e.place c a pos) = some pos' := by
  unfold follow at h
  split at h
  · cases h
  · rename_i hnamed
    rw [hfirst] at h
    exact ⟨Bool.eq_false_iff.mpr hnamed, h⟩

/-- An element that no edit of the sequence names ends up untouched. -/
theorem getElem?_follow {c : Crypto} {edits : List Edit} {a b : LargeBlobArray} {pos pos' : Nat}
    (h : applyAll c edits a = some b) (hpos : pos < a.items.length)
    (hfollow : follow c edits a pos = some pos') : b.items[pos']? = a.items[pos]? := by
  induction edits generalizing a pos with
  | nil =>
      obtain rfl := Option.some.inj h
      rw [Option.some.inj hfollow]
  | cons e edits ih =>
      obtain ⟨mid, hfirst, hrest⟩ := Option.bind_eq_some_iff.mp h
      obtain ⟨hnamed, hnext⟩ := follow_cons hfirst hfollow
      have hplace := getElem?_place hfirst hpos hnamed
      have hin : e.place c a pos < mid.items.length := by
        rw [List.getElem?_eq_getElem hpos] at hplace
        exact (List.getElem?_eq_some_iff.mp hplace).1
      rw [ih hrest hin hnext, hplace]

theorem follow_lt_follow {c : Crypto} {edits : List Edit} {a b : LargeBlobArray}
    {p q p' q' : Nat} (h : applyAll c edits a = some b) (hpq : p < q)
    (hp : follow c edits a p = some p') (hq : follow c edits a q = some q') : p' < q' := by
  induction edits generalizing a p q with
  | nil =>
      obtain rfl := Option.some.inj hp
      obtain rfl := Option.some.inj hq
      exact hpq
  | cons e edits ih =>
      obtain ⟨mid, hfirst, hrest⟩ := Option.bind_eq_some_iff.mp h
      obtain ⟨hnamed, hpnext⟩ := follow_cons hfirst hp
      obtain ⟨-, hqnext⟩ := follow_cons hfirst hq
      exact ih hrest (place_lt_place hnamed hpq) hpnext hqnext

end Edit

/-! ### Writing and reading back -/

namespace LargeBlobArray

/-- The checksum appended on writing is the one checked on reading. -/
theorem parseChecked_append (c : Crypto) (array : List UInt8) :
    parseChecked c (array ++ c.left16Sha256 array) = parse array := by
  have hlen : (array ++ c.left16Sha256 array).length - CHECKSUM_LEN = array.length := by
    rw [List.length_append, c.length_left16Sha256, CHECKSUM_LEN, Nat.add_sub_cancel]
  have hlong : ¬(array ++ c.left16Sha256 array).length < CHECKSUM_LEN := by
    rw [List.length_append, c.length_left16Sha256, CHECKSUM_LEN]
    omega
  unfold parseChecked
  simp only [hlen, List.take_left, List.drop_left, hlong, if_false, ne_eq, not_true_eq_false]

/-- **Rewriting keeps what it does not name.** Whatever sequence of edits is made to an
array that was read, what is written reads back as the edited elements; each element
that no edit named is among them byte for byte, in the same order; and an array read
with bytes after its end is never written again. -/
theorem rewrite_sound (c : Crypto) {data : List UInt8} {edits : List Edit} {a b : LargeBlobArray}
    (hparse : parse data = .ok a) (hedits : Edit.applyAll c edits a = some b) :
    (a.trailing = 0 → b.arrayBytes.length < 2 ^ 64 →
      ∃ stored again before after, b.serializeWithChecksum c = .ok stored ∧
        parseChecked c stored = .ok again ∧ again.items = b.items.map Item.asRead ∧
        again.trailing = 0 ∧ splitArray data = .ok (before, []) ∧
        splitArray again.rawArray = .ok (after, []) ∧
        (∀ pos pos', pos < before.length → Edit.follow c edits a pos = some pos' →
          after[pos']? = before[pos]?) ∧
        ∀ p q p' q', p < q → Edit.follow c edits a p = some p' →
          Edit.follow c edits a q = some q' → p' < q') ∧
    (0 < a.trailing → ∃ why, b.serializeWithChecksum c = .error why) := by
  have htrailing := Edit.trailing_of_applyAll hedits
  obtain ⟨hwf, rest, hbefore, hrest⟩ := wellFormed_of_parse hparse
  constructor
  · intro hzero hsize
    have hwf' := Edit.wellFormed_of_applyAll hwf hedits
    have hstored :
        b.serializeWithChecksum c = .ok (b.arrayBytes ++ c.left16Sha256 b.arrayBytes) := by
      rw [serializeWithChecksum, if_neg (by omega)]
    rw [hzero, eq_comm, List.length_eq_zero_iff] at hrest
    rw [hrest] at hbefore
    refine ⟨_, _, a.items.map Item.bytes, b.items.map Item.bytes, hstored,
      (parseChecked_append c _).trans (parse_arrayBytes hwf' hsize), rfl, rfl,
      hbefore, splitArray_arrayBytes hwf' hsize, ?_, ?_⟩
    · intro pos pos' hpos hfollow
      rw [List.length_map] at hpos
      rw [List.getElem?_map, List.getElem?_map, Edit.getElem?_follow hedits hpos hfollow]
    · exact fun p q p' q' => Edit.follow_lt_follow hedits
  · intro hextra
    rw [serializeWithChecksum, if_pos (by omega)]
    exact ⟨_, rfl⟩

/-! ### A sample array -/

/-- An integer, the note `hi`, and a tagged integer: the first and the last are no
entries. -/
def SAMPLE_ARRAY : List UInt8 :=
  [0x83, 0x01, 0xa3, 0x01, 0x46, 0x4b, 0x52, 0x31, 0x00, 0x68, 0x69, 0x02, 0x4c, 0, 0, 0, 0, 0, 0,
    0, 0, 0, 0, 0, 0, 0x03, 0x02, 0xc1, 0x00]

/-- The array with the note `hi` taken out and the note `yo` added. -/
def SAMPLE_REWRITTEN : List UInt8 :=
  [0x83, 0x01, 0xc1, 0x00, 0xa3, 0x01, 0x46, 0x4b, 0x52, 0x31, 0x00, 0x79, 0x6f, 0x02, 0x4c, 0, 0,
    0, 0, 0, 0, 0, 0, 0, 0, 0, 0, 0x03, 0x02]

/-- SHA-256 of the rewritten sample; the sample uses no other digest and no cipher. -/
def sampleDigest (data : List UInt8) : List UInt8 :=
  if data = SAMPLE_REWRITTEN then
    [0x59, 0x5a, 0x21, 0x5c, 0x8d, 0xfb, 0xd7, 0x27, 0xb1, 0xb7, 0x07, 0xc4, 0xc3, 0x4f, 0x67,
      0x88, 0x4d, 0xd4, 0x96, 0x61, 0x92, 0x26, 0x3f, 0xbd, 0x7d, 0x06, 0x89, 0xed, 0xcd, 0x1d,
      0x04, 0x34]
  else List.replicate 32 0

theorem length_sampleDigest (data : List UInt8) : (sampleDigest data).length = 32 := by
  rw [sampleDigest]
  split
  · rfl
  · exact List.length_replicate

def sampleCrypto : Crypto where
  sha256 := sampleDigest
  hmacSha256 _ _ := List.replicate 32 0
  aesGcmEncrypt _ _ plain _ := plain
  aesGcmDecrypt _ _ _ _ := none
  inflate _ _ := none
  length_sha256 := length_sampleDigest
  length_hmacSha256 := length_zeroMac

def sampleRead : LargeBlobArray where
  items := [.skipped [0x01],
    .entry {
      ciphertext := KR_NOTE_MAGIC ++ [0x68, 0x69]
      nonce := List.replicate 12 0
      origSize := 2
      original := some (SAMPLE_ARRAY.drop 2 |>.take 25) },
    .skipped [0xc1, 0x00]]
  rawArray := SAMPLE_ARRAY
  trailing := 0

def sampleEdits : List Edit := [.textNote ['y', 'o'], .withoutEntry 0]

def sampleEdited : LargeBlobArray where
  items := [.skipped [0x01], .skipped [0xc1, 0x00], .entry (.fromText ['y', 'o'])]
  rawArray := []
  trailing := 0

/-- The tagged integer has moved one place to the front, byte for byte. -/
theorem sample_rewritten :
    ∃ stored again before after, sampleEdited.serializeWithChecksum sampleCrypto = .ok stored ∧
      parseChecked sampleCrypto stored = .ok again ∧
      splitArray SAMPLE_ARRAY = .ok (before, []) ∧ splitArray again.rawArray = .ok (after, []) ∧
      after[1]? = before[2]? := by
  have hparse : parse SAMPLE_ARRAY = .ok sampleRead := by decide +kernel
  have hedits : Edit.applyAll sampleCrypto sampleEdits sampleRead = some sampleEdited := by
    decide
  have hsize : sampleEdited.arrayBytes.length < 2 ^ 64 := by decide
  have hfollow : Edit.follow sampleCrypto sampleEdits sampleRead 2 = some 1 := by decide
  obtain ⟨stored, again, before, after, hstored, hagain, -, -, hbefore, hafter, hkept, -⟩ :=
    (rewrite_sound sampleCrypto hparse hedits).1 rfl hsize
  have hlen : before.length = 3 := by
    have hsplit : splitArray SAMPLE_ARRAY =
        .ok ([[0x01], SAMPLE_ARRAY.drop 2 |>.take 25, [0xc1, 0x00]], []) := by decide +kernel
    rw [hsplit] at hbefore
    obtain ⟨rfl, -⟩ := Prod.mk.inj (Except.ok.inj hbefore)
    rfl
  exact ⟨stored, again, before, after, hstored, hagain, hbefore, hafter,
    hkept 2 1 (by omega) hfollow⟩

end LargeBlobArray

end Keyroost.Ctap
