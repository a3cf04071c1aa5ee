import Mathlib.Algebra.Order.BigOperators.Group.List
import Keyroost.Ctap.CborMeasure
import Keyroost.Ctap.LargeBlobs

/-!
# Reading the array back

The invariant of an array in memory is that each element is what its own bytes read as
(`WellFormed`). Parsing establishes it (`wellFormed_of_parse`), and what a well-formed array is
written as reads back as the same elements (`parse_arrayBytes`).

An element that `keyroost-ctap/src/large_blobs.rs` could read as an entry keeps its fields, any
other its raw bytes; an entry that keyroost made is written from its fields and has to read as that
entry again, which is `conformingEntry_encodeEntry`.
-/

namespace Keyroost.Ctap

open Cbor

/-! ### An element is what its bytes read as -/

namespace Item

/-- The element as it is read back: an entry built here gets the bytes it was
encoded as. -/
def asRead : Item → Item
  | entry e => entry { e with original := some (e.original.getD (encodeEntry e)) }
  | skipped raw => skipped raw

/-- What reading and the edits promise of an element. -/
def WellFormed : Item → Prop
  | entry e =>
      match e.original with
      | some raw => conformingEntry raw = some e ∧ Reader.Reads rawItem raw raw
      | none => e.nonce.length = 12
  | skipped raw => conformingEntry raw = none ∧ Reader.Reads rawItem raw raw

end Item

theorem original_of_conformingEntry {raw : List UInt8} {e : LargeBlobEntry}
    (h : conformingEntry raw = some e) : e.original = some raw := by
  unfold conformingEntry at h
  split at h
  · simp only [Option.bind_eq_bind, Option.pure_def, Option.bind_eq_some_iff,
      Option.some.injEq] at h
    obtain ⟨-, -, -, -, -, -, -, -, rfl⟩ := h
    rfl
  · cases h

/-- An element just read is what its bytes read as, and emits them again. -/
theorem wellFormed_itemOf {raw : List UInt8} (hraw : Reader.Reads rawItem raw raw) :
    (itemOf raw).WellFormed ∧ (itemOf raw).bytes = raw := by
  unfold itemOf
  cases hentry : conformingEntry raw with
  | none => exact ⟨⟨hentry, hraw⟩, rfl⟩
  | some e =>
      have horiginal := original_of_conformingEntry hentry
      simp only [Item.WellFormed, Item.bytes, horiginal, Option.getD_some]
      exact ⟨⟨hentry, hraw⟩, trivial⟩

/-! ### An encoded entry reads as that entry -/

theorem decode_of_encode {v : Value} (hsized : v.Sized)
    (hnesting : v.nesting ≤ DECODE_DEPTH_LIMIT) :
    decode (encode v) = .ok (v, []) := by
  have h := reads_encode hsized hnesting []
  rwa [List.append_nil] at h

/-- A required key's value, encoded, goes into its slot. -/
theorem entryStep_encode {f f' : EntryFields} {key : UInt64} {value : Value}
    (hkey : ENTRY_CIPHERTEXT ≤ key ∧ key ≤ ENTRY_ORIG_SIZE) (hsized : value.Sized)
    (hnesting : value.nesting ≤ DECODE_DEPTH_LIMIT) (hput : f.put key value = some f') :
    entryStep f (encode (.uInt key), encode value) = some f' := by
  unfold entryStep
  rw [decode_of_encode (v := .uInt key) trivial (Nat.zero_le _)]
  simp only [hkey, and_self, if_true, decode_of_encode hsized hnesting]
  exact hput

/-- No key or value of an encoded map is longer than the map. -/
theorem length_entry_le {entries : List (Value × Value)} {entry : Value × Value}
    (h : entry ∈ entries) :
    (encode entry.1).length + (encode entry.2).length ≤ (encode (.map entries)).length := by
  rw [encode, List.length_append, length_encodeEntries]
  have hle := List.le_sum_of_mem (List.mem_map_of_mem
    (f := fun entry : Value × Value => (encode entry.1).length + (encode entry.2).length) h)
  omega

/-- A byte string as short as its map is short enough. -/
theorem sized_of_entry {entries : List (Value × Value)} {key : Value} {b : List UInt8}
    (h : (key, .bytes b) ∈ entries) (hsize : (encode (.map entries)).length < 2 ^ 64) :
    (Value.bytes b).Sized := by
  have hle := length_entry_le h
  rw [encode, List.length_append] at hle
  change b.length < 2 ^ 64
  simp only [encode, List.length_append] at hle hsize
  omega

/-- What an encoded entry's fields are cut into. -/
theorem reads_splitMap_encodeEntry {e : LargeBlobEntry} (hsize : (encodeEntry e).length < 2 ^ 64) :
    Reader.Reads splitMap (encodeEntry e)
      [(encode (.uInt ENTRY_CIPHERTEXT), encode (.bytes e.ciphertext)),
        (encode (.uInt ENTRY_NONCE), encode (.bytes e.nonce)),
        (encode (.uInt ENTRY_ORIG_SIZE), encode (.uInt e.origSize))] := by
  refine reads_splitMap_encode (show 3 < 2 ^ 64 by decide) fun entry hentry => ?_
  have hle := length_entry_le hentry
  unfold encodeEntry at hsize
  have hraw {v : Value} (hsized : v.Sized) (hflat : v.nesting = 0)
      (hlen : (encode v).length < 2 ^ 64) : Reader.Reads rawItem (encode v) (encode v) :=
    reads_rawItem_encode hsized (by rw [hflat]; decide) hlen
  have hsized : entry.1.Sized ∧ entry.1.nesting = 0 ∧ entry.2.Sized ∧ entry.2.nesting = 0 := by
    have hbytes {key : Value} {b : List UInt8} (h : entry = (key, .bytes b)) :
        (Value.bytes b).Sized := sized_of_entry (h ▸ hentry) hsize
    simp only [List.mem_cons, List.not_mem_nil, or_false] at hentry
    rcases hentry with rfl | rfl | rfl
    · exact ⟨trivial, rfl, hbytes rfl, rfl⟩
    · exact ⟨trivial, rfl, hbytes rfl, rfl⟩
    · exact ⟨trivial, rfl, trivial, rfl⟩
  exact ⟨hraw hsized.1 hsized.2.1 (by omega), hraw hsized.2.2.1 hsized.2.2.2 (by omega)⟩

/-- An encoded entry reads as that entry. -/
theorem conformingEntry_encodeEntry {e : LargeBlobEntry} (hnonce : e.nonce.length = 12)
    (hsize : (encodeEntry e).length < 2 ^ 64) :
    conformingEntry (encodeEntry e) = some { e with original := some (encodeEntry e) } := by
  have hpairs := reads_splitMap_encodeEntry hsize []
  have hct : (Value.bytes e.ciphertext).Sized :=
    sized_of_entry (List.mem_cons_self ..) hsize
  have hnonceSized : (Value.bytes e.nonce).Sized := by
    change e.nonce.length < 2 ^ 64
    omega
  rw [List.append_nil] at hpairs
  unfold conformingEntry
  rw [hpairs]
  have hfirst := @entryStep_encode {} _ ENTRY_CIPHERTEXT _ (by decide) hct (Nat.zero_le _) rfl
  have hsecond := @entryStep_encode { ciphertext := some e.ciphertext }
    { ciphertext := some e.ciphertext, nonce := some e.nonce } ENTRY_NONCE _ (by decide)
    hnonceSized (Nat.zero_le _) (by simp [EntryFields.put, hnonce, ENTRY_NONCE, ENTRY_CIPHERTEXT])
  have hthird := @entryStep_encode { ciphertext := some e.ciphertext, nonce := some e.nonce } _
    ENTRY_ORIG_SIZE (.uInt e.origSize) (by decide) trivial (Nat.zero_le _) rfl
  simp only [List.foldlM_cons, hfirst, hsecond, hthird, List.foldlM_nil, Option.bind_eq_bind,
    Option.bind_some, Option.pure_def]

/-- A well-formed element's bytes are one item, and read as the element. -/
theorem itemOf_bytes {item : Item} (h : item.WellFormed) (hsize : item.bytes.length < 2 ^ 64) :
    itemOf item.bytes = item.asRead ∧ Reader.Reads rawItem item.bytes item.bytes := by
  cases item with
  | skipped raw =>
      obtain ⟨hentry, hraw⟩ := h
      refine ⟨?_, hraw⟩
      simp only [itemOf, Item.bytes, hentry, Item.asRead]
  | entry e =>
      cases horiginal : e.original with
      | some raw =>
          simp only [Item.WellFormed, horiginal] at h
          obtain ⟨hentry, hraw⟩ := h
          simp only [Item.bytes, Item.asRead, horiginal, Option.getD_some]
          refine ⟨?_, hraw⟩
          simp only [itemOf, hentry, ← horiginal]
      | none =>
          simp only [Item.WellFormed, horiginal] at h
          simp only [Item.bytes, horiginal, Option.getD_none] at hsize
          simp only [Item.bytes, Item.asRead, horiginal, Option.getD_none]
          refine ⟨?_, ?_⟩
          · simp only [itemOf, conformingEntry_encodeEntry h hsize]
          · refine reads_rawItem_encode ⟨show 3 < 2 ^ 64 by decide, ?_⟩
              (show 1 < DECODE_DEPTH_LIMIT by decide) hsize
            exact ⟨⟨trivial, sized_of_entry (List.mem_cons_self ..) hsize⟩,
              ⟨trivial, sized_of_entry (List.mem_cons_of_mem _ (List.mem_cons_self ..)) hsize⟩,
              ⟨trivial, trivial⟩, trivial⟩

/-! ### The array is what its bytes read as -/

theorem ne_nil_of_rawItem {raw : List UInt8} (h : Reader.Reads rawItem raw raw) : raw ≠ [] := by
  rintro rfl
  cases h []

namespace LargeBlobArray

/-- What reading and the edits promise of an array. -/
def WellFormed (a : LargeBlobArray) : Prop := ∀ item ∈ a.items, item.WellFormed

theorem parse_eq_ok {data : List UInt8} {a : LargeBlobArray} (h : parse data = .ok a) :
    ∃ elements rest, splitArray data = .ok (elements, rest) ∧ a.items = elements.map itemOf ∧
      a.trailing = rest.length := by
  unfold parse parseItems at h
  split at h
  · cases h
  · cases hsplit : splitArray data with
    | error e =>
        rw [hsplit] at h
        cases h
    | ok x =>
        obtain ⟨elements, rest⟩ := x
        rw [hsplit] at h
        obtain rfl := Except.ok.inj h
        exact ⟨elements, rest, rfl, rfl, rfl⟩

/-- An array just parsed is well-formed, and emits the elements it was read as. -/
theorem rawArray_of_parse {data : List UInt8} {a : LargeBlobArray} (h : parse data = .ok a) :
    a.rawArray = data := by
  rcases Checks.bind_eq_ok.mp h with ⟨⟨items, trailing⟩, -, ha⟩
  rw [← Except.ok.inj ha]

theorem wellFormed_of_parse {data : List UInt8} {a : LargeBlobArray} (h : parse data = .ok a) :
    a.WellFormed ∧ ∃ rest, splitArray data = .ok (a.items.map Item.bytes, rest) ∧
      a.trailing = rest.length := by
  obtain ⟨elements, rest, hsplit, hitems, htrailing⟩ := parse_eq_ok h
  obtain ⟨-, hraw⟩ := splitArray_eq_ok hsplit
  constructor
  · intro item hitem
    rw [hitems] at hitem
    obtain ⟨raw, hmem, rfl⟩ := List.mem_map.mp hitem
    exact (wellFormed_itemOf (hraw raw hmem)).1
  · have hbytes : a.items.map Item.bytes = elements := by
      rw [hitems, List.map_map]
      refine (List.map_congr_left fun raw hmem => ?_).trans (List.map_id elements)
      exact (wellFormed_itemOf (hraw raw hmem)).2
    exact ⟨rest, by rw [hbytes, hsplit], htrailing⟩

theorem head_arrayBytes (a : LargeBlobArray) :
    (a.arrayBytes.head?.map fun b : UInt8 => b >>> 5) = some 4 := by
  obtain ⟨low, argBytes, hlow, hheader, -⟩ := encodeHeader_eq MT_ARRAY a.items.length.toUInt64
  obtain ⟨hhigh, -⟩ := split_join (show MT_ARRAY < 8 by decide) hlow
  rw [arrayBytes, arrayHeader, hheader, List.cons_append, List.head?_cons, Option.map_some, hhigh]
  rfl

theorem length_bytes_le {a : LargeBlobArray} {item : Item} (h : item ∈ a.items) :
    item.bytes.length ≤ a.arrayBytes.length := by
  rw [arrayBytes, List.length_append, List.length_flatten, List.map_map]
  have hle := List.le_sum_of_mem (List.mem_map_of_mem
    (f := fun item : Item => item.bytes.length) h)
  exact hle.trans (Nat.le_add_left _ _)

/-- A well-formed array's bytes come apart into its elements' bytes. -/
theorem splitArray_arrayBytes {a : LargeBlobArray} (hwf : a.WellFormed)
    (hsize : a.arrayBytes.length < 2 ^ 64) :
    splitArray a.arrayBytes = .ok (a.items.map Item.bytes, []) := by
  have hraw : ∀ raw ∈ a.items.map Item.bytes, Reader.Reads rawItem raw raw := by
    intro raw hmem
    obtain ⟨item, hitem, rfl⟩ := List.mem_map.mp hmem
    exact (itemOf_bytes (hwf item hitem) ((length_bytes_le hitem).trans_lt hsize)).2
  have hcount : (a.items.map Item.bytes).length < 2 ^ 64 := by
    have hpos : ∀ n ∈ (a.items.map Item.bytes).map List.length, 1 ≤ n := by
      intro n hn
      obtain ⟨raw, hmem, rfl⟩ := List.mem_map.mp hn
      exact List.length_pos_iff.mpr (ne_nil_of_rawItem (hraw raw hmem))
    have hle := List.length_le_sum_of_one_le _ hpos
    rw [List.length_map, ← List.length_flatten] at hle
    rw [arrayBytes, List.length_append] at hsize
    omega
  have h := reads_splitArray hraw hcount []
  rwa [List.append_nil, List.length_map] at h

/-- What a well-formed array is written as reads back as its elements. -/
theorem parse_arrayBytes {a : LargeBlobArray} (hwf : a.WellFormed)
    (hsize : a.arrayBytes.length < 2 ^ 64) :
    parse a.arrayBytes =
      .ok { items := a.items.map Item.asRead, rawArray := a.arrayBytes, trailing := 0 } := by
  have hitems : (a.items.map Item.bytes).map itemOf = a.items.map Item.asRead := by
    rw [List.map_map]
    exact List.map_congr_left fun item hitem =>
      (itemOf_bytes (hwf item hitem) ((length_bytes_le hitem).trans_lt hsize)).1
  unfold parse parseItems
  rw [if_neg (not_not.mpr (head_arrayBytes a)), splitArray_arrayBytes hwf hsize]
  simp only [hitems, List.length_nil]
  rfl

end LargeBlobArray

end Keyroost.Ctap
