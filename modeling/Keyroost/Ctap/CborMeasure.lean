import Keyroost.Ctap.CborRoundTrip

/-!
# Measuring an item

The measuring walk of `keyroost-ctap/src/cbor.rs` counts offsets from the start of an item;
underneath it is a reader that leaves an item behind, `skipAt`. Seen so, it is local: what it does
depends on the bytes it takes off and not on those after them. And it takes off exactly the bytes
that `decode` takes off where `decode` succeeds (`skipAt_of_decodeAt`).

`itemLenAt_eq` is the step from the offsets to the reader. From there on `splitArray` and
`splitMap` are said by the bytes of the items that they take off (`splitArray_eq_ok`), which is
what the large-blob array, whose elements are kept as raw bytes, is read and written with.
-/

namespace Keyroost.Ctap.Cbor

/-! ### Leaving an item behind -/

/-- What `itemLenAt` steps over after a header. -/
def skipBody (item : Reader CborError Unit) (h : Header) : Reader CborError Unit :=
  if h.major = MT_UINT ∨ h.major = MT_NINT then Reader.done ()
  else if h.major = MT_BYTES ∨ h.major = MT_TEXT then
    Reader.andThen (Reader.bytes .unexpectedEnd h.arg.toNat) fun _ => Reader.done ()
  else if h.major = MT_ARRAY then
    Reader.andThen (Reader.many item h.arg.toNat) fun _ => Reader.done ()
  else if h.major = MT_MAP then
    if 2 ^ 64 ≤ h.arg.toNat * 2 then fun _ => .error .unexpectedEnd
    else Reader.andThen (Reader.many item (h.arg.toNat * 2)) fun _ => Reader.done ()
  else if h.major = MT_TAG then item
  else Reader.done ()

def skipAt : Nat → Reader CborError Unit
  | 0 => fun _ => .error .depthLimit
  | left + 1 => Reader.andThen readHeader (skipBody (skipAt left))

theorem local_readBe (width : Nat) : Reader.Local (readBe width) :=
  (Reader.local_bytes _ _).andThen fun _ => Reader.local_done _

theorem local_readArg (additional : UInt8) : Reader.Local (readArg additional) :=
  (Reader.local_done _).ite ((local_readBe 1).ite ((local_readBe 2).ite ((local_readBe 4).ite
    ((local_readBe 8).ite (Reader.local_error _)))))

theorem local_splitFirst : Reader.Local splitFirst := by
  intro data b rest h
  cases data with
  | nil => cases h
  | cons b' data =>
      obtain ⟨rfl, rfl⟩ := Prod.mk.inj (Except.ok.inj h)
      exact ⟨[b'], rfl, fun _ => rfl⟩

theorem local_readHeader : Reader.Local readHeader :=
  local_splitFirst.andThen fun _ => (local_readArg _).andThen fun _ => Reader.local_done _

theorem local_skipBody {item : Reader CborError Unit} (hitem : Reader.Local item) (h : Header) :
    Reader.Local (skipBody item h) := by
  have hdone : Reader.Local (Reader.done () : Reader CborError Unit) := Reader.local_done ()
  refine hdone.ite (.ite ?_ (.ite ?_ (.ite (.ite (Reader.local_error _) ?_) (hitem.ite hdone))))
  · exact (Reader.local_bytes _ _).andThen fun _ => hdone
  · exact (hitem.many _).andThen fun _ => hdone
  · exact (hitem.many _).andThen fun _ => hdone

theorem local_skipAt (left : Nat) : Reader.Local (skipAt left) := by
  induction left with
  | zero => exact Reader.local_error _
  | succ left ih => exact local_readHeader.andThen fun h => local_skipBody ih h

/-! ### The offsets are the reader's -/

/-- The length of what a reader of items took off `data`. -/
def consumed {α : Type} (data : List UInt8) (x : Except CborError (α × List UInt8)) :
    Except CborError Nat :=
  (fun x => data.length - x.2.length) <$> x

theorem consumed_andThen_done {α β : Type} (r : Reader CborError α) (f : α → β)
    (whole data : List UInt8) :
    consumed whole (Reader.andThen r (fun a => Reader.done (f a)) data) =
      consumed whole (r data) := by
  unfold Reader.andThen consumed
  cases r data with
  | error e => rfl
  | ok x => rfl

theorem consumed_append {α : Type} (pre rest : List UInt8) (a : α) :
    consumed (pre ++ rest) (.ok (a, rest)) = .ok pre.length := by
  change Except.ok ((pre ++ rest).length - rest.length) = _
  rw [List.length_append, Nat.add_sub_cancel]

theorem measureItems_eq {left : Nat}
    (hitem : ∀ data, itemLenAt left data = consumed data (skipAt left data))
    (pre : List UInt8) (count : Nat) (rest : List UInt8) :
    measureItems (itemLenAt left) (pre ++ rest) count pre.length =
      consumed (pre ++ rest) (Reader.many (skipAt left) count rest) := by
  induction count generalizing pre rest with
  | zero => exact (consumed_append pre rest _).symm
  | succ count ih =>
      rw [measureItems, List.drop_left, hitem]
      cases hskip : skipAt left rest with
      | error e =>
          rw [Reader.many, Reader.andThen_of_error hskip]
          rfl
      | ok x =>
          obtain ⟨⟨⟩, mid⟩ := x
          obtain ⟨item, rfl, -⟩ := local_skipAt left _ _ _ hskip
          rw [Reader.many, Reader.andThen_of_ok hskip, consumed_andThen_done, consumed_append,
            ← List.append_assoc]
          change measureItems (itemLenAt left) (pre ++ item ++ mid) count
            (pre.length + item.length) = _
          rw [← List.length_append, ih]

/-- `itemLenAt` is the length of what the reader leaves behind. -/
theorem itemLenAt_eq (left : Nat) (data : List UInt8) :
    itemLenAt left data = consumed data (skipAt left data) := by
  induction left generalizing data with
  | zero => rfl
  | succ left ih =>
      rw [itemLenAt, skipAt]
      cases hheader : readHeader data with
      | error e =>
          rw [Reader.andThen_of_error hheader]
          rfl
      | ok x =>
          obtain ⟨h, rest⟩ := x
          obtain ⟨pre, rfl, -⟩ := local_readHeader _ _ _ hheader
          have hpre : (pre ++ rest).length - rest.length = pre.length := by
            rw [List.length_append, Nat.add_sub_cancel]
          rw [Reader.andThen_of_ok hheader]
          simp only [bind, Except.bind, hpre]
          unfold skipBody
          split
          · exact (consumed_append pre rest _).symm
          split
          · rw [consumed_andThen_done]
            unfold Reader.bytes
            rw [List.length_append]
            by_cases hshort : rest.length < h.arg.toNat
            · rw [if_pos (by omega), if_pos hshort]
              rfl
            · rw [if_neg (by omega), if_neg hshort]
              change _ = Except.ok ((pre ++ rest).length - (rest.drop h.arg.toNat).length)
              rw [List.length_append, List.length_drop]
              congr 1
              omega
          split
          · rw [measureItems_eq ih, consumed_andThen_done]
          split
          · split
            · rfl
            · rw [consumed_andThen_done]
              exact measureItems_eq ih pre _ rest
          split
          · rw [List.drop_left, ih]
            cases hskip : skipAt left rest with
            | error e => rfl
            | ok y =>
                obtain ⟨⟨⟩, mid⟩ := y
                obtain ⟨item, rfl, -⟩ := local_skipAt left _ _ _ hskip
                rw [consumed_append, ← List.append_assoc, consumed_append]
                simp only [List.length_append]
                rw [if_neg (by omega)]
          · exact (consumed_append pre rest _).symm

/-- A raw item is what the reader leaves behind at depth 1. -/
theorem rawItem_eq_ok {data raw rest : List UInt8} :
    rawItem data = .ok (raw, rest) ↔
      data = raw ++ rest ∧ Reader.Reads (skipAt DECODE_DEPTH_LIMIT) raw () := by
  unfold rawItem
  rw [itemLenAt_eq]
  constructor
  · intro h
    obtain ⟨len, hlen, h⟩ := Checks.bind_eq_ok.mp h
    obtain ⟨⟨⟨⟩, mid⟩, hskip, hlen⟩ := Checks.map_eq_ok.mp hlen
    obtain ⟨item, rfl, hreads⟩ := local_skipAt _ _ _ _ hskip
    have hitem : len = item.length := by
      rw [← hlen, List.length_append, Nat.add_sub_cancel]
    rw [hitem, List.take_left, List.drop_left] at h
    obtain ⟨rfl, rfl⟩ := Prod.mk.inj (Except.ok.inj h)
    exact ⟨rfl, hreads⟩
  · rintro ⟨rfl, hreads⟩
    rw [hreads rest, consumed_append]
    change Except.ok ((raw ++ rest).take raw.length, (raw ++ rest).drop raw.length) = _
    rw [List.take_left, List.drop_left]

theorem reads_rawItem {raw : List UInt8} :
    Reader.Reads rawItem raw raw ↔ Reader.Reads (skipAt DECODE_DEPTH_LIMIT) raw () :=
  ⟨fun h => (rawItem_eq_ok.mp (h [])).2, fun h _ => rawItem_eq_ok.mpr ⟨rfl, h⟩⟩

/-! ### What `decode` takes off -/

theorem encode_length_pos (v : Value) : 1 ≤ (encode v).length := by
  cases v with
  | uInt n => exact encodeHeader_length_pos _ _
  | nInt n => exact encodeHeader_length_pos _ _
  | bytes b =>
      rw [encode, List.length_append]
      exact (encodeHeader_length_pos _ _).trans (Nat.le_add_right _ _)
  | text s =>
      rw [encode, List.length_append]
      exact (encodeHeader_length_pos _ _).trans (Nat.le_add_right _ _)
  | array items =>
      rw [encode, List.length_append]
      exact (encodeHeader_length_pos _ _).trans (Nat.le_add_right _ _)
  | map entries =>
      rw [encode, List.length_append]
      exact (encodeHeader_length_pos _ _).trans (Nat.le_add_right _ _)
  | bool b =>
      rw [encode]
      exact le_rfl
  | null =>
      rw [encode]
      exact le_rfl

theorem simpleValue_rest {additional : UInt8} {mid rest : List UInt8} {v : Value}
    (h : simpleValue additional mid = .ok (v, rest)) : rest = mid := by
  unfold simpleValue at h
  split at h
  · exact (Prod.mk.inj (Except.ok.inj h)).2.symm
  split at h
  · exact (Prod.mk.inj (Except.ok.inj h)).2.symm
  split at h
  · exact (Prod.mk.inj (Except.ok.inj h)).2.symm
  · cases h

/-- After one header, the measuring reader leaves behind what the decoder read. -/
theorem skipBody_of_decodeBody {left : Nat} {h : Header} {v : Value} {mid rest : List UInt8}
    (hitem : ∀ data v rest, data.length < 2 ^ 64 → decodeAt left data = .ok (v, rest) →
      skipAt left data = .ok ((), rest))
    (hsize : mid.length < 2 ^ 64) (hbody : decodeBody (decodeAt left) h mid = .ok (v, rest)) :
    skipBody (skipAt left) h mid = .ok ((), rest) := by
  have hagree (data : List UInt8) (v : Value) (rest : List UInt8) (hdata : data.length < 2 ^ 64)
      (h : decodeAt left data = .ok (v, rest)) :
      rest.length < 2 ^ 64 ∧ ∃ u : Unit, skipAt left data = .ok (u, rest) := by
    have hle := length_encode_le h
    exact ⟨by omega, (), hitem data v rest hdata h⟩
  unfold decodeBody at hbody
  unfold skipBody
  split at hbody
  · rename_i hmajor
    rw [if_pos (.inl hmajor)]
    obtain ⟨-, rfl⟩ := Prod.mk.inj (Except.ok.inj hbody)
    rfl
  split at hbody
  · rename_i hmajor
    rw [if_pos (.inr hmajor)]
    obtain ⟨-, rfl⟩ := Prod.mk.inj (Except.ok.inj hbody)
    rfl
  rename_i huint hnint
  rw [if_neg (not_or.mpr ⟨huint, hnint⟩)]
  split at hbody
  · rename_i hmajor
    rw [if_pos (.inl hmajor)]
    obtain ⟨b, tail, hbytes, hbody⟩ := Reader.andThen_eq_ok.mp hbody
    obtain ⟨-, rfl⟩ := Prod.mk.inj (Except.ok.inj hbody)
    exact Reader.andThen_eq_ok.mpr ⟨b, tail, hbytes, rfl⟩
  split at hbody
  · rename_i hmajor
    rw [if_pos (.inr hmajor)]
    obtain ⟨b, tail, hbytes, htext⟩ := Reader.andThen_eq_ok.mp hbody
    obtain ⟨-, -, -, rfl⟩ := textOf_eq_ok htext
    exact Reader.andThen_eq_ok.mpr ⟨b, _, hbytes, rfl⟩
  rename_i hbytes htext
  rw [if_neg (not_or.mpr ⟨hbytes, htext⟩)]
  split at hbody
  · rename_i hmajor
    rw [if_pos hmajor]
    obtain ⟨items, tail, hmany, hbody⟩ := Reader.andThen_eq_ok.mp hbody
    obtain ⟨-, rfl⟩ := Prod.mk.inj (Except.ok.inj hbody)
    obtain ⟨units, hunits⟩ := Reader.many_agree hagree hsize hmany
    exact Reader.andThen_eq_ok.mpr ⟨units, tail, hunits, rfl⟩
  rename_i harray
  rw [if_neg harray]
  split at hbody
  · rename_i hmajor
    obtain ⟨entries, tail, hmany, hbody⟩ := Reader.andThen_eq_ok.mp hbody
    obtain ⟨-, rfl⟩ := Prod.mk.inj (Except.ok.inj hbody)
    have hitems := Reader.many_of_pairs hmany
    obtain ⟨units, hunits⟩ := Reader.many_agree hagree hsize hitems
    -- Every key and value took a byte, so their number fits.
    have hbyte (data : List UInt8) (v : Value) (rest : List UInt8)
        (h : decodeAt left data = .ok (v, rest)) : 1 + rest.length ≤ data.length := by
      have hle := length_encode_le h
      have hpos := encode_length_pos v
      omega
    have hcost := Reader.cost_of_many hbyte hitems
    rw [List.map_const', List.sum_replicate_nat, Reader.length_of_many hitems,
      mul_one] at hcost
    rw [if_pos hmajor, if_neg (by omega)]
    exact Reader.andThen_eq_ok.mpr ⟨units, tail, hunits, rfl⟩
  rename_i hmap
  rw [if_neg hmap]
  split at hbody
  · rename_i hmajor
    rw [if_neg (by rw [hmajor]; decide)]
    obtain rfl := simpleValue_rest hbody
    rfl
  · cases hbody

/-- Where `decode` reads an item, the measuring reader leaves behind the same bytes. -/
theorem skipAt_of_decodeAt {left : Nat} {data rest : List UInt8} {v : Value}
    (hsize : data.length < 2 ^ 64) (h : decodeAt left data = .ok (v, rest)) :
    skipAt left data = .ok ((), rest) := by
  induction left generalizing data v rest with
  | zero => cases h
  | succ left ih =>
      obtain ⟨header, mid, hheader, hbody⟩ := Reader.andThen_eq_ok.mp h
      have hle := length_header_le MT_UINT hheader
      refine Reader.andThen_eq_ok.mpr ⟨header, mid, hheader, ?_⟩
      exact skipBody_of_decodeBody (fun _ _ _ hdata h => ih hdata h) (by omega) hbody

/-- A value's encoding is a raw item. -/
theorem reads_rawItem_encode {v : Value} (hsized : v.Sized)
    (hnesting : v.nesting < DECODE_DEPTH_LIMIT)
    (hsize : (encode v).length < 2 ^ 64) : Reader.Reads rawItem (encode v) (encode v) := by
  have hdecode := reads_encode hsized (Nat.le_sub_one_of_lt hnesting) []
  rw [List.append_nil] at hdecode
  have hskip := skipAt_of_decodeAt hsize hdecode
  obtain ⟨pre, hpre, hreads⟩ := local_skipAt _ _ _ _ hskip
  rw [List.append_nil] at hpre
  rw [reads_rawItem, hpre]
  exact hreads

/-! ### Cutting a container into its items -/

/-- Items that read back are cut apart again behind a container's header. -/
theorem reads_splitItems {α : Type} {major : UInt8} (hmajor : major < 8)
    {item : Reader CborError α} {as : List α} {pres : List (List UInt8)}
    (hitems : List.Forall₂ (fun a pre => Reader.Reads item pre a) as pres)
    (hlen : as.length < 2 ^ 64) :
    Reader.Reads (splitItems major item)
      (encodeHeader major as.length.toUInt64 ++ pres.flatten) as := by
  obtain ⟨low, argBytes, hlow, hheader, harg⟩ := encodeHeader_eq major as.length.toUInt64
  obtain ⟨hhigh, hrest⟩ := split_join hmajor hlow
  have hmany := Reader.reads_many hitems
  rw [← toNat_length hlen] at hmany
  have hfirst : Reader.Reads splitFirst [major <<< 5 ||| low] (major <<< 5 ||| low) := fun _ => rfl
  rw [hheader, List.cons_append]
  refine hfirst.andThen ?_
  rw [hhigh, hrest, if_neg (not_not.mpr rfl)]
  exact harg.andThen hmany

theorem reads_splitArray {elements : List (List UInt8)}
    (hraw : ∀ raw ∈ elements, Reader.Reads rawItem raw raw) (hlen : elements.length < 2 ^ 64) :
    Reader.Reads splitArray (arrayHeader elements.length ++ elements.flatten) elements :=
  reads_splitItems (by decide) (List.forall₂_same.mpr hraw) hlen

/-- What `split_array` hands out measures as itself, and is all of the array. -/
theorem splitArray_eq_ok {data rest : List UInt8} {elements : List (List UInt8)}
    (h : splitArray data = .ok (elements, rest)) :
    elements.length < 2 ^ 64 ∧ ∀ raw ∈ elements, Reader.Reads rawItem raw raw := by
  unfold splitArray splitItems at h
  obtain ⟨b, mid, -, hitems⟩ := Reader.andThen_eq_ok.mp h
  split at hitems
  · cases hitems
  · obtain ⟨count, mid', -, hmany⟩ := Reader.andThen_eq_ok.mp hitems
    refine ⟨Reader.length_of_many hmany ▸ count.toNat_lt, ?_⟩
    exact Reader.forall_of_many
      (fun data raw rest h => reads_rawItem.mpr (rawItem_eq_ok.mp h).2) hmany

/-- The keys and values of an encoded map are cut apart as they were encoded. -/
theorem reads_splitMap_encode {entries : List (Value × Value)} (hlen : entries.length < 2 ^ 64)
    (hentries : ∀ entry ∈ entries, Reader.Reads rawItem (encode entry.1) (encode entry.1) ∧
      Reader.Reads rawItem (encode entry.2) (encode entry.2)) :
    Reader.Reads splitMap (encode (.map entries))
      (entries.map fun entry => (encode entry.1, encode entry.2)) := by
  have hitems : List.Forall₂ (fun a pre => Reader.Reads (Reader.pair rawItem rawItem) pre a)
      (entries.map fun entry => (encode entry.1, encode entry.2))
      (entries.map fun entry => encode entry.1 ++ encode entry.2) := by
    rw [List.forall₂_map_left_iff, List.forall₂_map_right_iff, List.forall₂_same]
    exact fun entry hentry => (hentries entry hentry).1.pair (hentries entry hentry).2
  have h := reads_splitItems (show MT_MAP < 8 by decide) hitems (by rwa [List.length_map])
  rwa [List.length_map, ← encodeEntries_eq] at h

end Keyroost.Ctap.Cbor
