import Keyroost.Ctap.Cbor

/-!
# The CBOR round trip

What `encode` writes, `decode` reads back, with nothing of the bytes after it, up to the decoder's
depth limit; and nothing shorter than `encode`'s bytes reads as the same value, so every header is
as short as it can be.

Two conditions of the code become predicates on values: `Sized`, that every length fits the header
it is written with, and `nesting`, the depth that a decoder needs. Both proofs are inductions over
the tree, with the encodings of the children as hypotheses: `reads_encode_step` for what is read
back, and `length_encode_le_of_body` for what is no shorter. `decode_encode` puts them together.
-/

namespace Keyroost.Ctap.Cbor

/-! ### Headers -/

/-- A first byte comes apart into the two parts it was put together from. -/
theorem split_join {major low : UInt8} (hmajor : major < 8) (hlow : low < 32) :
    (major <<< 5 ||| low) >>> 5 = major ∧ (major <<< 5 ||| low) &&& 0x1f = low := by
  have hall : ∀ m : Fin 8, ∀ l : Fin 32,
      (UInt8.ofNat m <<< 5 ||| UInt8.ofNat l) >>> 5 = UInt8.ofNat m ∧
        (UInt8.ofNat m <<< 5 ||| UInt8.ofNat l) &&& 0x1f = UInt8.ofNat l := by decide
  have h := hall ⟨major.toNat, UInt8.lt_iff_toNat_lt.mp hmajor⟩
    ⟨low.toNat, UInt8.lt_iff_toNat_lt.mp hlow⟩
  simpa only [UInt8.ofNat_toNat] using h

theorem reads_readBe {width : Nat} {n : UInt64} (hn : n.toNat < 256 ^ width) :
    Reader.Reads (readBe width) (Bytes.be width n.toNat) n := by
  have hbytes := Reader.reads_bytes CborError.unexpectedEnd (Bytes.be width n.toNat)
  rw [Bytes.length_be] at hbytes
  have h := hbytes.map fun a => UInt64.ofNat (Bytes.ofBe a)
  rwa [Bytes.ofBe_be hn, UInt64.ofNat_toNat] at h

/-- An argument in the first byte itself. -/
theorem reads_readArg_inline {low : UInt8} (hlow : low ≤ 23) :
    Reader.Reads (readArg low) [] low.toUInt64 := by
  rw [readArg, if_pos hlow]
  exact Reader.reads_done low.toUInt64

/-- A header is a first byte and the argument's bytes that it announces. -/
theorem encodeHeader_eq (major : UInt8) (n : UInt64) :
    ∃ low argBytes, low < 32 ∧ encodeHeader major n = (major <<< 5 ||| low) :: argBytes ∧
      Reader.Reads (readArg low) argBytes n := by
  simp only [encodeHeader]
  split
  · rename_i hn
    have hsmall : n.toNat < 24 := UInt64.lt_iff_toNat_lt.mp hn
    have hlow : n.toUInt8 ≤ 23 := by
      rw [UInt8.le_iff_toNat_le, UInt64.toNat_toUInt8]
      change n.toNat % 2 ^ 8 ≤ 23
      omega
    have hback : n.toUInt8.toUInt64 = n := by
      apply UInt64.toNat_inj.mp
      rw [UInt8.toNat_toUInt64, UInt64.toNat_toUInt8]
      omega
    have harg := reads_readArg_inline hlow
    rw [hback] at harg
    exact ⟨n.toUInt8, [], UInt8.lt_of_le_of_lt hlow (by decide), rfl, harg⟩
  split
  · rename_i hn
    have hbe : [n.toUInt8] = Bytes.be 1 n.toNat := by
      simp [Bytes.be, Bytes.le]
    rw [hbe]
    exact ⟨24, _, by decide, rfl, reads_readBe (Nat.lt_succ_of_le (UInt64.le_iff_toNat_le.mp hn))⟩
  split
  · rename_i hn
    exact ⟨25, _, by decide, rfl, reads_readBe (Nat.lt_succ_of_le (UInt64.le_iff_toNat_le.mp hn))⟩
  split
  · rename_i hn
    exact ⟨26, _, by decide, rfl, reads_readBe (Nat.lt_succ_of_le (UInt64.le_iff_toNat_le.mp hn))⟩
  · exact ⟨27, _, by decide, rfl, reads_readBe n.toNat_lt⟩

/-- A first byte and its argument read back, whatever the argument's width. -/
theorem reads_header {major low : UInt8} {argBytes : List UInt8} {arg : UInt64}
    (hmajor : major < 8) (hlow : low < 32) (harg : Reader.Reads (readArg low) argBytes arg) :
    Reader.Reads readHeader ((major <<< 5 ||| low) :: argBytes)
      { major, additional := low, arg } := by
  obtain ⟨hhigh, hrest⟩ := split_join hmajor hlow
  have hfirst : Reader.Reads splitFirst [major <<< 5 ||| low] (major <<< 5 ||| low) := fun _ => rfl
  refine hfirst.andThen ?_
  rw [hhigh, hrest]
  exact harg.map fun arg => ({ major, additional := low, arg } : Header)

theorem reads_encodeHeader {major : UInt8} (hmajor : major < 8) (n : UInt64) :
    ∃ additional,
      Reader.Reads readHeader (encodeHeader major n) { major, additional, arg := n } := by
  obtain ⟨low, argBytes, hlow, heq, harg⟩ := encodeHeader_eq major n
  rw [heq]
  exact ⟨low, reads_header hmajor hlow harg⟩

/-! ### Values within the limits -/

mutual

/-- How many containers a value's deepest item is in. -/
def Value.nesting : Value → Nat
  | .array items => nestingItems items
  | .map entries => nestingEntries entries
  | _ => 0

def nestingItems : List Value → Nat
  | [] => 0
  | v :: items => max (v.nesting + 1) (nestingItems items)

def nestingEntries : List (Value × Value) → Nat
  | [] => 0
  | (k, v) :: entries => max (max (k.nesting + 1) (v.nesting + 1)) (nestingEntries entries)

end

mutual

/-- Every string, array and map of the value has a length that fits 64 bits, as
every length in memory does. -/
def Value.Sized : Value → Prop
  | .bytes b => b.length < 2 ^ 64
  | .text s => s.len < 2 ^ 64
  | .array items => items.length < 2 ^ 64 ∧ SizedItems items
  | .map entries => entries.length < 2 ^ 64 ∧ SizedEntries entries
  | _ => True

def SizedItems : List Value → Prop
  | [] => True
  | v :: items => v.Sized ∧ SizedItems items

def SizedEntries : List (Value × Value) → Prop
  | [] => True
  | (k, v) :: entries => (k.Sized ∧ v.Sized) ∧ SizedEntries entries

end

/-- The items directly inside a value. -/
def Value.children : Value → List Value
  | .array items => items
  | .map entries => entries.flatMap fun entry => [entry.1, entry.2]
  | _ => []

theorem nesting_lt_of_mem_items {items : List Value} {w : Value} (hw : w ∈ items) :
    w.nesting < nestingItems items := by
  induction items with
  | nil => exact (List.not_mem_nil hw).elim
  | cons v items ih =>
      rw [nestingItems]
      rcases List.mem_cons.mp hw with rfl | hw
      · omega
      · have := ih hw
        omega

theorem nesting_lt_of_mem_entries {entries : List (Value × Value)} {w : Value}
    (hw : w ∈ entries.flatMap fun entry => [entry.1, entry.2]) :
    w.nesting < nestingEntries entries := by
  induction entries with
  | nil => exact (List.not_mem_nil hw).elim
  | cons entry entries ih =>
      obtain ⟨k, v⟩ := entry
      rw [nestingEntries]
      simp only [List.flatMap_cons, List.mem_append, List.mem_cons, List.not_mem_nil,
        or_false] at hw
      rcases hw with (rfl | rfl) | hw
      · omega
      · omega
      · have := ih hw
        omega

theorem nesting_lt_of_mem_children {v w : Value} (hw : w ∈ v.children) :
    w.nesting < v.nesting := by
  cases v with
  | array items => exact nesting_lt_of_mem_items hw
  | map entries => exact nesting_lt_of_mem_entries hw
  | _ => exact (List.not_mem_nil hw).elim

theorem sized_of_mem_items {items : List Value} {w : Value} (h : SizedItems items)
    (hw : w ∈ items) : w.Sized := by
  induction items with
  | nil => exact (List.not_mem_nil hw).elim
  | cons v items ih =>
      rcases List.mem_cons.mp hw with rfl | hw
      · exact h.1
      · exact ih h.2 hw

theorem sized_of_mem_entries {entries : List (Value × Value)} {w : Value}
    (h : SizedEntries entries) (hw : w ∈ entries.flatMap fun entry => [entry.1, entry.2]) :
    w.Sized := by
  induction entries with
  | nil => exact (List.not_mem_nil hw).elim
  | cons entry entries ih =>
      obtain ⟨k, v⟩ := entry
      simp only [List.flatMap_cons, List.mem_append, List.mem_cons, List.not_mem_nil,
        or_false] at hw
      rcases hw with (rfl | rfl) | hw
      · exact h.1.1
      · exact h.1.2
      · exact ih h.2 hw

theorem sized_of_mem_children {v w : Value} (h : v.Sized) (hw : w ∈ v.children) : w.Sized := by
  cases v with
  | array items => exact sized_of_mem_items h.2 hw
  | map entries => exact sized_of_mem_entries h.2 hw
  | _ => exact (List.not_mem_nil hw).elim

theorem encodeItems_eq (items : List Value) : encodeItems items = (items.map encode).flatten := by
  induction items with
  | nil => rw [encodeItems, List.map_nil, List.flatten_nil]
  | cons v items ih => rw [encodeItems, ih, List.map_cons, List.flatten_cons]

theorem encodeEntries_eq (entries : List (Value × Value)) :
    encodeEntries entries =
      (entries.map fun entry => encode entry.1 ++ encode entry.2).flatten := by
  induction entries with
  | nil => rw [encodeEntries, List.map_nil, List.flatten_nil]
  | cons entry entries ih =>
      obtain ⟨k, v⟩ := entry
      rw [encodeEntries, ih, List.map_cons, List.flatten_cons]

/-! ### The round trip -/

theorem toNat_length {n : Nat} (hn : n < 2 ^ 64) : n.toUInt64.toNat = n :=
  UInt64.toNat_ofNat_of_lt' hn

/-- An encoded item with a body: the header reads back, then the body does. -/
theorem reads_decodeAt {left : Nat} {major : UInt8} {n : UInt64} {body : List UInt8} {v : Value}
    (hmajor : major < 8)
    (hbody : ∀ additional,
      Reader.Reads (decodeBody (decodeAt left) { major, additional, arg := n }) body v) :
    Reader.Reads (decodeAt (left + 1)) (encodeHeader major n ++ body) v := by
  obtain ⟨additional, hheader⟩ := reads_encodeHeader hmajor n
  exact hheader.andThen (hbody additional)

/-- A simple value is its first byte. -/
theorem reads_simple {left : Nat} {additional : UInt8} {v : Value} (hlow : additional ≤ 23)
    (hvalue : simpleValue additional = Reader.done v) :
    Reader.Reads (decodeAt (left + 1)) [(MT_SIMPLE <<< 5) ||| additional] v := by
  have hheader := reads_header (show MT_SIMPLE < 8 by decide)
    (UInt8.lt_of_le_of_lt hlow (by decide)) (reads_readArg_inline hlow)
  have hbody : Reader.Reads
      (decodeBody (decodeAt left)
        { major := MT_SIMPLE, additional, arg := additional.toUInt64 }) [] v := by
    change Reader.Reads (simpleValue additional) [] v
    rw [hvalue]
    exact Reader.reads_done v
  exact hheader.andThen hbody

/-- One level of the round trip: a value reads back when its items do. -/
theorem reads_encode_step {left : Nat} {v : Value} (hsized : v.Sized)
    (hchildren : ∀ w ∈ v.children, Reader.Reads (decodeAt left) (encode w) w) :
    Reader.Reads (decodeAt (left + 1)) (encode v) v := by
  cases v with
  | uInt n =>
      have hbody (additional : UInt8) : Reader.Reads
          (decodeBody (decodeAt left) { major := MT_UINT, additional, arg := n }) [] (.uInt n) :=
        Reader.reads_done _
      have h := reads_decodeAt (by decide) hbody
      rwa [List.append_nil] at h
  | nInt n =>
      have hbody (additional : UInt8) : Reader.Reads
          (decodeBody (decodeAt left) { major := MT_NINT, additional, arg := n }) [] (.nInt n) :=
        Reader.reads_done _
      have h := reads_decodeAt (by decide) hbody
      rwa [List.append_nil] at h
  | bytes b =>
      refine reads_decodeAt (by decide) fun additional => ?_
      have hread := Reader.reads_bytes CborError.unexpectedEnd b
      rw [← toNat_length hsized] at hread
      exact hread.map Value.bytes
  | text s =>
      refine reads_decodeAt (by decide) fun additional => ?_
      have hread := Reader.reads_bytes CborError.unexpectedEnd s.asBytes
      rw [← toNat_length (show s.asBytes.length < 2 ^ 64 from hsized)] at hread
      have htext : Reader.Reads (textOf s.asBytes) [] (.text s) := by
        rw [textOf, Utf8.fromUtf8_asBytes]
        exact Reader.reads_done _
      have h := hread.andThen htext
      rwa [List.append_nil] at h
  | array items =>
      refine reads_decodeAt (by decide) fun additional => ?_
      have hmany : Reader.Reads (Reader.many (decodeAt left) items.length)
          (items.map encode).flatten items :=
        Reader.reads_many (List.forall₂_map_right_iff.mpr
          (List.forall₂_same.mpr hchildren))
      rw [← toNat_length hsized.1, ← encodeItems_eq] at hmany
      exact hmany.map Value.array
  | map entries =>
      refine reads_decodeAt (by decide) fun additional => ?_
      have hmany : Reader.Reads
          (Reader.many (Reader.pair (decodeAt left) (decodeAt left)) entries.length)
          (entries.map fun entry => encode entry.1 ++ encode entry.2).flatten entries := by
        refine Reader.reads_many (List.forall₂_map_right_iff.mpr
          (List.forall₂_same.mpr fun entry hentry => ?_))
        have hmem (w : Value) (hw : w ∈ [entry.1, entry.2]) : w ∈ (Value.map entries).children :=
          List.mem_flatMap.mpr ⟨entry, hentry, hw⟩
        exact (hchildren _ (hmem _ (by simp))).pair (hchildren _ (hmem _ (by simp)))
      rw [← toNat_length hsized.1, ← encodeEntries_eq] at hmany
      exact hmany.map Value.map
  | bool b =>
      cases b with
      | false => exact reads_simple (by decide) rfl
      | true => exact reads_simple (by decide) rfl
  | null => exact reads_simple (by decide) rfl

/-- What `encode` writes, the decoder reads back, given as many levels as the value
has. -/
theorem reads_encode {left : Nat} {v : Value} (hsized : v.Sized) (hnesting : v.nesting ≤ left) :
    Reader.Reads (decodeAt (left + 1)) (encode v) v := by
  induction left generalizing v with
  | zero =>
      refine reads_encode_step hsized fun w hw => ?_
      have := nesting_lt_of_mem_children hw
      omega
  | succ left ih =>
      refine reads_encode_step hsized fun w hw => ?_
      have := nesting_lt_of_mem_children hw
      exact ih (sized_of_mem_children hsized hw) (by omega)

/-! ### Nothing shorter reads the same -/

theorem length_encodeHeader (major : UInt8) (n : UInt64) :
    (encodeHeader major n).length =
      if n.toNat < 24 then 1
      else if n.toNat < 2 ^ 8 then 2
      else if n.toNat < 2 ^ 16 then 3
      else if n.toNat < 2 ^ 32 then 5
      else 9 := by
  simp only [encodeHeader, UInt64.lt_iff_toNat_lt, UInt64.le_iff_toNat_le, UInt64.reduceToNat]
  split
  · rfl
  split
  · rw [if_pos (by omega)]
    rfl
  split
  · rw [if_neg (by omega), if_pos (by omega), List.length_cons, Bytes.length_be]
  split
  · rw [if_neg (by omega), if_neg (by omega), if_pos (by omega), List.length_cons,
      Bytes.length_be]
  · rw [if_neg (by omega), if_neg (by omega), if_neg (by omega), List.length_cons,
      Bytes.length_be]

theorem readBe_eq_ok {width : Nat} {rest tail : List UInt8} {arg : UInt64}
    (h : readBe width rest = .ok (arg, tail)) :
    arg.toNat < 256 ^ width ∧ rest.length = width + tail.length := by
  obtain ⟨a, mid, hbytes, hdone⟩ := Reader.andThen_eq_ok.mp h
  obtain ⟨rfl, rfl⟩ := Reader.bytes_eq_ok.mp hbytes
  obtain ⟨rfl, rfl⟩ := Prod.mk.inj (Except.ok.inj hdone)
  refine ⟨?_, List.length_append⟩
  rw [UInt64.toNat_ofNat']
  exact (Nat.mod_le _ _).trans_lt (Bytes.ofBe_lt a)

/-- The argument's own bytes are at least as many as the shortest header has. -/
theorem length_header_le_of_readArg (major : UInt8) {additional : UInt8} {rest tail : List UInt8}
    {arg : UInt64} (h : readArg additional rest = .ok (arg, tail)) :
    (encodeHeader major arg).length + tail.length ≤ 1 + rest.length := by
  rw [length_encodeHeader]
  unfold readArg at h
  split at h
  · rename_i hlow
    obtain ⟨rfl, rfl⟩ := Prod.mk.inj (Except.ok.inj h)
    have hsmall : additional.toUInt64.toNat ≤ 23 := by
      rw [UInt8.toNat_toUInt64]
      exact UInt8.le_iff_toNat_le.mp hlow
    rw [if_pos (by omega)]
  split at h
  · obtain ⟨harg, hlen⟩ := readBe_eq_ok h
    split_ifs <;> omega
  split at h
  · obtain ⟨harg, hlen⟩ := readBe_eq_ok h
    split_ifs <;> omega
  split at h
  · obtain ⟨harg, hlen⟩ := readBe_eq_ok h
    split_ifs <;> omega
  split at h
  · obtain ⟨harg, hlen⟩ := readBe_eq_ok h
    split_ifs <;> omega
  · cases h

/-- No header that reads as `arg` is shorter than the one `encode` writes. -/
theorem length_header_le {h : Header} {data rest : List UInt8} (major : UInt8)
    (hread : readHeader data = .ok (h, rest)) :
    (encodeHeader major h.arg).length + rest.length ≤ data.length := by
  obtain ⟨b, mid, hfirst, hread⟩ := Reader.andThen_eq_ok.mp hread
  obtain ⟨arg, mid', harg, hread⟩ := Reader.andThen_eq_ok.mp hread
  obtain ⟨rfl, rfl⟩ := Prod.mk.inj (Except.ok.inj hread)
  cases data with
  | nil => cases hfirst
  | cons b' data =>
      obtain ⟨rfl, rfl⟩ := Prod.mk.inj (Except.ok.inj hfirst)
      have hle := length_header_le_of_readArg major harg
      rw [List.length_cons]
      simp only
      omega

theorem encodeHeader_length_pos (major : UInt8) (n : UInt64) :
    1 ≤ (encodeHeader major n).length := by
  rw [length_encodeHeader]
  split_ifs <;> omega

theorem length_encodeItems (items : List Value) :
    (encodeItems items).length = (items.map fun v => (encode v).length).sum := by
  rw [encodeItems_eq, List.length_flatten, List.map_map]
  rfl

theorem length_encodeEntries (entries : List (Value × Value)) :
    (encodeEntries entries).length =
      (entries.map fun entry => (encode entry.1).length + (encode entry.2).length).sum := by
  rw [encodeEntries_eq, List.length_flatten, List.map_map]
  congr 1
  exact List.map_congr_left fun entry _ => List.length_append

theorem ofNat_toNat_of_length {n : Nat} {arg : UInt64} (h : n = arg.toNat) :
    n.toUInt64 = arg := by
  rw [h]
  exact UInt64.ofNat_toNat

theorem textOf_eq_ok {b tail rest : List UInt8} {v : Value} (h : textOf b tail = .ok (v, rest)) :
    ∃ s : RustStr, b = s.asBytes ∧ v = .text s ∧ rest = tail := by
  unfold textOf at h
  cases hs : Utf8.fromUtf8 b with
  | none =>
      rw [hs] at h
      cases h
  | some s =>
      rw [hs] at h
      obtain ⟨rfl, rfl⟩ := Prod.mk.inj (Except.ok.inj h)
      exact ⟨s, (Utf8.asBytes_of_fromUtf8 hs).symm, rfl, rfl⟩

/-- After a header that reads as `h`, the body's value is never encoded in more bytes
than the header and the body took. -/
theorem length_encode_le_of_body {left : Nat} {h : Header} {v : Value} {mid rest : List UInt8}
    (hitem : ∀ data v rest, decodeAt left data = .ok (v, rest) →
      (encode v).length + rest.length ≤ data.length)
    (hbody : decodeBody (decodeAt left) h mid = .ok (v, rest)) :
    ∃ major, (encode v).length + rest.length ≤ (encodeHeader major h.arg).length + mid.length := by
  unfold decodeBody at hbody
  split at hbody
  · obtain ⟨rfl, rfl⟩ := Prod.mk.inj (Except.ok.inj hbody)
    exact ⟨_, le_rfl⟩
  split at hbody
  · obtain ⟨rfl, rfl⟩ := Prod.mk.inj (Except.ok.inj hbody)
    exact ⟨_, le_rfl⟩
  split at hbody
  · obtain ⟨b, tail, hbytes, hbody⟩ := Reader.andThen_eq_ok.mp hbody
    obtain ⟨rfl, rfl⟩ := Prod.mk.inj (Except.ok.inj hbody)
    obtain ⟨hlen, rfl⟩ := Reader.bytes_eq_ok.mp hbytes
    refine ⟨MT_BYTES, ?_⟩
    rw [encode, ofNat_toNat_of_length hlen, List.length_append, List.length_append]
    omega
  split at hbody
  · obtain ⟨b, tail, hbytes, htext⟩ := Reader.andThen_eq_ok.mp hbody
    obtain ⟨hlen, rfl⟩ := Reader.bytes_eq_ok.mp hbytes
    obtain ⟨s, rfl, rfl, rfl⟩ := textOf_eq_ok htext
    refine ⟨MT_TEXT, ?_⟩
    rw [encode, RustStr.len, ofNat_toNat_of_length hlen, List.length_append, List.length_append]
    omega
  split at hbody
  · obtain ⟨items, tail, hmany, hbody⟩ := Reader.andThen_eq_ok.mp hbody
    obtain ⟨rfl, rfl⟩ := Prod.mk.inj (Except.ok.inj hbody)
    have hcost := Reader.cost_of_many hitem hmany
    refine ⟨MT_ARRAY, ?_⟩
    rw [encode, ofNat_toNat_of_length (Reader.length_of_many hmany), List.length_append,
      length_encodeItems]
    omega
  split at hbody
  · obtain ⟨entries, tail, hmany, hbody⟩ := Reader.andThen_eq_ok.mp hbody
    obtain ⟨rfl, rfl⟩ := Prod.mk.inj (Except.ok.inj hbody)
    have hpair (data : List UInt8) (entry : Value × Value) (rest : List UInt8)
        (h : Reader.pair (decodeAt left) (decodeAt left) data = .ok (entry, rest)) :
        (encode entry.1).length + (encode entry.2).length + rest.length ≤ data.length := by
      obtain ⟨k, mid, hk, h⟩ := Reader.andThen_eq_ok.mp h
      obtain ⟨v, mid', hv, h⟩ := Reader.andThen_eq_ok.mp h
      obtain ⟨rfl, rfl⟩ := Prod.mk.inj (Except.ok.inj h)
      have hk := hitem _ _ _ hk
      have hv := hitem _ _ _ hv
      simp only
      omega
    have hcost := Reader.cost_of_many hpair hmany
    refine ⟨MT_MAP, ?_⟩
    rw [encode, ofNat_toNat_of_length (Reader.length_of_many hmany), List.length_append,
      length_encodeEntries]
    omega
  split at hbody
  · refine ⟨MT_SIMPLE, ?_⟩
    have hpos := encodeHeader_length_pos MT_SIMPLE h.arg
    unfold simpleValue at hbody
    split at hbody
    · obtain ⟨rfl, rfl⟩ := Prod.mk.inj (Except.ok.inj hbody)
      rw [encode, List.length_singleton]
      omega
    split at hbody
    · obtain ⟨rfl, rfl⟩ := Prod.mk.inj (Except.ok.inj hbody)
      rw [encode, List.length_singleton]
      omega
    split at hbody
    · obtain ⟨rfl, rfl⟩ := Prod.mk.inj (Except.ok.inj hbody)
      rw [encode, List.length_singleton]
      omega
    · cases hbody
  · cases hbody

/-- Whatever bytes a value is decoded from, `encode` writes no more of them. -/
theorem length_encode_le {left : Nat} {data rest : List UInt8} {v : Value}
    (h : decodeAt left data = .ok (v, rest)) :
    (encode v).length + rest.length ≤ data.length := by
  induction left generalizing data v rest with
  | zero => cases h
  | succ left ih =>
      obtain ⟨header, mid, hheader, hbody⟩ := Reader.andThen_eq_ok.mp h
      obtain ⟨major, hle⟩ := length_encode_le_of_body (fun _ _ _ h => ih h) hbody
      exact hle.trans (length_header_le major hheader)

/-- **CBOR round trip.** A value nested no deeper than the decoder's limit reads back
from its encoding, whatever follows; each header is the shortest that reads as its
argument, and so no bytes that decode to the value are fewer than `encode`'s. -/
theorem decode_encode (v : Value) (hsized : v.Sized) (hnesting : v.nesting ≤ DECODE_DEPTH_LIMIT) :
    (∀ rest, decode (encode v ++ rest) = .ok (v, rest)) ∧
      (∀ major h data rest, readHeader data = .ok (h, rest) →
        (encodeHeader major h.arg).length + rest.length ≤ data.length) ∧
      ∀ data rest, decode data = .ok (v, rest) →
        (encode v).length + rest.length ≤ data.length :=
  ⟨reads_encode hsized hnesting, fun major _ _ _ => length_header_le major,
    fun _ _ => length_encode_le⟩

/-- `{1: [-1, "a"], 2: h'00'}`. -/
def smallMap : Value :=
  .map [(.uInt 1, .array [.nInt 0, .text ['a']]), (.uInt 2, .bytes [0])]

theorem smallMap_reads_back :
    smallMap.Sized ∧ smallMap.nesting ≤ DECODE_DEPTH_LIMIT ∧
      decode (encode smallMap ++ [0xff]) = .ok (smallMap, [0xff]) := by
  have hsized : smallMap.Sized := by
    simp [smallMap, Value.Sized, SizedEntries, SizedItems, RustStr.len, RustStr.asBytes,
      String.utf8EncodeChar]
  have hnesting : smallMap.nesting ≤ DECODE_DEPTH_LIMIT := by decide
  exact ⟨hsized, hnesting, (decode_encode smallMap hsized hnesting).1 [0xff]⟩

end Keyroost.Ctap.Cbor
