import Keyroost.Ctap.CborMeasure

/-!
# Splitting agrees with decoding

`itemLen`, `splitArray` and `splitMap` of `keyroost-ctap/src/cbor.rs` never interpret an item,
`decode` does. The two cut every input in the same places, and the measuring walk stays inside its
input and inside a fixed number of stack frames.

* A container's cut (`Cut`) is a header and its pieces, each a whole item that `decode` reads
  alone as it does in its place; `splitArray_agrees` and `splitMap_agrees` relate the cuts to the
  decoder.
* A second copy of the walk, in the monad `Walk`, has the indices, the subtractions and the
  additions of the source and gives nothing where one of them would panic or where the frames run
  out. `itemLenAt_of` and `splitItems_of` show that it always gives what the plain functions give.

`splitters_agree` states both for every input of a size that a slice can have.
-/

namespace Keyroost.Ctap.Cbor

/-! ### The depth a decoder needs is the depth that measuring needs -/

/-- What `item` reads and `skip` steps over ends in the same place, for data that fits. -/
def Alike (item item' : Reader CborError Value) (skip : Reader CborError Unit) : Prop :=
  ∀ data u rest, data.length < 2 ^ 64 → skip data = .ok (u, rest) →
    item data = item' data ∧
      ∀ v rest', item data = .ok (v, rest') → rest' = rest ∧ rest.length < 2 ^ 64

theorem Alike.pair {item item' : Reader CborError Value} {skip : Reader CborError Unit}
    (h : Alike item item' skip) {data rest : List UInt8} {u : Unit × Unit}
    (hdata : data.length < 2 ^ 64) (hskip : Reader.pair skip skip data = .ok (u, rest)) :
    Reader.pair item item data = Reader.pair item' item' data ∧
      ∀ v rest', Reader.pair item item data = .ok (v, rest') →
        rest' = rest ∧ rest.length < 2 ^ 64 := by
  obtain ⟨u₁, mid, hfirst, hsecond⟩ := Reader.andThen_eq_ok.mp hskip
  obtain ⟨u₂, mid', hlast, hdone⟩ := Reader.andThen_eq_ok.mp hsecond
  obtain ⟨-, rfl⟩ := Prod.mk.inj (Except.ok.inj hdone)
  obtain ⟨hagree, hrest⟩ := h data u₁ mid hdata hfirst
  rw [Reader.pair, Reader.pair]
  cases hread : item data with
  | error e =>
      rw [Reader.andThen_of_error hread, Reader.andThen_of_error (hagree.symm.trans hread)]
      exact ⟨rfl, nofun⟩
  | ok x =>
      obtain ⟨k, after⟩ := x
      obtain ⟨rfl, hafter⟩ := hrest k after hread
      rw [Reader.andThen_of_ok hread, Reader.andThen_of_ok (hagree.symm.trans hread)]
      obtain ⟨hagree', hrest'⟩ := h after u₂ mid' hafter hlast
      refine ⟨congrArg (fun r => r >>= _) hagree', fun v rest' hpair => ?_⟩
      obtain ⟨value, after', hvalue, hpair⟩ := Reader.andThen_eq_ok.mp hpair
      obtain ⟨-, rfl⟩ := Prod.mk.inj (Except.ok.inj hpair)
      exact hrest' value after' hvalue

theorem decodeBody_array {item : Reader CborError Value} {header : Header}
    (hmajor : header.major = MT_ARRAY) : decodeBody item header =
      Reader.andThen (Reader.many item header.arg.toNat) fun items =>
        Reader.done (.array items) := by
  obtain ⟨major, additional, arg⟩ := header
  obtain rfl : major = MT_ARRAY := hmajor
  rfl

theorem decodeBody_map {item : Reader CborError Value} {header : Header}
    (hmajor : header.major = MT_MAP) : decodeBody item header =
      Reader.andThen (Reader.many (Reader.pair item item) header.arg.toNat) fun entries =>
        Reader.done (.map entries) := by
  obtain ⟨major, additional, arg⟩ := header
  obtain rfl : major = MT_MAP := hmajor
  rfl

theorem skipBody_array {skip : Reader CborError Unit} {header : Header}
    (hmajor : header.major = MT_ARRAY) : skipBody skip header =
      Reader.andThen (Reader.many skip header.arg.toNat) fun _ => Reader.done () := by
  obtain ⟨major, additional, arg⟩ := header
  obtain rfl : major = MT_ARRAY := hmajor
  rfl

theorem skipBody_map {skip : Reader CborError Unit} {header : Header}
    (hmajor : header.major = MT_MAP) : skipBody skip header =
      if 2 ^ 64 ≤ header.arg.toNat * 2 then fun _ => .error .unexpectedEnd
      else Reader.andThen (Reader.many skip (header.arg.toNat * 2)) fun _ => Reader.done () := by
  obtain ⟨major, additional, arg⟩ := header
  obtain rfl : major = MT_MAP := hmajor
  rfl

/-- After one header, items that are read alike make the same value. -/
theorem decodeBody_alike {item item' : Reader CborError Value} {skip : Reader CborError Unit}
    (h : Alike item item' skip) {header : Header} {mid rest : List UInt8}
    (hmid : mid.length < 2 ^ 64) (hskip : skipBody skip header mid = .ok ((), rest)) :
    decodeBody item header mid = decodeBody item' header mid := by
  by_cases harray : header.major = MT_ARRAY
  · rw [skipBody_array harray] at hskip
    obtain ⟨units, after, hmany, -⟩ := Reader.andThen_eq_ok.mp hskip
    rw [decodeBody_array harray, decodeBody_array harray]
    exact congrArg (fun r => r >>= _) (Reader.many_congr h hmid hmany)
  by_cases hmap : header.major = MT_MAP
  · rw [skipBody_map hmap] at hskip
    split at hskip
    · cases hskip
    · obtain ⟨units, after, hmany, -⟩ := Reader.andThen_eq_ok.mp hskip
      obtain ⟨pairs, hpairs⟩ := Reader.pairs_of_many hmany
      rw [decodeBody_map hmap, decodeBody_map hmap]
      exact congrArg (fun r => r >>= _)
        (Reader.many_congr (fun _ _ _ hdata hskip => h.pair hdata hskip) hmid hpairs)
  · simp only [decodeBody, if_neg harray, if_neg hmap]

/-- Where measuring gets through, more levels change nothing for the decoder. -/
theorem decodeAt_of_skipAt {left more : Nat} {data rest : List UInt8}
    (hsize : data.length < 2 ^ 64) (hmore : left ≤ more)
    (h : skipAt left data = .ok ((), rest)) : decodeAt more data = decodeAt left data := by
  induction left generalizing more data rest with
  | zero => cases h
  | succ left ih =>
      obtain ⟨more, rfl⟩ := Nat.exists_eq_succ_of_ne_zero (Nat.ne_zero_of_lt hmore)
      obtain ⟨header, mid, hheader, hbody⟩ := Reader.andThen_eq_ok.mp h
      have hmid : mid.length < 2 ^ 64 := by
        have hle := length_header_le MT_UINT hheader
        omega
      rw [decodeAt, decodeAt, Reader.andThen_of_ok hheader, Reader.andThen_of_ok hheader]
      refine decodeBody_alike (fun data u rest hdata hskip => ?_) hmid hbody
      have hagree := ih hdata (Nat.le_of_succ_le_succ hmore) hskip
      refine ⟨hagree, fun v rest' hread => ?_⟩
      rw [hagree] at hread
      have hleft := skipAt_of_decodeAt hdata hread
      rw [hskip] at hleft
      obtain ⟨-, rfl⟩ := Prod.mk.inj (Except.ok.inj hleft)
      have hle := length_encode_le hread
      exact ⟨rfl, by omega⟩

/-! ### Decoding is local -/

theorem local_textOf (b : List UInt8) : Reader.Local (textOf b) := by
  unfold textOf
  split
  · exact Reader.local_done _
  · exact Reader.local_error _

theorem local_simpleValue (additional : UInt8) : Reader.Local (simpleValue additional) :=
  (Reader.local_done _).ite ((Reader.local_done _).ite ((Reader.local_done _).ite
    (Reader.local_error _)))

theorem local_decodeBody {item : Reader CborError Value} (hitem : Reader.Local item) (h : Header) :
    Reader.Local (decodeBody item h) := by
  refine (Reader.local_done _).ite (.ite (Reader.local_done _) (.ite ?_ (.ite ?_ (.ite ?_
    (.ite ?_ ((local_simpleValue _).ite (Reader.local_error _)))))))
  · exact (Reader.local_bytes _ _).andThen fun _ => Reader.local_done _
  · exact (Reader.local_bytes _ _).andThen local_textOf
  · exact (hitem.many _).andThen fun _ => Reader.local_done _
  · exact ((hitem.pair hitem).many _).andThen fun _ => Reader.local_done _

theorem local_decodeAt (left : Nat) : Reader.Local (decodeAt left) := by
  induction left with
  | zero => exact Reader.local_error _
  | succ left ih => exact local_readHeader.andThen fun h => local_decodeBody ih h

/-! ### One piece -/

/-- A single item, as the splitters measure one. -/
def Single (piece : List UInt8) : Prop := Reader.Reads (skipAt DECODE_DEPTH_LIMIT) piece ()

/-- Inside a container a piece decodes to what it decodes to on its own. -/
theorem Single.decodes {piece : List UInt8} (h : Single piece) {tail mid : List UInt8} {v : Value}
    (hsize : (piece ++ tail).length < 2 ^ 64) :
    decodeAt DECODE_DEPTH_LIMIT (piece ++ tail) = .ok (v, mid) ↔
      mid = tail ∧ decode piece = .ok (v, []) := by
  have hpiece : piece.length < 2 ^ 64 := by
    rw [List.length_append] at hsize
    omega
  have halone := h []
  rw [List.append_nil] at halone
  have hdepth : decode piece = decodeAt DECODE_DEPTH_LIMIT piece :=
    decodeAt_of_skipAt hpiece (Nat.le_succ _) halone
  rw [hdepth]
  constructor
  · intro hread
    have hskip := skipAt_of_decodeAt hsize hread
    rw [h tail] at hskip
    obtain ⟨-, rfl⟩ := Prod.mk.inj (Except.ok.inj hskip)
    obtain ⟨pre, hpre, hreads⟩ := local_decodeAt _ _ _ _ hread
    obtain rfl := List.append_cancel_right hpre
    have hback := hreads []
    rw [List.append_nil] at hback
    exact ⟨rfl, hback⟩
  · rintro ⟨rfl, hread⟩
    obtain ⟨pre, hpre, hreads⟩ := local_decodeAt _ _ _ _ hread
    rw [List.append_nil] at hpre
    rw [hpre]
    exact hreads mid

theorem skipBody_tag {skip : Reader CborError Unit} {header : Header}
    (hmajor : header.major = MT_TAG) : skipBody skip header = skip := by
  obtain ⟨major, additional, arg⟩ := header
  obtain rfl : major = MT_TAG := hmajor
  rfl

/-- One more level changes nothing where measuring gets through. -/
theorem skipAt_succ {left : Nat} {data rest : List UInt8}
    (h : skipAt left data = .ok ((), rest)) : skipAt (left + 1) data = .ok ((), rest) := by
  induction left generalizing data rest with
  | zero => cases h
  | succ left ih =>
      obtain ⟨header, mid, hheader, hbody⟩ := Reader.andThen_eq_ok.mp h
      refine Reader.andThen_eq_ok.mpr ⟨header, mid, hheader, ?_⟩
      have hagree (data : List UInt8) (u : Unit) (rest : List UInt8) (_ : True)
          (hskip : skipAt left data = .ok (u, rest)) :
          True ∧ ∃ u : Unit, skipAt (left + 1) data = .ok (u, rest) := ⟨trivial, (), ih hskip⟩
      by_cases harray : header.major = MT_ARRAY
      · rw [skipBody_array harray] at hbody ⊢
        obtain ⟨units, after, hmany, hdone⟩ := Reader.andThen_eq_ok.mp hbody
        obtain ⟨units', hmany'⟩ := Reader.many_agree hagree trivial hmany
        refine Reader.andThen_eq_ok.mpr ⟨units', after, hmany', ?_⟩
        exact hdone
      by_cases hmap : header.major = MT_MAP
      · rw [skipBody_map hmap] at hbody ⊢
        split at hbody
        · cases hbody
        · rename_i hfew
          obtain ⟨units, after, hmany, hdone⟩ := Reader.andThen_eq_ok.mp hbody
          rw [if_neg hfew]
          obtain ⟨units', hmany'⟩ := Reader.many_agree hagree trivial hmany
          refine Reader.andThen_eq_ok.mpr ⟨units', after, hmany', ?_⟩
          exact hdone
      by_cases htag : header.major = MT_TAG
      · rw [skipBody_tag htag] at hbody ⊢
        exact ih hbody
      · rw [← hbody]
        simp only [skipBody, if_neg harray, if_neg hmap, if_neg htag]

theorem Single.itemLen_eq {piece : List UInt8} (h : Single piece) :
    itemLen piece = .ok piece.length := by
  have halone := h []
  rw [List.append_nil] at halone
  rw [itemLen, itemLenAt_eq, skipAt_succ halone]
  rfl

/-- A piece that decodes is used up. -/
theorem Single.decodes_whole {piece rest : List UInt8} {v : Value} (h : Single piece)
    (hsize : piece.length < 2 ^ 64) (hread : decode piece = .ok (v, rest)) : rest = [] := by
  have halone := h []
  rw [List.append_nil] at halone
  rw [decode, decodeAt_of_skipAt hsize (Nat.le_succ _) halone] at hread
  have hskip := skipAt_of_decodeAt hsize hread
  rw [halone] at hskip
  exact (Prod.mk.inj (Except.ok.inj hskip)).2.symm

theorem itemLen_of_decode {d rest : List UInt8} {v : Value} (hsize : d.length < 2 ^ 64)
    (h : decode d = .ok (v, rest)) : itemLen d = .ok (d.length - rest.length) := by
  rw [itemLen, itemLenAt_eq, skipAt_of_decodeAt hsize h]
  rfl

/-! ### A container cut into pieces -/

theorem splitItems_eq_ok {α : Type} {major : UInt8} {item : Reader CborError α}
    {d rest : List UInt8} {as : List α} : splitItems major item d = .ok (as, rest) ↔
      ∃ header mid, readHeader d = .ok (header, mid) ∧ header.major = major ∧
        Reader.many item header.arg.toNat mid = .ok (as, rest) := by
  constructor
  · intro h
    obtain ⟨b, after, hfirst, h⟩ := Reader.andThen_eq_ok.mp h
    split at h
    · cases h
    · rename_i hmajor
      obtain ⟨count, mid, harg, hmany⟩ := Reader.andThen_eq_ok.mp h
      exact ⟨_, mid, Reader.andThen_eq_ok.mpr ⟨b, after, hfirst,
        Reader.andThen_eq_ok.mpr ⟨count, mid, harg, rfl⟩⟩, not_not.mp hmajor, hmany⟩
  · rintro ⟨header, mid, hheader, hmajor, hmany⟩
    obtain ⟨b, after, hfirst, h⟩ := Reader.andThen_eq_ok.mp hheader
    obtain ⟨count, mid', harg, h⟩ := Reader.andThen_eq_ok.mp h
    obtain ⟨rfl, rfl⟩ := Prod.mk.inj (Except.ok.inj h)
    refine Reader.andThen_eq_ok.mpr ⟨b, after, hfirst, ?_⟩
    rw [if_neg (not_not.mpr hmajor)]
    exact Reader.andThen_eq_ok.mpr ⟨count, mid', harg, hmany⟩

theorem pieces_of_many {count : Nat} {mid rest : List UInt8} {pieces : List (List UInt8)}
    (h : Reader.many rawItem count mid = .ok (pieces, rest)) :
    mid = pieces.flatten ++ rest ∧ ∀ piece ∈ pieces, Single piece := by
  induction count generalizing mid pieces with
  | zero =>
      obtain ⟨rfl, rfl⟩ := Prod.mk.inj (Except.ok.inj h)
      exact ⟨rfl, nofun⟩
  | succ count ih =>
      obtain ⟨piece, after, hraw, h⟩ := Reader.andThen_eq_ok.mp h
      obtain ⟨pieces', after', hmany, h⟩ := Reader.andThen_eq_ok.mp h
      obtain ⟨rfl, rfl⟩ := Prod.mk.inj (Except.ok.inj h)
      obtain ⟨rfl, hpiece⟩ := rawItem_eq_ok.mp hraw
      obtain ⟨rfl, hpieces⟩ := ih hmany
      rw [List.flatten_cons, List.append_assoc, List.forall_mem_cons]
      exact ⟨rfl, hpiece, hpieces⟩

/-- The bytes are a header, the pieces in order and the rest; the header counts `count` of them;
and every piece is one item that is measured, and decoded if at all, from end to end, alone and
where it stands. -/
structure Cut (d : List UInt8) (major : UInt8) (count : Nat) (pieces : List (List UInt8))
    (rest : List UInt8) : Prop where
  bytes : ∃ header h, d = header ++ pieces.flatten ++ rest ∧
    readHeader d = .ok (h, pieces.flatten ++ rest) ∧ h.major = major ∧ h.arg.toNat = count
  measured : ∀ piece ∈ pieces, itemLen piece = .ok piece.length
  whole : ∀ piece ∈ pieces, ∀ v r, decode piece = .ok (v, r) → r = []
  inPlace : ∀ before piece after, pieces = before ++ piece :: after → ∀ v mid,
    decodeAt DECODE_DEPTH_LIMIT (piece ++ (after.flatten ++ rest)) = .ok (v, mid) ↔
      mid = after.flatten ++ rest ∧ decode piece = .ok (v, [])

theorem cut_of_header {d rest : List UInt8} {h : Header} {pieces : List (List UInt8)}
    (hsize : d.length < 2 ^ 64) (hheader : readHeader d = .ok (h, pieces.flatten ++ rest))
    (hsingle : ∀ piece ∈ pieces, Single piece) :
    Cut d h.major h.arg.toNat pieces rest := by
  obtain ⟨header, hd, -⟩ := local_readHeader _ _ _ hheader
  have hbody : (pieces.flatten ++ rest).length < 2 ^ 64 := by
    rw [hd, List.length_append] at hsize
    omega
  constructor
  · exact ⟨header, h, by rw [hd, List.append_assoc], hheader, rfl, rfl⟩
  · exact fun piece hpiece => (hsingle piece hpiece).itemLen_eq
  · intro piece hpiece v r hread
    have hle := (List.sublist_flatten_of_mem hpiece).length_le
    rw [List.length_append] at hbody
    exact (hsingle piece hpiece).decodes_whole (by omega) hread
  · rintro before piece after rfl v mid
    rw [List.flatten_append, List.flatten_cons] at hbody
    simp only [List.length_append] at hbody
    refine (hsingle piece (List.mem_append_right before List.mem_cons_self)).decodes ?_
    simp only [List.length_append]
    omega

theorem suffix_size (pre tail : List UInt8) (h : (pre ++ tail).length < 2 ^ 64) :
    tail.length < 2 ^ 64 := by
  rw [List.length_append] at h
  omega

/-- An array cut into pieces decodes to what its pieces decode to. -/
theorem splitArray_agrees {d rest : List UInt8} {pieces : List (List UInt8)}
    (hsize : d.length < 2 ^ 64) (h : splitArray d = .ok (pieces, rest)) :
    Cut d MT_ARRAY pieces.length pieces rest ∧
      ∀ v r, decode d = .ok (v, r) ↔ r = rest ∧ ∃ items, v = .array items ∧
        List.Forall₂ (fun piece e => decode piece = .ok (e, [])) pieces items := by
  obtain ⟨header, mid, hheader, hmajor, hmany⟩ := splitItems_eq_ok.mp h
  obtain ⟨rfl, hsingle⟩ := pieces_of_many hmany
  have hlen := Reader.length_of_many hmany
  have hcut := cut_of_header hsize hheader hsingle
  have hmid : (pieces.flatten ++ rest).length < 2 ^ 64 := by
    obtain ⟨pre, hd, -⟩ := local_readHeader _ _ _ hheader
    exact suffix_size pre _ (hd ▸ hsize)
  rw [hmajor, ← hlen] at hcut
  refine ⟨hcut, fun v r => ?_⟩
  have hitems {items : List Value} {r : List UInt8} :
      Reader.many (decodeAt DECODE_DEPTH_LIMIT) pieces.length (pieces.flatten ++ rest) =
        .ok (items, r) ↔ r = rest ∧
          List.Forall₂ (fun piece e => decode piece = .ok (e, [])) pieces items := by
    have hmap : pieces.flatten = (pieces.map id).flatten := by rw [List.map_id]
    rw [hmap] at hmid ⊢
    exact Reader.many_eq_ok_iff (P := fun data => data.length < 2 ^ 64) suffix_size
      (fun piece hpiece tail a mid hP => (hsingle piece hpiece).decodes hP) hmid
  rw [decode, decodeAt, Reader.andThen_of_ok hheader, decodeBody_array hmajor, ← hlen,
    Reader.andThen_eq_ok]
  constructor
  · rintro ⟨items, after, hread, hdone⟩
    obtain ⟨rfl, rfl⟩ := Prod.mk.inj (Except.ok.inj hdone)
    obtain ⟨hafter, hall⟩ := hitems.mp hread
    exact ⟨hafter, items, rfl, hall⟩
  · rintro ⟨rfl, items, rfl, hall⟩
    exact ⟨items, r, hitems.mpr ⟨rfl, hall⟩, rfl⟩

theorem pair_decodes {k v : List UInt8} (hk : Single k) (hv : Single v) {tail mid : List UInt8}
    {e : Value × Value} (hsize : ((k ++ v) ++ tail).length < 2 ^ 64) :
    Reader.pair (decodeAt DECODE_DEPTH_LIMIT) (decodeAt DECODE_DEPTH_LIMIT) ((k ++ v) ++ tail) =
        .ok (e, mid) ↔
      mid = tail ∧ decode k = .ok (e.1, []) ∧ decode v = .ok (e.2, []) := by
  rw [List.append_assoc] at hsize ⊢
  have hsecond := suffix_size k (v ++ tail) hsize
  rw [Reader.pair, Reader.andThen_eq_ok]
  constructor
  · rintro ⟨key, after, hkey, h⟩
    obtain ⟨value, after', hvalue, h⟩ := Reader.andThen_eq_ok.mp h
    obtain ⟨rfl, rfl⟩ := Prod.mk.inj (Except.ok.inj h)
    obtain ⟨rfl, hkeyAlone⟩ := (hk.decodes hsize).mp hkey
    obtain ⟨rfl, hvalueAlone⟩ := (hv.decodes hsecond).mp hvalue
    exact ⟨rfl, hkeyAlone, hvalueAlone⟩
  · rintro ⟨rfl, hkey, hvalue⟩
    exact ⟨e.1, v ++ mid, (hk.decodes hsize).mpr ⟨rfl, hkey⟩,
      Reader.andThen_eq_ok.mpr ⟨e.2, mid, (hv.decodes hsecond).mpr ⟨rfl, hvalue⟩, rfl⟩⟩

/-- The keys and values in the order they are written. -/
def rawPieces (pairs : List (List UInt8 × List UInt8)) : List (List UInt8) :=
  pairs.flatMap fun pair => [pair.1, pair.2]

theorem flatten_rawPieces (pairs : List (List UInt8 × List UInt8)) :
    (rawPieces pairs).flatten = (pairs.map fun pair => pair.1 ++ pair.2).flatten := by
  induction pairs with
  | nil => rfl
  | cons pair pairs ih =>
      change pair.1 ++ (pair.2 ++ (rawPieces pairs).flatten) = _
      rw [ih, List.map_cons, List.flatten_cons, List.append_assoc]

/-- A map cut into keys and values decodes to what they decode to. -/
theorem splitMap_agrees {d rest : List UInt8} {pairs : List (List UInt8 × List UInt8)}
    (hsize : d.length < 2 ^ 64) (h : splitMap d = .ok (pairs, rest)) :
    Cut d MT_MAP pairs.length (rawPieces pairs) rest ∧
      ∀ v r, decode d = .ok (v, r) ↔ r = rest ∧ ∃ entries, v = .map entries ∧
        List.Forall₂ (fun pair e => decode pair.1 = .ok (e.1, []) ∧ decode pair.2 = .ok (e.2, []))
          pairs entries := by
  obtain ⟨header, mid, hheader, hmajor, hmany⟩ := splitItems_eq_ok.mp h
  have hraw : Reader.many rawItem (header.arg.toNat * 2) mid = .ok (rawPieces pairs, rest) :=
    Reader.many_of_pairs hmany
  obtain ⟨rfl, hsingle⟩ := pieces_of_many hraw
  have hlen := Reader.length_of_many hmany
  have hcut := cut_of_header hsize hheader hsingle
  have hmid : ((rawPieces pairs).flatten ++ rest).length < 2 ^ 64 := by
    obtain ⟨pre, hd, -⟩ := local_readHeader _ _ _ hheader
    exact suffix_size pre _ (hd ▸ hsize)
  rw [hmajor, ← hlen] at hcut
  refine ⟨hcut, fun v r => ?_⟩
  have hentries {entries : List (Value × Value)} {r : List UInt8} :
      Reader.many (Reader.pair (decodeAt DECODE_DEPTH_LIMIT) (decodeAt DECODE_DEPTH_LIMIT))
          pairs.length ((rawPieces pairs).flatten ++ rest) = .ok (entries, r) ↔
        r = rest ∧ List.Forall₂ (fun pair e => decode pair.1 = .ok (e.1, []) ∧
          decode pair.2 = .ok (e.2, [])) pairs entries := by
    rw [flatten_rawPieces] at hmid ⊢
    refine Reader.many_eq_ok_iff (P := fun data => data.length < 2 ^ 64) suffix_size
      (fun pair hpair tail a mid hP => ?_) hmid
    have hmem (piece : List UInt8) (hpiece : piece ∈ [pair.1, pair.2]) : Single piece :=
      hsingle piece (List.mem_flatMap.mpr ⟨pair, hpair, hpiece⟩)
    exact pair_decodes (hmem _ List.mem_cons_self)
      (hmem _ (List.mem_cons_of_mem _ List.mem_cons_self)) hP
  rw [decode, decodeAt, Reader.andThen_of_ok hheader, decodeBody_map hmajor, ← hlen,
    Reader.andThen_eq_ok]
  constructor
  · rintro ⟨entries, after, hread, hdone⟩
    obtain ⟨rfl, rfl⟩ := Prod.mk.inj (Except.ok.inj hdone)
    obtain ⟨hafter, hall⟩ := hentries.mp hread
    exact ⟨hafter, entries, rfl, hall⟩
  · rintro ⟨rfl, entries, rfl, hall⟩
    exact ⟨entries, r, hentries.mpr ⟨rfl, hall⟩, rfl⟩

/-! ### The walk with its indices and its stack

The same functions with every slice and split checked, counting depths up as the source does,
and taking one stack frame a call. -/

/-- What a walk gives, or nothing where it would panic or run out of frames. -/
abbrev Walk := ExceptT CborError Option

namespace Walk

variable {α β : Type}

def panic : Walk α := ExceptT.mk none

def of (x : Except CborError α) : Walk α := ExceptT.mk (some x)

/-- `&data[pos..]`. -/
def sliceFrom (data : List UInt8) (pos : Nat) : Walk (List UInt8) :=
  if pos ≤ data.length then return data.drop pos else panic

/-- `data.split_at(len)`. -/
def splitAt (data : List UInt8) (len : Nat) : Walk (List UInt8 × List UInt8) :=
  if len ≤ data.length then return (data.take len, data.drop len) else panic

/-- The array of the first `width` bytes, each by its index. -/
def leading (a : List UInt8) (width : Nat) : Walk (List UInt8) :=
  if width ≤ a.length then return a.take width else panic

/-- `a - b` on lengths. -/
def sub (a b : Nat) : Walk Nat := if b ≤ a then return a - b else panic

/-- `a.checked_add(b)`, or the end of the input. -/
def checkedAdd (a b : Nat) : Walk Nat :=
  if a + b < 2 ^ 64 then return a + b else throw .unexpectedEnd

def readBe (width : Nat) (rest : List UInt8) : Walk (UInt64 × List UInt8) := do
  if rest.length < width then throw .unexpectedEnd
  let (a, r) ← splitAt rest width
  let bytes ← leading a width
  return (UInt64.ofNat (Bytes.ofBe bytes), r)

def readArg (additional : UInt8) (rest : List UInt8) : Walk (UInt64 × List UInt8) :=
  if additional ≤ 23 then return (additional.toUInt64, rest)
  else if additional = 24 then readBe 1 rest
  else if additional = 25 then readBe 2 rest
  else if additional = 26 then readBe 4 rest
  else if additional = 27 then readBe 8 rest
  else throw (.unsupportedAdditional additional)

/-- The loop over a container's items. -/
def measureItems (measure : List UInt8 → Walk Nat) (data : List UInt8) : Nat → Nat → Walk Nat
  | 0, pos => return pos
  | count + 1, pos => do
      let len ← measure (← sliceFrom data pos)
      let next ← checkedAdd pos len
      measureItems measure data count next

/-- The end of an item whose body is `len` bytes long. -/
def bodyFrom (data : List UInt8) (header len : Nat) : Walk Nat := do
  let total ← checkedAdd header len
  if data.length < total then throw .unexpectedEnd
  return total

/-- `item_len_at` with `frames` stack frames left for it. Slices, subtractions and frames are
checked ones, so that a panic of the source is an outcome here. -/
def itemLenAt : Nat → Nat → List UInt8 → Walk Nat
  | 0, _, _ => panic
  | frames + 1, depth, data => do
      if DECODE_DEPTH_LIMIT < depth then throw .depthLimit
      let (b, rest) ← of (splitFirst data)
      let (arg, after) ← readArg (b &&& 0x1f) rest
      let header ← sub data.length after.length
      if b >>> 5 = MT_UINT ∨ b >>> 5 = MT_NINT then return header
      else if b >>> 5 = MT_BYTES ∨ b >>> 5 = MT_TEXT then bodyFrom data header arg.toNat
      else if b >>> 5 = MT_ARRAY then
        measureItems (itemLenAt frames (depth + 1)) data arg.toNat header
      else if b >>> 5 = MT_MAP then do
        if 2 ^ 64 ≤ arg.toNat * 2 then throw .unexpectedEnd
        measureItems (itemLenAt frames (depth + 1)) data (arg.toNat * 2) header
      else if b >>> 5 = MT_TAG then do
        let len ← itemLenAt frames (depth + 1) (← sliceFrom data header)
        bodyFrom data header len
      else return header

def itemLen (frames : Nat) (data : List UInt8) : Walk Nat := itemLenAt frames 0 data

/-- An item of a container and the bytes after it. -/
def rawItem (frames : Nat) (rest : List UInt8) : Walk (List UInt8 × List UInt8) := do
  let len ← itemLenAt frames 1 rest
  splitAt rest len

def rawPair (frames : Nat) (rest : List UInt8) :
    Walk ((List UInt8 × List UInt8) × List UInt8) := do
  let (key, r) ← rawItem frames rest
  let (value, r) ← rawItem frames r
  return ((key, value), r)

/-- The loop of the splitters. -/
def items (item : List UInt8 → Walk (α × List UInt8)) :
    Nat → List UInt8 → Walk (List α × List UInt8)
  | 0, rest => return ([], rest)
  | count + 1, rest => do
      let (a, rest) ← item rest
      let (as, rest) ← items item count rest
      return (a :: as, rest)

def splitItems (major : UInt8) (item : List UInt8 → Walk (α × List UInt8)) (data : List UInt8) :
    Walk (List α × List UInt8) := do
  let (b, rest) ← of (splitFirst data)
  if b >>> 5 ≠ major then throw (.unsupportedType (b >>> 5))
  let (count, rest) ← readArg (b &&& 0x1f) rest
  items item count.toNat rest

def splitArray (frames : Nat) (data : List UInt8) : Walk (List (List UInt8) × List UInt8) :=
  splitItems MT_ARRAY (rawItem frames) data

def splitMap (frames : Nat) (data : List UInt8) :
    Walk (List (List UInt8 × List UInt8) × List UInt8) :=
  splitItems MT_MAP (rawPair frames) data

/-! ### Nothing panics -/

/-- What is checked on both sides goes on in step. -/
theorem of_bind {x : Except CborError α} {f : α → Walk β} {g : α → Except CborError β}
    (h : ∀ a, x = .ok a → f a = of (g a)) : (of x >>= f) = of (x >>= g) := by
  cases x with
  | error e => rfl
  | ok a => exact h a rfl

theorem sliceFrom_eq {data : List UInt8} {pos : Nat} (h : pos ≤ data.length) :
    sliceFrom data pos = of (.ok (data.drop pos)) := if_pos h

theorem splitAt_eq {data : List UInt8} {len : Nat} (h : len ≤ data.length) :
    splitAt data len = of (.ok (data.take len, data.drop len)) := if_pos h

theorem checkedAdd_eq {a b : Nat} (h : a + b < 2 ^ 64) : checkedAdd a b = of (.ok (a + b)) :=
  if_pos h

theorem readBe_eq (width : Nat) (rest : List UInt8) :
    readBe width rest = of (Cbor.readBe width rest) := by
  unfold readBe Cbor.readBe Reader.andThen Reader.bytes
  split
  · rfl
  · rename_i hlen
    have hwidth : width ≤ rest.length := Nat.le_of_not_lt hlen
    have hleading : leading (rest.take width) width = of (.ok (rest.take width)) := by
      have hlen : (rest.take width).length = width := List.length_take_of_le hwidth
      rw [leading, if_pos hlen.ge, List.take_of_length_le hlen.le]
      rfl
    change (splitAt rest width >>= _) = _
    rw [splitAt_eq hwidth]
    change (leading (rest.take width) width >>= _) = _
    rw [hleading]
    rfl

theorem readArg_eq (additional : UInt8) (rest : List UInt8) :
    readArg additional rest = of (Cbor.readArg additional rest) := by
  unfold readArg Cbor.readArg
  simp only [readBe_eq]
  split
  · rfl
  split
  · rfl
  split
  · rfl
  split
  · rfl
  split
  · rfl
  · rfl

theorem bodyFrom_of {data : List UInt8} (hsize : data.length < 2 ^ 63) (header len : Nat) :
    bodyFrom data header len =
      of (if data.length < header + len then .error .unexpectedEnd else .ok (header + len)) := by
  unfold bodyFrom
  by_cases hadd : header + len < 2 ^ 64
  · rw [checkedAdd_eq hadd]
    change (if _ then _ else _ : Walk Nat) = _
    split
    · rfl
    · rfl
  · rw [checkedAdd, if_neg hadd, if_pos (by omega)]
    rfl

theorem ite_of {α : Type} {c : Prop} [Decidable c] {w w' : Walk α} {x x' : Except CborError α}
    (h : w = of x) (h' : w' = of x') : (if c then w else w') = of (if c then x else x') := by
  rw [h, h']
  exact (apply_ite of c x x').symm

theorem itemLenAt_le {left : Nat} {data : List UInt8} {len : Nat}
    (h : Cbor.itemLenAt left data = .ok len) : len ≤ data.length := by
  rw [itemLenAt_eq] at h
  obtain ⟨x, -, rfl⟩ := Checks.map_eq_ok.mp h
  exact Nat.sub_le _ _

theorem measureItems_of {left : Nat} {measure : List UInt8 → Walk Nat} {data : List UInt8}
    (hsize : data.length < 2 ^ 63)
    (hmeasure : ∀ pos, measure (data.drop pos) = of (Cbor.itemLenAt left (data.drop pos)))
    (count : Nat) {pos : Nat} (hpos : pos ≤ data.length) :
    measureItems measure data count pos =
      of (Cbor.measureItems (Cbor.itemLenAt left) data count pos) := by
  induction count generalizing pos with
  | zero => rfl
  | succ count ih =>
      rw [measureItems, Cbor.measureItems, sliceFrom_eq hpos]
      change (measure (data.drop pos) >>= _) = _
      rw [hmeasure]
      refine of_bind fun len hlen => ?_
      have hle := itemLenAt_le hlen
      rw [List.length_drop] at hle
      rw [checkedAdd_eq (by omega)]
      exact ih (by omega)

/-- With a frame for every level and one more for the call that is refused, the walk never
panics and gives what `itemLenAt` gives. -/
theorem itemLenAt_of {frames depth left : Nat} {data : List UInt8} (hsize : data.length < 2 ^ 63)
    (hdepth : depth + left = DECODE_DEPTH_LIMIT + 1) (hframes : left < frames) :
    itemLenAt frames depth data = of (Cbor.itemLenAt left data) := by
  induction left generalizing frames depth data with
  | zero =>
      obtain ⟨frames, rfl⟩ := Nat.exists_eq_succ_of_ne_zero (Nat.ne_zero_of_lt hframes)
      rw [itemLenAt, if_pos (by omega)]
      rfl
  | succ left ih =>
      obtain ⟨frames, rfl⟩ := Nat.exists_eq_succ_of_ne_zero (Nat.ne_zero_of_lt hframes)
      have hmeasure (pos : Nat) : itemLenAt frames (depth + 1) (data.drop pos) =
          of (Cbor.itemLenAt left (data.drop pos)) := by
        refine ih ?_ (by omega) (by omega)
        rw [List.length_drop]
        omega
      cases data with
      | nil =>
          rw [itemLenAt, if_neg (by omega)]
          rfl
      | cons b rest =>
          rw [itemLenAt, if_neg (by omega), Cbor.itemLenAt]
          change (readArg (b &&& 0x1f) rest >>= _) = _
          rw [readArg_eq]
          cases harg : Cbor.readArg (b &&& 0x1f) rest with
          | error e =>
              have hheader : readHeader (b :: rest) = .error e :=
                (Reader.andThen_of_ok rfl).trans (Reader.andThen_of_error harg)
              rw [hheader]
              rfl
          | ok x =>
              obtain ⟨arg, after⟩ := x
              have hheader : readHeader (b :: rest) = .ok (⟨b >>> 5, b &&& 0x1f, arg⟩, after) :=
                Reader.andThen_eq_ok.mpr ⟨b, rest, rfl,
                  Reader.andThen_eq_ok.mpr ⟨arg, after, harg, rfl⟩⟩
              obtain ⟨pre, hpre, -⟩ := local_readHeader _ _ _ hheader
              have hafter : after.length ≤ (b :: rest).length := by
                rw [hpre, List.length_append]
                omega
              rw [hheader]
              change (sub (b :: rest).length after.length >>= _) = _
              rw [sub, if_pos hafter]
              have hheaderLe : (b :: rest).length - after.length ≤ (b :: rest).length :=
                Nat.sub_le _ _
              change (if _ then _ else _ : Walk Nat) = of (if _ then _ else _)
              refine ite_of rfl (ite_of (bodyFrom_of hsize _ _) (ite_of
                (measureItems_of hsize hmeasure _ hheaderLe) (ite_of (ite_of rfl
                  (measureItems_of hsize hmeasure _ hheaderLe)) (ite_of ?_ rfl))))
              rw [sliceFrom_eq hheaderLe]
              change (itemLenAt frames (depth + 1) ((b :: rest).drop _) >>= _) = _
              rw [hmeasure]
              exact of_bind fun len _ => bodyFrom_of hsize _ len

theorem rawItem_of {frames : Nat} (hframes : DECODE_DEPTH_LIMIT < frames) {data : List UInt8}
    (hsize : data.length < 2 ^ 63) : rawItem frames data = of (Cbor.rawItem data) := by
  rw [rawItem, itemLenAt_of hsize (Nat.add_comm _ _) hframes]
  exact of_bind fun len hlen => splitAt_eq (itemLenAt_le hlen)

theorem rawItem_size {data raw rest : List UInt8} (hsize : data.length < 2 ^ 63)
    (h : Cbor.rawItem data = .ok (raw, rest)) : rest.length < 2 ^ 63 := by
  obtain ⟨rfl, -⟩ := rawItem_eq_ok.mp h
  rw [List.length_append] at hsize
  omega

theorem rawPair_of {frames : Nat} (hframes : DECODE_DEPTH_LIMIT < frames) {data : List UInt8}
    (hsize : data.length < 2 ^ 63) :
    rawPair frames data = of (Reader.pair Cbor.rawItem Cbor.rawItem data) := by
  rw [rawPair, rawItem_of hframes hsize]
  refine of_bind fun x hx => ?_
  change (rawItem frames x.2 >>= _) = _
  rw [rawItem_of hframes (rawItem_size hsize hx)]
  exact of_bind fun _ _ => rfl

theorem items_of {item : List UInt8 → Walk (α × List UInt8)} {item' : Reader CborError α}
    (hitem : ∀ data, data.length < 2 ^ 63 → item data = of (item' data))
    (hrest : ∀ data a rest, data.length < 2 ^ 63 → item' data = .ok (a, rest) →
      rest.length < 2 ^ 63) {count : Nat} {data : List UInt8} (hsize : data.length < 2 ^ 63) :
    items item count data = of (Reader.many item' count data) := by
  induction count generalizing data with
  | zero => rfl
  | succ count ih =>
      rw [items, hitem data hsize]
      refine of_bind fun x hx => ?_
      change (items item count x.2 >>= _) = _
      rw [ih (hrest data x.1 x.2 hsize hx)]
      exact of_bind fun _ _ => rfl

theorem splitItems_of {item : List UInt8 → Walk (α × List UInt8)} {item' : Reader CborError α}
    (hitem : ∀ data, data.length < 2 ^ 63 → item data = of (item' data))
    (hrest : ∀ data a rest, data.length < 2 ^ 63 → item' data = .ok (a, rest) →
      rest.length < 2 ^ 63) {data : List UInt8} (hsize : data.length < 2 ^ 63) (major : UInt8) :
    splitItems major item data = of (Cbor.splitItems major item' data) := by
  refine of_bind fun x hx => ?_
  obtain ⟨b, rest⟩ := x
  obtain ⟨first, rfl, -⟩ := local_splitFirst _ _ _ hx
  rw [List.length_append] at hsize
  change (if b >>> 5 ≠ major then _ else _ : Walk _) =
    of ((if b >>> 5 ≠ major then _ else _ : Reader CborError _) rest)
  by_cases hmajor : b >>> 5 ≠ major
  · rw [if_pos hmajor, if_pos hmajor]
    rfl
  · rw [if_neg hmajor, if_neg hmajor]
    change (readArg (b &&& 0x1f) rest >>= _) = _
    rw [readArg_eq]
    refine of_bind fun y hy => ?_
    obtain ⟨arg, harg, -⟩ := local_readArg _ _ _ _ hy
    rw [harg, List.length_append] at hsize
    exact items_of hitem hrest (by omega)

theorem rawPair_size {data rest : List UInt8} {pair : List UInt8 × List UInt8}
    (hsize : data.length < 2 ^ 63)
    (h : Reader.pair Cbor.rawItem Cbor.rawItem data = .ok (pair, rest)) :
    rest.length < 2 ^ 63 := by
  obtain ⟨key, mid, hkey, h⟩ := Reader.andThen_eq_ok.mp h
  obtain ⟨value, mid', hvalue, h⟩ := Reader.andThen_eq_ok.mp h
  obtain ⟨-, rfl⟩ := Prod.mk.inj (Except.ok.inj h)
  exact rawItem_size (rawItem_size hsize hkey) hvalue

end Walk

/-! ### The result -/

/-- A byte slice: never longer than `isize::MAX`. -/
structure Slice where
  bytes : List UInt8
  fits : bytes.length < 2 ^ 63

/-- **The skipper and the splitters agree with the decoder** on where every item ends, and with a
stack of one frame for each level, and one for the call that is refused, they never index past
the input. -/
theorem splitters_agree (d : Slice) :
    (∀ v rest, decode d.bytes = .ok (v, rest) →
      itemLen d.bytes = .ok (d.bytes.length - rest.length)) ∧
    (∀ pieces rest, splitArray d.bytes = .ok (pieces, rest) →
      Cut d.bytes MT_ARRAY pieces.length pieces rest ∧
      ∀ v r, decode d.bytes = .ok (v, r) ↔ r = rest ∧ ∃ items, v = .array items ∧
        List.Forall₂ (fun piece e => decode piece = .ok (e, [])) pieces items) ∧
    (∀ pairs rest, splitMap d.bytes = .ok (pairs, rest) →
      Cut d.bytes MT_MAP pairs.length (rawPieces pairs) rest ∧
      ∀ v r, decode d.bytes = .ok (v, r) ↔ r = rest ∧ ∃ entries, v = .map entries ∧
        List.Forall₂ (fun pair e => decode pair.1 = .ok (e.1, []) ∧ decode pair.2 = .ok (e.2, []))
          pairs entries) ∧
    Walk.itemLen (DECODE_DEPTH_LIMIT + 2) d.bytes = Walk.of (itemLen d.bytes) ∧
    Walk.splitArray (DECODE_DEPTH_LIMIT + 1) d.bytes = Walk.of (splitArray d.bytes) ∧
    Walk.splitMap (DECODE_DEPTH_LIMIT + 1) d.bytes = Walk.of (splitMap d.bytes) := by
  have hsize : d.bytes.length < 2 ^ 64 := Nat.lt_trans d.fits (by decide)
  refine ⟨fun v rest => itemLen_of_decode hsize, fun pieces rest => splitArray_agrees hsize,
    fun pairs rest => splitMap_agrees hsize, ?_, ?_, ?_⟩
  · exact Walk.itemLenAt_of d.fits (Nat.zero_add _) (Nat.lt_succ_self _)
  · exact Walk.splitItems_of (fun _ => Walk.rawItem_of (Nat.lt_succ_self _))
      (fun _ _ _ => Walk.rawItem_size) d.fits MT_ARRAY
  · exact Walk.splitItems_of (fun _ => Walk.rawPair_of (Nat.lt_succ_self _))
      (fun _ _ _ => Walk.rawPair_size) d.fits MT_MAP

/-- `{1: [2, "a"]}`, and one byte more. -/
def mapSlice : Slice := ⟨[0xa1, 0x01, 0x82, 0x02, 0x61, 0x61, 0xff], by decide⟩

/-- The map ends before the byte, its key and its value are cut out, and the value is what `decode`
reads in it. -/
theorem splitters_agree_mapSlice :
    itemLen mapSlice.bytes = .ok 6 ∧
    Cut mapSlice.bytes MT_MAP 1 [[0x01], [0x82, 0x02, 0x61, 0x61]] [0xff] ∧
    decode [0x82, 0x02, 0x61, 0x61] = .ok (.array [.uInt 2, .text ['a']], []) ∧
    Walk.splitMap (DECODE_DEPTH_LIMIT + 1) mapSlice.bytes =
      Walk.of (.ok ([([0x01], [0x82, 0x02, 0x61, 0x61])], [0xff])) := by
  obtain ⟨hlen, -, hmap, -, -, hwalk⟩ := splitters_agree mapSlice
  have hdecoded : decode mapSlice.bytes =
      .ok (.map [(.uInt 1, .array [.uInt 2, .text ['a']])], [0xff]) := by rfl
  have hsplit : splitMap mapSlice.bytes = .ok ([([0x01], [0x82, 0x02, 0x61, 0x61])], [0xff]) := by
    rfl
  obtain ⟨hcut, hread⟩ := hmap _ _ hsplit
  obtain ⟨-, entries, hentries, hpieces⟩ := (hread _ _).mp hdecoded
  obtain rfl := Value.map.inj hentries
  refine ⟨hlen _ _ hdecoded, hcut, ?_, ?_⟩
  · rcases hpieces with _ | ⟨hpair, -⟩
    exact hpair.2
  · rw [hwalk, hsplit]

-- A tagged element is cut out whole, though `decode` refuses the array it is in.
example : splitArray [0x82, 0xc1, 0x00, 0x01] = .ok ([[0xc1, 0x00], [0x01]], []) ∧
    (decode [0x82, 0xc1, 0x00, 0x01]).toOption.isNone ∧ (decode [0x01]).toOption.isSome := by
  decide

end Keyroost.Ctap.Cbor
