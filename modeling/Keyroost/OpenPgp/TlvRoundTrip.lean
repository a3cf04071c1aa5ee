import Keyroost.Library.Checks
import Keyroost.OpenPgp.CardData

/-!
# Objects written and read back

What is written reads back, what is found inside is what stands there, the reader's indices stay
within its input, and where an envelope makes no difference.

* `parseTlvs_berTlvs` is the round trip of a sequence, with tags that a card uses
  (`WellFormedTag`).
* A search goes into constructed objects up to a limit. `OccursAt` says where an object stands
  without the search, and `findNested_isSome_iff` that the two agree.
* `scanTlvs` is the reader of the source with its indices, which gives a fault where one would
  leave the input; `scanTlvs_eq` shows that it never does and that the plain reader is the same.
* `EnvelopeFree` and its lemmas are about objects with their own tag around them, and
  `envelope_makes_difference` is a value for which the tag matters.

`tlv_round_trip` states all four.
-/

namespace Keyroost.OpenPgp

/-! ### Tags -/

/-- A tag of one byte, or of two with no third announced. -/
def WellFormedTag (tag : UInt16) : Prop :=
  (tag ≤ 0xFF ∧ tag.toUInt8 &&& 0x1F ≠ 0x1F) ∨
    (0xFF < tag ∧ (tag >>> 8).toUInt8 &&& 0x1F = 0x1F ∧ (tag &&& 0xFF).toUInt8 &&& 0x80 = 0)

/-- The first byte that is written of a tag. -/
def leadingByte (tag : UInt16) : UInt8 := if 0xFF < tag then (tag >>> 8).toUInt8 else tag.toUInt8

def isConstructed (tag : UInt16) : Bool := leadingByte tag &&& 0x20 != 0

theorem toUInt16_low {tag : UInt16} (h : tag ≤ 0xFF) : tag.toUInt8.toUInt16 = tag := by
  have hlt : tag.toNat ≤ 255 := UInt16.le_iff_toNat_le.mp h
  refine UInt16.toNat_inj.mp ?_
  rw [UInt8.toNat_toUInt16, UInt16.toNat_toUInt8]
  omega

theorem toUInt16_halves (tag : UInt16) :
    (tag >>> 8).toUInt8.toUInt16 <<< 8 ||| (tag &&& 0xFF).toUInt8.toUInt16 = tag := by
  have hlt : tag.toNat < 65536 := tag.toNat_lt
  have hhigh : (tag >>> 8).toNat = tag.toNat / 256 := by
    rw [UInt16.toNat_shiftRight]
    exact Nat.shiftRight_eq_div_pow _ 8
  have hlow : (tag &&& 0xFF).toNat = tag.toNat % 256 := by
    rw [UInt16.toNat_and]
    exact Nat.and_two_pow_sub_one_eq_mod _ 8
  have hshift : ((tag >>> 8).toUInt8.toUInt16 <<< 8).toNat = 2 ^ 8 * (tag.toNat / 256) := by
    rw [UInt16.toNat_shiftLeft, UInt8.toNat_toUInt16, UInt16.toNat_toUInt8, hhigh]
    have hcut : tag.toNat / 256 % 2 ^ 8 = tag.toNat / 256 := by omega
    rw [hcut]
    calc (tag.toNat / 256) <<< (8 % 16) % 2 ^ 16 = (tag.toNat / 256 * 2 ^ 8) % 2 ^ 16 := by
          rw [Nat.shiftLeft_eq]
      _ = 2 ^ 8 * (tag.toNat / 256) := by omega
  refine UInt16.toNat_inj.mp ?_
  rw [UInt16.toNat_or, hshift, UInt8.toNat_toUInt16, UInt16.toNat_toUInt8, hlow,
    ← Nat.two_pow_add_eq_or_of_lt (by omega)]
  omega

theorem tagReads_of_wellFormed {tag : UInt16} (h : WellFormedTag tag) :
    TagReads tag (isConstructed tag) := by
  rcases h with ⟨hle, hfirst⟩ | ⟨hlt, hfirst, hsecond⟩
  · have hshort : ¬ 0xFF < tag := by
      rw [UInt16.lt_iff_toNat_lt]
      exact Nat.not_lt.mpr (UInt16.le_iff_toNat_le.mp hle)
    refine ⟨tag.toUInt8, [], if_neg hshort, ?_, fun tail => ?_⟩
    · rw [isConstructed, leadingByte, if_neg hshort]
    · rw [readTag.eq_def]
      dsimp only
      rw [if_pos hfirst, toUInt16_low hle]
      rfl
  · refine ⟨(tag >>> 8).toUInt8, [(tag &&& 0xFF).toUInt8], if_pos hlt, ?_, fun tail => ?_⟩
    · rw [isConstructed, leadingByte, if_pos hlt]
    · rw [readTag.eq_def, List.singleton_append]
      dsimp only
      rw [if_neg (not_not.mpr hfirst), if_neg (not_not.mpr hsecond), toUInt16_halves]
      rfl

/-! ### Sequences -/

/-- What is read of a tag and a value. -/
def tlvOf (object : UInt16 × List UInt8) : Tlv := ⟨object.1, isConstructed object.1, object.2⟩

def berTlvs (objects : List (UInt16 × List UInt8)) : List UInt8 :=
  objects.flatMap fun object => berTlv object.1 object.2

theorem length_berTlv_pos (tag : UInt16) (value : List UInt8) : 0 < (berTlv tag value).length := by
  rw [berTlv, berTag, List.length_append, List.length_append]
  split
  · exact Nat.lt_of_lt_of_le Nat.two_pos (by rw [Nat.add_assoc]; exact Nat.le_add_right 2 _)
  · exact Nat.lt_of_lt_of_le Nat.one_pos (by rw [Nat.add_assoc]; exact Nat.le_add_right 1 _)

theorem length_le_berTlvs (objects : List (UInt16 × List UInt8)) :
    objects.length ≤ (berTlvs objects).length := by
  induction objects with
  | nil => exact Nat.le_refl 0
  | cons object objects ih =>
      have hpos := length_berTlv_pos object.1 object.2
      rw [berTlvs, List.flatMap_cons, List.length_append, List.length_cons]
      exact Nat.add_comm _ 1 ▸ Nat.add_le_add hpos ih

theorem parseTlvsFrom_berTlvs {objects : List (UInt16 × List UInt8)}
    (h : ∀ object ∈ objects, WellFormedTag object.1 ∧ object.2.length ≤ 0xFFFF) {left : Nat}
    (hleft : objects.length ≤ left) :
    parseTlvsFrom left (berTlvs objects) = .ok (objects.map tlvOf) := by
  induction objects generalizing left with
  | nil => exact parseTlvsFrom_nil left
  | cons object objects ih =>
      obtain ⟨htag, hvalue⟩ := h object List.mem_cons_self
      obtain ⟨left, rfl⟩ : ∃ n, left = n + 1 :=
        Nat.exists_eq_add_of_le' (Nat.lt_of_lt_of_le (Nat.succ_pos _) hleft)
      have hrest := ih (fun o ho => h o (List.mem_cons_of_mem _ ho)) (Nat.le_of_succ_le_succ hleft)
      rw [berTlvs, List.flatMap_cons]
      refine (parseTlvsFrom_berTlv (tagReads_of_wellFormed htag) hvalue _ left).trans ?_
      exact congrArg (Except.map fun rest => tlvOf object :: rest) hrest

/-- **What is written reads back.** -/
theorem parseTlvs_berTlvs {objects : List (UInt16 × List UInt8)}
    (h : ∀ object ∈ objects, WellFormedTag object.1 ∧ object.2.length ≤ 0xFFFF) :
    parseTlvs (berTlvs objects) = .ok (objects.map tlvOf) :=
  parseTlvsFrom_berTlvs h (length_le_berTlvs objects)

/-! ### What is found inside -/

/-- The object stands so many constructed objects deep. The depth is what the search of the source
is limited by. -/
inductive OccursAt (object : Tlv) : Nat → List Tlv → Prop where
  | here {tlvs : List Tlv} : object ∈ tlvs → OccursAt object 0 tlvs
  | inside {tlvs children : List Tlv} {outer : Tlv} {depth : Nat} : outer ∈ tlvs →
      outer.constructed = true → parseTlvs outer.value = .ok children →
      OccursAt object depth children → OccursAt object (depth + 1) tlvs

/-- The objects to a depth, an object before those inside it. -/
def walk : Nat → List Tlv → List Tlv
  | 0, _ => []
  | left + 1, tlvs => tlvs.flatMap fun t =>
      t :: if t.constructed = true then
        match parseTlvs t.value with
        | .ok children => walk left children
        | .error _ => []
      else []

theorem findNestedAt_eq (tag : UInt16) (left : Nat) (tlvs : List Tlv) :
    findNestedAt tag left tlvs = ((walk left tlvs).find? fun t => decide (t.tag = tag)).map
      Tlv.value := by
  induction left generalizing tlvs with
  | zero => rfl
  | succ left ih =>
      rw [findNestedAt, walk, List.find?_flatMap, List.map_findSome?]
      refine congrArg (List.findSome? · tlvs) (funext fun t => ?_)
      dsimp only [Function.comp]
      by_cases htag : t.tag = tag
      · have hfirst : decide (t.tag = tag) = true := decide_eq_true htag
        rw [if_pos htag, List.find?_cons, hfirst]
        rfl
      · have hfirst : decide (t.tag = tag) = false := decide_eq_false htag
        rw [if_neg htag, List.find?_cons, hfirst]
        dsimp only
        by_cases hinner : t.constructed = true
        · rw [if_pos hinner, if_pos hinner]
          cases parseTlvs t.value with
          | ok children => exact ih children
          | error e => rfl
        · rw [if_neg hinner, if_neg hinner]
          rfl

theorem mem_walk {object : Tlv} {left : Nat} {tlvs : List Tlv} :
    object ∈ walk left tlvs ↔ ∃ depth < left, OccursAt object depth tlvs := by
  induction left generalizing tlvs with
  | zero =>
      constructor
      · intro hmem
        cases hmem
      · rintro ⟨depth, hdepth, -⟩
        exact absurd hdepth (Nat.not_lt_zero depth)
  | succ left ih =>
      rw [walk, List.mem_flatMap]
      constructor
      · rintro ⟨outer, houter, hmem⟩
        rcases List.mem_cons.mp hmem with rfl | hmem
        · exact ⟨0, Nat.succ_pos left, .here houter⟩
        · split at hmem
          · rename_i hinner
            cases hparse : parseTlvs outer.value with
            | error e =>
                rw [hparse] at hmem
                cases hmem
            | ok children =>
                rw [hparse] at hmem
                obtain ⟨depth, hdepth, hoccurs⟩ := ih.mp hmem
                exact ⟨depth + 1, Nat.succ_lt_succ hdepth, .inside houter hinner hparse hoccurs⟩
          · cases hmem
      · rintro ⟨depth, hdepth, hoccurs⟩
        cases hoccurs with
        | here hmem => exact ⟨object, hmem, List.mem_cons_self⟩
        | inside houter hinner hparse hoccurs =>
            refine ⟨_, houter, List.mem_cons_of_mem _ ?_⟩
            rw [if_pos hinner, hparse]
            exact ih.mpr ⟨_, Nat.lt_of_succ_lt_succ hdepth, hoccurs⟩

/-- **Something is found** when the tag stands within the limit. -/
theorem findNested_isSome_iff (tlvs : List Tlv) (tag : UInt16) :
    (∃ value, findNested tlvs tag = some value) ↔
      ∃ depth < NEST_DEPTH_LIMIT, ∃ object, OccursAt object depth tlvs ∧ object.tag = tag := by
  rw [findNested, findNestedAt_eq]
  constructor
  · rintro ⟨value, hvalue⟩
    obtain ⟨object, hfind, -⟩ := Option.map_eq_some_iff.mp hvalue
    obtain ⟨depth, hdepth, hoccurs⟩ := mem_walk.mp (List.mem_of_find?_eq_some hfind)
    have htag := List.find?_some hfind
    exact ⟨depth, hdepth, object, hoccurs, of_decide_eq_true htag⟩
  · rintro ⟨depth, hdepth, object, hoccurs, htag⟩
    cases hfind : (walk NEST_DEPTH_LIMIT tlvs).find? fun t => decide (t.tag = tag) with
    | none =>
        have hnot := List.find?_eq_none.mp hfind object (mem_walk.mpr ⟨depth, hdepth, hoccurs⟩)
        exact absurd (decide_eq_true htag) hnot
    | some found => exact ⟨found.value, rfl⟩

/-! ### The reader's indices -/

/-- How the loop could end: an index out of its range, too few turns, or an answer that is
refused. -/
inductive Fault where
  | outOfRange
  | unfinished
  | refused (e : ParseError)
deriving DecidableEq, Repr

def byteAt (buf : List UInt8) (i : Nat) : Except Fault UInt8 :=
  match buf[i]? with
  | none => .error .outOfRange
  | some b => .ok b

def sliceAt (buf : List UInt8) (start stop : Nat) : Except Fault (List UInt8) :=
  if start ≤ stop ∧ stop ≤ buf.length then .ok ((buf.drop start).take (stop - start))
  else .error .outOfRange

/-- The loop of `parse_tlvs` with the source's index. A sum that does not fit in a `usize` is past
the end as well. -/
def scanFrom (buf : List UInt8) : Nat → Nat → List Tlv → Except Fault (List Tlv)
  | 0, _, _ => .error .unfinished
  | left + 1, i, out =>
      if i < buf.length then do
        let constructed := (← byteAt buf i) &&& 0x20 != 0
        let (tag, tagLen) ← (readTag (buf.drop i)).mapError .refused
        let (len, lenLen) ← (readLen (buf.drop (i + tagLen))).mapError .refused
        let start := i + tagLen + lenLen
        let stop := start + len
        if buf.length < stop then .error (.refused .truncated)
        else
          let value ← sliceAt buf start stop
          scanFrom buf left stop (out ++ [⟨tag, constructed, value⟩])
      else .ok out

def scanTlvs (buf : List UInt8) : Except Fault (List Tlv) := scanFrom buf (buf.length + 1) 0 []

theorem readTag_pos {buf : List UInt8} {tag : UInt16} {tagLen : Nat}
    (h : readTag buf = .ok (tag, tagLen)) : 0 < tagLen := by
  cases buf with
  | nil => cases h
  | cons first rest =>
      rw [readTag.eq_def] at h
      dsimp only at h
      split at h
      · cases h
        exact Nat.one_pos
      · split at h
        · cases h
        · split at h
          · cases h
          · cases h
            exact Nat.two_pos

theorem readLen_le {buf : List UInt8} {len lenLen : Nat} (h : readLen buf = .ok (len, lenLen)) :
    len ≤ 0xFFFF := by
  cases buf with
  | nil => cases h
  | cons first rest =>
      have hbyte : ∀ b : UInt8, b.toNat ≤ 255 := fun b => Nat.le_of_lt_succ b.toNat_lt
      rw [readLen.eq_def] at h
      dsimp only at h
      split at h
      · cases h
        exact (hbyte first).trans (by decide)
      · split at h
        · split at h
          · rename_i n rest
            cases h
            exact (hbyte n).trans (by decide)
          · cases h
        · split at h
          · split at h
            · rename_i hi lo rest
              cases h
              have hhi := hbyte hi
              have hlo := hbyte lo
              omega
            · cases h
          · cases h

theorem scanFrom_eq {buf : List UInt8} {left i : Nat} (turns : Nat) (hi : i ≤ buf.length)
    (hleft : buf.length < left + i) (hturns : buf.length ≤ turns + i) (out : List Tlv) :
    scanFrom buf left i out =
      ((parseTlvsFrom turns (buf.drop i)).map (out ++ ·)).mapError Fault.refused := by
  induction left generalizing turns i out with
  | zero => omega
  | succ left ih =>
      rw [scanFrom]
      by_cases hmore : i < buf.length
      · obtain ⟨turns, rfl⟩ : ∃ n, turns = n + 1 := ⟨turns - 1, by omega⟩
        have hdrop := List.drop_eq_getElem_cons hmore
        have hbyte : byteAt buf i = .ok buf[i] := by
          rw [byteAt, List.getElem?_eq_getElem hmore]
        rw [if_pos hmore, hbyte, hdrop, parseTlvsFrom, ← hdrop]
        cases htag : readTag (buf.drop i) with
        | error e => rfl
        | ok found =>
            obtain ⟨tag, tagLen⟩ := found
            have hpos := readTag_pos htag
            cases hlen : readLen (buf.drop (i + tagLen)) with
            | error e =>
                have hlen' := hlen
                rw [← List.drop_drop] at hlen'
                simp only [bind, Except.bind, Except.mapError, hlen, hlen']
                rfl
            | ok found' =>
                obtain ⟨len, lenLen⟩ := found'
                have hlen' := hlen
                rw [← List.drop_drop] at hlen'
                have hroom : (buf.drop i).length < tagLen + lenLen + len ↔
                    buf.length < i + tagLen + lenLen + len := by
                  rw [List.length_drop]
                  omega
                simp only [bind, Except.bind, Except.mapError, hlen, hlen', hroom]
                by_cases hshort : buf.length < i + tagLen + lenLen + len
                · rw [if_pos hshort, if_pos hshort]
                  rfl
                · have hslice : sliceAt buf (i + tagLen + lenLen) (i + tagLen + lenLen + len) =
                      .ok (((buf.drop i).drop (tagLen + lenLen)).take len) := by
                    rw [sliceAt, if_pos ⟨Nat.le_add_right _ _, Nat.le_of_not_lt hshort⟩,
                      Nat.add_sub_cancel_left, List.drop_drop, Nat.add_assoc i]
                  have hnext : (buf.drop i).drop (tagLen + lenLen + len) =
                      buf.drop (i + tagLen + lenLen + len) := by
                    rw [List.drop_drop]
                    simp only [Nat.add_assoc]
                  rw [if_neg hshort, if_neg hshort, hslice, hnext]
                  dsimp only
                  rw [ih turns (by omega) (by omega) (by omega)]
                  cases parseTlvsFrom turns (buf.drop (i + tagLen + lenLen + len)) with
                  | error e => rfl
                  | ok tail => exact congrArg Except.ok (List.append_assoc out _ tail)
      · have hend : buf.drop i = [] := List.drop_eq_nil_of_le (Nat.le_of_not_lt hmore)
        rw [if_neg hmore, hend, parseTlvsFrom_nil]
        exact congrArg Except.ok (List.append_nil out).symm

/-- **The indices stay within the input**, and the loop ends. -/
theorem scanTlvs_eq (buf : List UInt8) : scanTlvs buf = (parseTlvs buf).mapError Fault.refused := by
  rw [scanTlvs, scanFrom_eq buf.length (Nat.zero_le _) (Nat.lt_succ_self _)
    (Nat.le_refl _), List.drop_zero, parseTlvs]
  cases parseTlvsFrom buf.length buf with
  | error e => rfl
  | ok tlvs => rfl

/-! ### Envelopes -/

/-- The value of a parsed object is never longer than two bytes of length say. -/
theorem length_value_le {turns : Nat} {buf : List UInt8} {tlvs : List Tlv}
    (h : parseTlvsFrom turns buf = .ok tlvs) {t : Tlv} (ht : t ∈ tlvs) :
    t.value.length ≤ 0xFFFF := by
  induction turns generalizing buf tlvs with
  | zero =>
      rw [parseTlvsFrom] at h
      cases h
      cases ht
  | succ turns ih =>
      cases buf with
      | nil =>
          rw [parseTlvsFrom_nil] at h
          cases h
          cases ht
      | cons first rest =>
          rw [parseTlvsFrom] at h
          obtain ⟨⟨tag, tagLen⟩, -, h⟩ := Checks.bind_eq_ok.mp h
          obtain ⟨⟨len, lenLen⟩, hlen, h⟩ := Checks.bind_eq_ok.mp h
          dsimp only at h
          split at h
          · cases h
          · obtain ⟨tail, htail, h⟩ := Checks.bind_eq_ok.mp h
            cases h
            rcases List.mem_cons.mp ht with rfl | ht
            · exact (List.length_take_le _ _).trans (readLen_le hlen)
            · exact ih htail ht

/-- The reader looks into an envelope, and takes the bytes as they are without one. -/
theorem enveloped_berTlv {tag : UInt16} (htag : WellFormedTag tag) {value : List UInt8}
    (h : value.length ≤ 0xFFFF) : enveloped (berTlv tag value) tag = parseTlvs value := by
  have hparse : parseTlvs (berTlv tag value) = .ok [tlvOf (tag, value)] := by
    have hone : berTlv tag value = berTlvs [(tag, value)] := (List.append_nil _).symm
    rw [hone]
    refine parseTlvs_berTlvs fun object hobject => ?_
    rw [List.mem_singleton.mp hobject]
    exact ⟨htag, h⟩
  have hfind : findTag [tlvOf (tag, value)] tag = some value := by
    rw [findTag, List.find?_cons, tlvOf, beq_self_eq_true]
    rfl
  rw [enveloped, hparse, Checks.ok_bind, hfind]
  rfl

/-- What an object under the envelope's tag on top of the bytes holds. -/
def onTop (tag : UInt16) (buf : List UInt8) : Option (List UInt8) :=
  (parseTlvs buf).toOption.bind (findTag · tag)

theorem enveloped_bare {tag : UInt16} {value : List UInt8} (h : onTop tag value = none) :
    enveloped value tag = parseTlvs value := by
  cases hparse : parseTlvs value with
  | error e =>
      rw [enveloped, hparse]
      rfl
  | ok top =>
      have hfind : findTag top tag = none := by
        rw [onTop, hparse] at h
        exact h
      rw [enveloped, hparse, Checks.ok_bind, hfind]
      exact hparse

theorem enveloped_onTop {tag : UInt16} {buf value : List UInt8}
    (h : onTop tag buf = some value) :
    enveloped buf tag = parseTlvs value ∧ value.length ≤ 0xFFFF := by
  cases hparse : parseTlvs buf with
  | error e =>
      rw [onTop, hparse] at h
      cases h
  | ok top =>
      have hfind : findTag top tag = some value := by
        rw [onTop, hparse] at h
        exact h
      refine ⟨?_, ?_⟩
      · rw [enveloped, hparse, Checks.ok_bind, hfind]
        rfl
      · obtain ⟨t, ht, rfl⟩ := Option.map_eq_some_iff.mp hfind
        exact length_value_le hparse (List.mem_of_find?_eq_some ht)

/-- A value and the same in its envelope are read alike, unless the value has an object under the
envelope's tag on top: then that object is read. -/
def EnvelopeFree {α : Type} (tag : UInt16) (parse : List UInt8 → Except ParseError α) : Prop :=
  (∀ value, value.length ≤ 0xFFFF → onTop tag value = none →
    parse (berTlv tag value) = parse value) ∧
  ∀ buf value, onTop tag buf = some value →
    value.length ≤ 0xFFFF ∧ parse buf = parse (berTlv tag value)

theorem envelopeFree_of_enveloped {α : Type} {tag : UInt16} (htag : WellFormedTag tag)
    (f : List Tlv → Except ParseError α) :
    EnvelopeFree tag (fun buf => do f (← enveloped buf tag)) := by
  refine ⟨fun value hvalue hnone => ?_, fun buf value hsome => ?_⟩
  · dsimp only
    rw [enveloped_berTlv htag hvalue, enveloped_bare hnone]
  · obtain ⟨hread, hvalue⟩ := enveloped_onTop hsome
    refine ⟨hvalue, ?_⟩
    dsimp only
    rw [enveloped_berTlv htag hvalue, hread]

/-- **Objects round trip**: sequences read back as they were written, a tag is found exactly where
it stands within the limit, the reader keeps to its input, and envelopes make no difference but
for a value with its own envelope's tag on top. -/
theorem tlv_round_trip :
    (∀ objects : List (UInt16 × List UInt8),
      (∀ object ∈ objects, WellFormedTag object.1 ∧ object.2.length ≤ 0xFFFF) →
      parseTlvs (berTlvs objects) = .ok (objects.map tlvOf)) ∧
    (∀ tlvs tag,
      findNested tlvs tag =
        ((walk NEST_DEPTH_LIMIT tlvs).find? fun t => decide (t.tag = tag)).map Tlv.value ∧
      ((∃ value, findNested tlvs tag = some value) ↔
        ∃ depth < NEST_DEPTH_LIMIT, ∃ object, OccursAt object depth tlvs ∧ object.tag = tag)) ∧
    (∀ buf, scanTlvs buf = (parseTlvs buf).mapError Fault.refused) ∧
    EnvelopeFree TAG_APPLICATION_RELATED_DATA parseApplicationRelatedData ∧
    EnvelopeFree TAG_PUBLIC_KEY parseGeneratedPublicKey := by
  have haid : WellFormedTag TAG_APPLICATION_RELATED_DATA := .inl (by decide)
  have hkey : WellFormedTag TAG_PUBLIC_KEY := .inr (by decide)
  refine ⟨fun objects => parseTlvs_berTlvs, fun tlvs tag => ?_, scanTlvs_eq, ?_, ?_⟩
  · exact ⟨findNestedAt_eq tag NEST_DEPTH_LIMIT tlvs, findNested_isSome_iff tlvs tag⟩
  · exact envelopeFree_of_enveloped haid applicationRelatedData
  · exact envelopeFree_of_enveloped hkey generatedPublicKey

/-- A point followed by an empty object under the envelope's tag: read in its envelope, refused
without one. -/
theorem envelope_makes_difference :
    parseGeneratedPublicKey (berTlv TAG_PUBLIC_KEY [0x86, 0x01, 0x04, 0x7F, 0x49, 0x00]) =
      .ok (.ecc [0x04]) ∧
    parseGeneratedPublicKey [0x86, 0x01, 0x04, 0x7F, 0x49, 0x00] =
      .error (.missingTag TAG_RSA_MODULUS) := by
  decide

end Keyroost.OpenPgp
