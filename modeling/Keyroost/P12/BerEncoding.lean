import Mathlib.Tactic.IntervalCases
import Keyroost.P12.Ber

/-!
# Encodings the BER reader takes

An element with the choices that BER leaves: the form of each length, the segments of an octet
string. Whatever the choices, the reader of `Ber` gives back the element.

`Ber` is a tree of elements, each with its `Form`, and `encode` writes it down. What an octet string
stands for (`joined`) and how many levels a reader has to go down (`levels`, `joinLevels`) are
functions on the tree. The proof follows the reader: `extent_encode` for the walk that measures,
`reads_segment` for the joining of segments, both by induction over the tree, and `reads_tlv` for
the element with whatever comes after it.
-/

namespace Keyroost.P12

open Reader (Reads)

/-! ### Encodings -/

/-- A definite length: in one byte, or in so many after a first one. -/
inductive LenForm where
  | short
  | long (count : Nat)
deriving DecidableEq, Repr

namespace LenForm

def bytes (len : Nat) : LenForm → List UInt8
  | short => [len.toUInt8]
  | long count => (0x80 ||| count.toUInt8) :: Bytes.be count len

/-- A length in up to eight bytes, which need not be the fewest. -/
def Fits (len : Nat) : LenForm → Prop
  | short => len < 0x80
  | long count => 1 ≤ count ∧ count ≤ 8 ∧ len < 256 ^ count

end LenForm

inductive Form where
  | definite (len : LenForm)
  | indefinite
deriving DecidableEq, Repr

namespace Form

/-- What stands before the content. -/
def lead (content : List UInt8) : Form → List UInt8
  | definite len => len.bytes content.length
  | indefinite => [0x80]

/-- What stands after it. -/
def trail : Form → List UInt8
  | definite _ => []
  | indefinite => [0x00, 0x00]

def Fits (content : List UInt8) : Form → Prop
  | definite len => len.Fits content.length
  | indefinite => True

end Form

/-- An element and how it is encoded. A length need not be the shortest, and a constructed element
may have none and end at a mark, so this covers more than DER. -/
inductive Ber where
  | primitive (tag : UInt8) (len : LenForm) (content : List UInt8)
  | constructed (tag : UInt8) (form : Form) (members : List Ber)

namespace Ber

def tag : Ber → UInt8
  | primitive tag .. => tag
  | constructed tag .. => tag

mutual

def encode : Ber → List UInt8
  | primitive tag len content => tag :: (len.bytes content.length ++ content)
  | constructed tag form members =>
      tag :: (form.lead (encodeAll members) ++ encodeAll members ++ form.trail)

def encodeAll : List Ber → List UInt8
  | [] => []
  | e :: es => encode e ++ encodeAll es

end

mutual

/-- The bytes of an octet string, its segments joined. -/
def joined : Ber → List UInt8
  | primitive _ _ content => content
  | constructed _ _ members => joinedAll members

def joinedAll : List Ber → List UInt8
  | [] => []
  | e :: es => joined e ++ joinedAll es

end

/-- The content as it stands in the encoding. -/
def content : Ber → List UInt8
  | primitive _ _ content => content
  | constructed _ _ members => encodeAll members

/-- What the reader makes of an element. -/
def tlv (e : Ber) : Tlv where
  tag := e.tag
  constructed := e.tag &&& 0x20 != 0
  value := if e.tag = 0x24 then e.joined else e.content

mutual

/-- Tags of one byte, constructed or not as they say, lengths that fit, and octet strings in
segments that are octet strings. No element has the tag of the end-of-contents marker. -/
def Ok : Ber → Prop
  | primitive tag len content =>
      tag &&& 0x20 = 0 ∧ tag &&& 0x1F ≠ 0x1F ∧ tag ≠ 0 ∧ len.Fits content.length
  | constructed tag form members =>
      tag &&& 0x20 ≠ 0 ∧ tag &&& 0x1F ≠ 0x1F ∧ form.Fits (encodeAll members) ∧ OkAll members ∧
        (tag = 0x24 → Segments members)

def OkAll : List Ber → Prop
  | [] => True
  | e :: es => Ok e ∧ OkAll es

def Segments : List Ber → Prop
  | [] => True
  | e :: es => (e.tag = 0x04 ∨ e.tag = 0x24) ∧ Segments es

end

mutual

/-- How many levels of indefinite length are measured in an element, itself included. -/
def levels : Ber → Nat
  | primitive .. => 1
  | constructed _ (.definite _) _ => 1
  | constructed _ .indefinite members => levelsAll members + 1

def levelsAll : List Ber → Nat
  | [] => 0
  | e :: es => max (levels e) (levelsAll es)

end

mutual

/-- How many levels are followed to join the segments of an octet string. -/
def joinLevels : Ber → Nat
  | primitive .. => 0
  | constructed _ _ members => joinLevelsAll members + 1

def joinLevelsAll : List Ber → Nat
  | [] => 0
  | e :: es => max (max (levels e) (joinLevels e)) (joinLevelsAll es)

end

/-- The nesting that counts against the reader's limit. -/
def depth (e : Ber) : Nat := if e.tag = 0x24 then max e.levels e.joinLevels else e.levels

end Ber

/-! ### Trees -/

namespace Ber

/-- Induction with a hypothesis for every member. -/
theorem induct {P : Ber → Prop} (hprimitive : ∀ tag len content, P (primitive tag len content))
    (hconstructed : ∀ tag form members, (∀ e ∈ members, P e) → P (constructed tag form members))
    (e : Ber) : P e := by
  refine Ber.rec (motive_1 := P) (motive_2 := fun members => ∀ e ∈ members, P e) hprimitive
    hconstructed nofun ?_ e
  intro e es he hes e' he'
  rcases List.mem_cons.mp he' with rfl | he'
  · exact he
  · exact hes e' he'

variable {e : Ber} {members : List Ber}

theorem encodeAll_eq (members : List Ber) : encodeAll members = (members.map encode).flatten := by
  induction members with
  | nil => rfl
  | cons e es ih => rw [encodeAll, ih, List.map_cons, List.flatten_cons]

theorem joinedAll_eq (members : List Ber) : joinedAll members = (members.map joined).flatten := by
  induction members with
  | nil => rfl
  | cons e es ih => rw [joinedAll, ih, List.map_cons, List.flatten_cons]

theorem OkAll.mem (h : OkAll members) (he : e ∈ members) : e.Ok := by
  induction members with
  | nil => cases he
  | cons e' es ih =>
      rcases List.mem_cons.mp he with rfl | he
      · exact h.1
      · exact ih h.2 he

theorem Segments.mem (h : Segments members) (he : e ∈ members) : e.tag = 0x04 ∨ e.tag = 0x24 := by
  induction members with
  | nil => cases he
  | cons e' es ih =>
      rcases List.mem_cons.mp he with rfl | he
      · exact h.1
      · exact ih h.2 he

theorem levels_le (he : e ∈ members) : e.levels ≤ levelsAll members := by
  induction members with
  | nil => cases he
  | cons e' es ih =>
      rcases List.mem_cons.mp he with rfl | he
      · exact Nat.le_max_left _ _
      · exact Nat.le_trans (ih he) (Nat.le_max_right _ _)

theorem joinLevels_le (he : e ∈ members) :
    e.levels ≤ joinLevelsAll members ∧ e.joinLevels ≤ joinLevelsAll members := by
  induction members with
  | nil => cases he
  | cons e' es ih =>
      rcases List.mem_cons.mp he with rfl | he
      · exact ⟨Nat.le_trans (Nat.le_max_left _ _) (Nat.le_max_left _ _),
          Nat.le_trans (Nat.le_max_right _ _) (Nat.le_max_left _ _)⟩
      · obtain ⟨hlevels, hjoin⟩ := ih he
        exact ⟨Nat.le_trans hlevels (Nat.le_max_right _ _),
          Nat.le_trans hjoin (Nat.le_max_right _ _)⟩

/-! ### Headers -/

/-- What stands before the content, the tag included, and what stands after it. -/
def lead : Ber → List UInt8
  | primitive tag len content => tag :: len.bytes content.length
  | constructed tag form members => tag :: form.lead (encodeAll members)

def trail : Ber → List UInt8
  | primitive .. => []
  | constructed _ form _ => form.trail

theorem encode_eq (e : Ber) : e.encode = e.lead ++ (e.content ++ e.trail) := by
  rcases e with ⟨tag, len, content⟩ | ⟨tag, form, members⟩
  · rw [encode, lead, Ber.content, trail, List.append_nil, List.cons_append]
  · rw [encode, lead, Ber.content, trail, List.cons_append, List.append_assoc]

theorem encode_ne_nil (e : Ber) : e.encode ≠ [] := by
  rcases e with ⟨tag, len, content⟩ | ⟨tag, form, members⟩
  · exact nofun
  · exact nofun

/-- Nothing reads like the end-of-contents marker. -/
theorem Ok.tag_ne_zero (h : e.Ok) : e.tag ≠ 0 := by
  rcases e with ⟨tag, len, content⟩ | ⟨tag, form, members⟩
  · exact h.2.2.1
  · rintro rfl
    exact h.1 rfl

theorem length_le_encodeAll (members : List Ber) : members.length ≤ (encodeAll members).length := by
  induction members with
  | nil => exact Nat.le_refl 0
  | cons e es ih =>
      have hpos : 0 < e.encode.length := List.length_pos_iff.mpr e.encode_ne_nil
      rw [encodeAll, List.length_append, List.length_cons]
      omega

theorem encode_head (e : Ber) : ∃ first rest, e.encode = e.tag :: first :: rest := by
  rcases e with ⟨tag, len | count, content⟩ | ⟨tag, (len | count) | _, members⟩
  · exact ⟨_, _, rfl⟩
  · exact ⟨_, _, rfl⟩
  · exact ⟨_, _, rfl⟩
  · exact ⟨_, _, rfl⟩
  · exact ⟨_, _, rfl⟩

end Ber

theorem long_first {count : Nat} (hpos : 1 ≤ count) (hle : count ≤ 8) :
    ¬ (0x80 ||| count.toUInt8) < 0x80 ∧ ((0x80 ||| count.toUInt8) &&& 0x7F).toNat = count := by
  interval_cases count
  all_goals decide

/-- A definite length is read with all of its bytes. -/
theorem header_definite {tag : UInt8} (htag : tag &&& 0x1F ≠ 0x1F) {form : LenForm} {len : Nat}
    (hfits : form.Fits len) (rest : List UInt8) :
    header (tag :: (form.bytes len ++ rest)) =
      .ok (tag, some len, 1 + (form.bytes len).length) := by
  rcases form with _ | count
  · have hlen : len.toUInt8.toNat = len := by
      rw [Nat.toUInt8, UInt8.toNat_ofNat_of_lt']
      exact Nat.lt_trans hfits (by decide)
    have hshort : len.toUInt8 < 0x80 := by
      rw [UInt8.lt_iff_toNat_lt, hlen]
      exact hfits
    simp only [header, if_neg htag, LenForm.bytes, List.singleton_append, if_pos hshort, hlen]
    rfl
  · obtain ⟨hpos, hle, hlen⟩ := hfits
    obtain ⟨hlong, hcount⟩ := long_first hpos hle
    have hroom : ¬ (Bytes.be count len ++ rest).length < count := by
      rw [List.length_append, Bytes.length_be]
      omega
    have htake : (Bytes.be count len ++ rest).take count = Bytes.be count len := by
      rw [List.take_append_of_le_length (Bytes.length_be count len).ge,
        List.take_of_length_le (Bytes.length_be count len).le]
    simp only [header, if_neg htag, LenForm.bytes, List.cons_append, if_neg hlong, hcount,
      if_neg (Nat.one_le_iff_ne_zero.mp hpos), if_neg (Nat.not_lt.mpr hle), if_neg hroom, htake,
      Bytes.ofBe_be hlen, List.length_cons, Bytes.length_be]
    rw [← Nat.add_assoc, Nat.add_comm 1 count, Nat.add_assoc, Nat.add_comm count]

theorem header_indefinite {tag : UInt8} (htag : tag &&& 0x1F ≠ 0x1F) (hcons : tag &&& 0x20 ≠ 0)
    (rest : List UInt8) : header (tag :: 0x80 :: rest) = .ok (tag, none, 2) := by
  have hlong : ¬ (0x80 : UInt8) < 0x80 := by decide
  have hzero : ((0x80 : UInt8) &&& 0x7F).toNat = 0 := rfl
  simp only [header, if_neg htag, if_neg hlong, if_pos hzero, if_neg hcons]

/-! ### Extents -/

/-- Where an element is said to be. -/
def Ber.extent (e : Ber) : Extent := ⟨e.tag, e.lead.length, e.content.length, e.encode.length⟩

/-- The members of an indefinite content are walked up to the marker. -/
theorem contentsEnd_encodeAll {inner : List UInt8 → Except P12Error Extent} {members : List Ber}
    (hinner : ∀ e ∈ members, ∀ rest, inner (e.encode ++ rest) = .ok e.extent)
    (htags : ∀ e ∈ members, e.tag ≠ 0) (before rest : List UInt8) {fuel : Nat}
    (hfuel : members.length < fuel) :
    contentsEnd inner (before ++ (Ber.encodeAll members ++ 0x00 :: 0x00 :: rest)) fuel
      before.length = .ok (before.length + (Ber.encodeAll members).length) := by
  induction members generalizing before fuel with
  | nil =>
      obtain ⟨fuel, rfl⟩ := Nat.exists_eq_add_of_lt hfuel
      rw [List.length_nil, Nat.zero_add, contentsEnd, List.drop_left]
      simp only [Ber.encodeAll, List.nil_append, List.length_cons, List.take_succ_cons,
        List.take_zero, List.length_nil, Nat.add_zero]
      rw [if_neg (by omega), if_pos trivial]
  | cons e es ih =>
      obtain ⟨fuel, rfl⟩ := Nat.exists_eq_add_of_lt (Nat.lt_of_le_of_lt (Nat.zero_le _) hfuel)
      rw [Nat.zero_add] at hfuel ⊢
      obtain ⟨first, tail, hencode⟩ := e.encode_head
      have htag : e.tag ≠ 0 := htags e List.mem_cons_self
      have hinnerE := hinner e List.mem_cons_self (Ber.encodeAll es ++ 0x00 :: 0x00 :: rest)
      have hnext := ih (fun e' he' => hinner e' (List.mem_cons_of_mem e he'))
        (fun e' he' => htags e' (List.mem_cons_of_mem e he')) (before ++ e.encode)
        (Nat.lt_of_succ_lt_succ hfuel)
      have hlong : ¬ (e.encode ++ (Ber.encodeAll es ++ 0x00 :: 0x00 :: rest)).length < 2 := by
        rw [hencode]
        simp only [List.cons_append, List.length_cons]
        omega
      have hmarker : ¬ (e.encode ++ (Ber.encodeAll es ++ 0x00 :: 0x00 :: rest)).take 2 =
          [0x00, 0x00] := by
        rw [hencode]
        exact fun hsame => htag (List.cons.inj hsame).1
      rw [contentsEnd, List.drop_left, Ber.encodeAll, List.append_assoc, if_neg hlong,
        if_neg hmarker, hinnerE, Checks.ok_bind, Ber.extent]
      rw [List.length_append, List.append_assoc] at hnext
      rw [List.length_append, hnext, Nat.add_assoc]

theorem extent_definite {tag : UInt8} (htag : tag &&& 0x1F ≠ 0x1F) {form : LenForm}
    {content : List UInt8} (hfits : form.Fits content.length) (L : Nat) (rest : List UInt8) :
    extent (L + 1) (tag :: (form.bytes content.length ++ (content ++ rest))) =
      .ok ⟨tag, 1 + (form.bytes content.length).length, content.length,
        1 + (form.bytes content.length).length + content.length⟩ := by
  have hdrop : (tag :: (form.bytes content.length ++ (content ++ rest))).drop
      (1 + (form.bytes content.length).length) = content ++ rest := by
    rw [Nat.add_comm, List.drop_succ_cons, List.drop_left]
  have hlong : ¬ (tag :: (form.bytes content.length ++ (content ++ rest))).length <
      1 + (form.bytes content.length).length := by
    rw [List.length_cons, List.length_append]
    omega
  have hroom : ¬ (content ++ rest).length < content.length := by
    rw [List.length_append]
    omega
  rw [extent, header_definite htag hfits, Checks.ok_bind]
  dsimp only
  rw [if_neg hlong, hdrop, if_neg hroom]
  rfl

theorem extent_encode (e : Ber) : ∀ L, e.Ok → e.levels ≤ L → ∀ rest,
    extent L (e.encode ++ rest) = .ok e.extent := by
  refine Ber.induct (P := fun e => ∀ L, e.Ok → e.levels ≤ L → ∀ rest,
    extent L (e.encode ++ rest) = .ok e.extent) ?_ ?_ e
  · rintro tag len content L ⟨-, htag, -, hfits⟩ hlevels rest
    have hpos : 1 ≤ L := hlevels
    obtain ⟨L, rfl⟩ := Nat.exists_eq_add_of_le' hpos
    have hextent := extent_definite htag hfits L rest
    rw [Ber.encode, List.cons_append, List.append_assoc, hextent, Ber.extent, Ber.lead,
      Ber.content, Ber.encode, Ber.tag, List.length_cons, List.length_cons, List.length_append,
      Nat.add_comm 1, Nat.add_right_comm]
  · rintro tag (len | _) members ih L ⟨hcons, htag, hfits, hmembers, -⟩ hlevels rest
    · have hpos : 1 ≤ L := hlevels
      obtain ⟨L, rfl⟩ := Nat.exists_eq_add_of_le' hpos
      have hextent := extent_definite htag hfits L rest
      rw [Ber.encode, List.cons_append, Form.lead, Form.trail, List.append_nil, List.append_assoc,
        hextent, Ber.extent, Ber.lead, Ber.content, Ber.encode, Ber.tag, Form.lead, Form.trail,
        List.append_nil, List.length_cons, List.length_cons, List.length_append, Nat.add_comm 1,
        Nat.add_right_comm]
    · have hlevels' : Ber.levelsAll members + 1 ≤ L := hlevels
      obtain ⟨L, rfl⟩ := Nat.exists_eq_add_of_le' (Nat.le_trans (Nat.le_add_left 1 _) hlevels')
      have hinner : ∀ e ∈ members, ∀ rest, extent L (e.encode ++ rest) = .ok e.extent := by
        intro e he
        refine ih e he L (hmembers.mem he) ?_
        exact Nat.le_trans (Ber.levels_le he) (Nat.le_of_succ_le_succ hlevels')
      have hcount : members.length <
          (Ber.encodeAll members ++ 0x00 :: 0x00 :: rest).length + 1 := by
        have hle := Ber.length_le_encodeAll members
        rw [List.length_append]
        omega
      have hend := contentsEnd_encodeAll hinner (fun e he => (hmembers.mem he).tag_ne_zero)
        [] rest hcount
      rw [List.nil_append, List.length_nil, Nat.zero_add] at hend
      have hencode : (Ber.constructed tag .indefinite members).encode ++ rest =
          tag :: 0x80 :: (Ber.encodeAll members ++ 0x00 :: 0x00 :: rest) := by
        rw [Ber.encode, Form.lead, Form.trail, List.cons_append, List.append_assoc,
          List.append_assoc]
        rfl
      rw [hencode, extent, header_indefinite htag hcons, Checks.ok_bind]
      dsimp only
      rw [if_neg (by simp only [List.length_cons]; omega), List.drop_succ_cons,
        List.drop_succ_cons, List.drop_zero, hend, Checks.ok_bind]
      have htotal : 2 + (Ber.encodeAll members).length + 2 =
          (Ber.constructed tag .indefinite members).encode.length := by
        rw [Ber.encode, Form.lead, Form.trail]
        simp only [List.length_cons, List.length_append, List.length_nil]
        omega
      rw [htotal]
      rfl

/-! ### Reading -/

theorem cut_encode (e : Ber) (rest : List UInt8) :
    cut (e.encode ++ rest) e.extent = .ok (e.content, rest) := by
  have hcontent : ((e.encode ++ rest).drop e.lead.length).take e.content.length = e.content := by
    rw [e.encode_eq, List.append_assoc, List.drop_left, List.append_assoc, List.take_left]
  have hroom : ¬ ((e.encode ++ rest).length < e.extent.hlen + e.extent.clen ∨
      (e.encode ++ rest).length < e.extent.total) := by
    rw [Ber.extent, List.length_append]
    rintro (hshort | hshort)
    · dsimp only at hshort
      rw [e.encode_eq, List.length_append, List.length_append] at hshort
      omega
    · exact absurd hshort (Nat.not_lt.mpr (Nat.le_add_right _ _))
  rw [cut, if_neg hroom]
  dsimp only [Ber.extent]
  rw [hcontent, List.drop_left]

theorem flattenOctets_encodeAll {L : Nat} {members : List Ber}
    (h : ∀ e ∈ members, Reads (readSegment (extent L) (flattenOctets L)) e.encode e.joined) :
    flattenOctets (L + 1) (Ber.encodeAll members) = .ok (Ber.joinedAll members) := by
  have hall : List.Forall₂ (fun pre a => pre ≠ [] ∧
      Reads (readSegment (extent L) (flattenOctets L)) pre a)
      (members.map Ber.encode) (members.map Ber.joined) := by
    rw [List.forall₂_map_left_iff, List.forall₂_map_right_iff, List.forall₂_same]
    exact fun e he => ⟨e.encode_ne_nil, h e he⟩
  have hread := Reader.toEnd_flatten (e := .malformed "truncated element") hall
    (Ber.encodeAll members).length (by rw [Ber.encodeAll_eq])
  rw [← Ber.encodeAll_eq] at hread
  rw [flattenOctets, hread, Checks.ok_bind, Ber.joinedAll_eq]
  rfl

/-- A segment is read with the segments inside it. -/
theorem reads_segment (e : Ber) : ∀ L, e.Ok → e.tag = 0x04 ∨ e.tag = 0x24 → e.levels ≤ L →
    e.joinLevels ≤ L → Reads (readSegment (extent L) (flattenOctets L)) e.encode e.joined := by
  refine Ber.induct (P := fun e => ∀ L, e.Ok → e.tag = 0x04 ∨ e.tag = 0x24 → e.levels ≤ L →
    e.joinLevels ≤ L → Reads (readSegment (extent L) (flattenOctets L)) e.encode e.joined) ?_ ?_ e
  · intro tag len content L hok htag hlevels _ rest
    have hprimitive : tag = 0x04 := by
      rcases htag with htag | htag
      · exact htag
      · obtain rfl : tag = 0x24 := htag
        exact absurd hok.1 (by decide)
    subst hprimitive
    rw [readSegment, extent_encode _ L hok hlevels, Checks.ok_bind, cut_encode, Checks.ok_bind]
    rfl
  · intro tag form members ih L hok htag hlevels hjoin rest
    have hconstructed : tag = 0x24 := by
      rcases htag with htag | htag
      · obtain rfl : tag = 0x04 := htag
        exact absurd rfl hok.1
      · exact htag
    subst hconstructed
    have hjoin' : Ber.joinLevelsAll members + 1 ≤ L := hjoin
    have hmembers : Ber.OkAll members := hok.2.2.2.1
    have hsegments : Ber.Segments members := hok.2.2.2.2 rfl
    obtain ⟨L, rfl⟩ := Nat.exists_eq_add_of_le' (Nat.le_trans (Nat.le_add_left 1 _) hjoin')
    have hnested : flattenOctets (L + 1) (Ber.encodeAll members) = .ok (Ber.joinedAll members) := by
      refine flattenOctets_encodeAll fun e he => ?_
      obtain ⟨hlevel, hjoinLevel⟩ := Ber.joinLevels_le he
      have hle := Nat.le_of_succ_le_succ hjoin'
      exact ih e he L (hmembers.mem he) (hsegments.mem he) (Nat.le_trans hlevel hle)
        (Nat.le_trans hjoinLevel hle)
    rw [readSegment, extent_encode _ (L + 1) hok hlevels, Checks.ok_bind, cut_encode,
      Checks.ok_bind]
    have hother : ¬ (Ber.constructed 0x24 form members).extent.tag = 0x04 := by
      change ¬ (0x24 : UInt8) = 0x04
      decide
    have hsame : (Ber.constructed 0x24 form members).extent.tag = 0x24 := rfl
    dsimp only [Ber.content]
    rw [if_neg hother, if_pos hsame, hnested]
    rfl

/-- **An element is read whatever its encoding and whatever follows it.** -/
theorem reads_tlv {e : Ber} (hok : e.Ok) (hdepth : e.depth ≤ MAX_DEPTH) :
    Reads readTlv e.encode e.tlv := by
  intro rest
  have hlevels : e.levels ≤ MAX_DEPTH := by
    rw [Ber.depth] at hdepth
    split at hdepth
    · exact Nat.le_trans (Nat.le_max_left _ _) hdepth
    · exact hdepth
  rw [readTlv, extent_encode e MAX_DEPTH hok hlevels, Checks.ok_bind, cut_encode, Checks.ok_bind]
  dsimp only
  by_cases htag : e.extent.tag = 0x24
  · have hjoin : e.joinLevels ≤ MAX_DEPTH := by
      rw [Ber.depth, if_pos (show e.tag = 0x24 from htag)] at hdepth
      exact Nat.le_trans (Nat.le_max_right _ _) hdepth
    have hjoined : flattenOctets MAX_DEPTH e.content = .ok e.joined := by
      rcases e with ⟨tag, len, content⟩ | ⟨tag, form, members⟩
      · obtain rfl : tag = 0x24 := htag
        exact absurd hok.1 (by decide)
      · obtain ⟨-, -, -, hmembers, hsegments⟩ := hok
        refine flattenOctets_encodeAll fun e he => ?_
        obtain ⟨hlevel, hjoinLevel⟩ := Ber.joinLevels_le he
        have hle : Ber.joinLevelsAll members ≤ 31 := Nat.le_of_succ_le_succ hjoin
        exact reads_segment e 31 (hmembers.mem he) ((hsegments htag).mem he)
          (Nat.le_trans hlevel hle) (Nat.le_trans hjoinLevel hle)
    rw [if_pos htag, hjoined, Checks.ok_bind, Ber.tlv, if_pos (show e.tag = 0x24 from htag)]
    rfl
  · rw [if_neg htag, Ber.tlv, if_neg (show ¬ e.tag = 0x24 from htag)]
    rfl

/-- The members of an element, one after the other. -/
theorem children_encodeAll {members : List Ber} (hok : ∀ e ∈ members, e.Ok)
    (hdepth : ∀ e ∈ members, e.depth ≤ MAX_DEPTH) :
    children (Ber.encodeAll members) = .ok (members.map Ber.tlv) := by
  have hall : List.Forall₂ (fun pre a => pre ≠ [] ∧ Reads readTlv pre a)
      (members.map Ber.encode) (members.map Ber.tlv) := by
    rw [List.forall₂_map_left_iff, List.forall₂_map_right_iff, List.forall₂_same]
    exact fun e he => ⟨e.encode_ne_nil, reads_tlv (hok e he) (hdepth e he)⟩
  have hread := Reader.toEnd_flatten (e := .malformed "truncated element") hall
    (Ber.encodeAll members).length (by rw [Ber.encodeAll_eq])
  rwa [← Ber.encodeAll_eq] at hread

end Keyroost.P12
