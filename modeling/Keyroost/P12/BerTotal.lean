import Keyroost.P12.BerEncoding

/-!
# The BER reader on any bytes

The reader of `Ber` once more in additions of 64 bits that may overflow. On a byte string that fits
in memory none does, every element lies within its input, and the loops come to their ends.

`Guarded` is the result of a computation that an overflow ends, and each function of the reader has
a copy in it with the additions of `keyroost-p12/src/ber.rs`. That an element lies within its input
(`extent_within`) is what bounds the sums, and `guardedReadTlv_eq` carries it through the reader.
The last section is about fuel: more of it changes nothing. `readTlv_exact` adds the encodings of
`BerEncoding`.
-/

namespace Keyroost.P12

/-! ### With additions that may overflow -/

/-- A result, or nothing where an addition overflows. -/
abbrev Guarded (α : Type) : Type := ExceptT P12Error Option α

def overflow {α : Type} : Guarded α := ExceptT.mk none

def addUsize (a b : Nat) : Guarded Nat := if a + b < 2 ^ 64 then pure (a + b) else overflow

def outcome {α : Type} (x : Except P12Error α) : Guarded α := ExceptT.mk (some x)

def guardedContentsEnd (inner : List UInt8 → Guarded Extent) (body : List UInt8) :
    Nat → Nat → Guarded Nat
  | 0, _ => outcome (bad "missing end of contents")
  | fuel + 1, pos =>
      let here := body.drop pos
      if here.length < 2 then outcome (bad "missing end of contents")
      else if here.take 2 = [0, 0] then pure pos
      else do
        let e ← inner here
        let pos ← addUsize pos e.total
        guardedContentsEnd inner body fuel pos

def guardedExtent : Nat → List UInt8 → Guarded Extent
  | 0, _ => outcome (bad "nesting too deep")
  | levels + 1, input => do
      let (tag, len, hlen) ← outcome (header input)
      if input.length < hlen then outcome (bad "truncated element")
      else
        let body := input.drop hlen
        match len with
        | some clen =>
            if body.length < clen then outcome (bad "length exceeds input")
            else
              let total ← addUsize hlen clen
              return ⟨tag, hlen, clen, total⟩
        | none =>
            let pos ← guardedContentsEnd (guardedExtent levels) body (body.length + 1) 0
            let marked ← addUsize hlen pos
            let total ← addUsize marked 2
            return ⟨tag, hlen, pos, total⟩

def guardedCut (input : List UInt8) (e : Extent) : Guarded (List UInt8 × List UInt8) := do
  let stop ← addUsize e.hlen e.clen
  if input.length < stop ∨ input.length < e.total then outcome (bad "truncated element")
  else return ((input.drop e.hlen).take e.clen, input.drop e.total)

def guardedSegment (inner : List UInt8 → Guarded Extent)
    (nested : List UInt8 → Guarded (List UInt8)) (rest : List UInt8) :
    Guarded (List UInt8 × List UInt8) := do
  let e ← inner rest
  let (segment, rest) ← guardedCut rest e
  if e.tag = 0x04 then return (segment, rest)
  else if e.tag = 0x24 then return (← nested segment, rest)
  else outcome (bad "unexpected element inside an octet string")

/-- The loop over the segments. -/
def guardedSegments (segment : List UInt8 → Guarded (List UInt8 × List UInt8)) :
    Nat → List UInt8 → Guarded (List (List UInt8))
  | _, [] => pure []
  | 0, _ :: _ => outcome (bad "truncated element")
  | fuel + 1, b :: data => do
      let (a, rest) ← segment (b :: data)
      return a :: (← guardedSegments segment fuel rest)

def guardedFlatten : Nat → List UInt8 → Guarded (List UInt8)
  | 0, _ => outcome (bad "nesting too deep")
  | levels + 1, content => do
      let segments ← guardedSegments (guardedSegment (guardedExtent levels) (guardedFlatten levels))
        content.length content
      return segments.flatten

def guardedReadTlv (input : List UInt8) : Guarded (Tlv × List UInt8) := do
  let e ← guardedExtent MAX_DEPTH input
  let (content, rest) ← guardedCut input e
  let value ← if e.tag = 0x24 then guardedFlatten MAX_DEPTH content else pure content
  return (⟨e.tag, e.tag &&& 0x20 != 0, value⟩, rest)

/-! ### Where elements lie -/

/-- An element that lies within its input and takes some of it. -/
def Extent.Within (e : Extent) (input : List UInt8) : Prop :=
  e.hlen + e.clen ≤ e.total ∧ e.total ≤ input.length ∧ 2 ≤ e.total

theorem header_len {input : List UInt8} {tag : UInt8} {len : Option Nat} {hlen : Nat}
    (h : header input = .ok (tag, len, hlen)) : 2 ≤ hlen := by
  rcases input with _ | ⟨t, rest⟩
  · cases h
  simp only [header] at h
  split at h
  · cases h
  rcases rest with _ | ⟨first, body⟩
  · cases h
  dsimp only at h
  split at h
  · obtain ⟨-, -, rfl⟩ := h
    exact Nat.le_refl 2
  split at h
  · split at h
    · cases h
    · obtain ⟨-, -, rfl⟩ := h
      exact Nat.le_refl 2
  split at h
  · cases h
  split at h
  · cases h
  · obtain ⟨-, -, rfl⟩ := h
    exact Nat.le_add_right 2 _

/-- The marker found lies in the body. -/
theorem contentsEnd_within {inner : List UInt8 → Except P12Error Extent} {body : List UInt8}
    {fuel pos stop : Nat} (h : contentsEnd inner body fuel pos = .ok stop) :
    stop + 2 ≤ body.length := by
  induction fuel generalizing pos with
  | zero => cases h
  | succ fuel ih =>
      rw [contentsEnd] at h
      split at h
      · cases h
      rename_i hlong
      rw [List.length_drop] at hlong
      split at h
      · obtain rfl := Except.ok.inj h
        omega
      · obtain ⟨e, -, h⟩ := Checks.bind_eq_ok.mp h
        exact ih h

theorem extent_within {L : Nat} {input : List UInt8} {e : Extent} (h : extent L input = .ok e) :
    e.Within input := by
  rcases L with _ | L
  · cases h
  rw [extent] at h
  obtain ⟨⟨tag, len, hlen⟩, hheader, h⟩ := Checks.bind_eq_ok.mp h
  have hpos := header_len hheader
  dsimp only at h
  split at h
  · cases h
  rename_i hfits
  rcases len with _ | clen
  · obtain ⟨pos, hend, h⟩ := Checks.bind_eq_ok.mp h
    obtain rfl := Except.ok.inj h
    have hin := contentsEnd_within hend
    rw [List.length_drop] at hin
    refine ⟨?_, ?_, ?_⟩
    · dsimp only
      omega
    · dsimp only
      omega
    · dsimp only
      omega
  · dsimp only at h
    split at h
    · cases h
    rename_i hroom
    rw [List.length_drop] at hroom
    obtain rfl := Except.ok.inj h
    refine ⟨?_, ?_, ?_⟩
    · dsimp only
      omega
    · dsimp only
      omega
    · dsimp only
      omega

/-- Nothing is cut beyond the input. -/
theorem cut_within {input : List UInt8} {e : Extent} (h : e.Within input) :
    cut input e = .ok ((input.drop e.hlen).take e.clen, input.drop e.total) := by
  obtain ⟨hcontent, htotal, -⟩ := h
  rw [cut, if_neg (by omega)]

theorem length_of_cut {input content rest : List UInt8} {e : Extent} (h : e.Within input)
    (hcut : cut input e = .ok (content, rest)) :
    content.length ≤ input.length ∧ rest.length < input.length := by
  have htotal := h.2.1
  have hpos := h.2.2
  rw [cut_within h] at hcut
  obtain ⟨rfl, rfl⟩ := Prod.mk.inj (Except.ok.inj hcut)
  rw [List.length_take, List.length_drop, List.length_drop]
  omega

/-! ### No addition overflows -/

section

variable {α β : Type}

theorem outcome_bind (x : Except P12Error α) (f : α → Guarded β) {g : α → Except P12Error β}
    (h : ∀ a, x = .ok a → f a = outcome (g a)) : (outcome x >>= f) = outcome (x >>= g) := by
  rcases x with e | a
  · rfl
  · exact h a rfl

theorem addUsize_bind {a b : Nat} (h : a + b < 2 ^ 64) (f : Nat → Guarded β) :
    (addUsize a b >>= f) = f (a + b) := by
  rw [addUsize, if_pos h]
  rfl

end

theorem guardedContentsEnd_eq (inner : List UInt8 → Except P12Error Extent)
    {guarded : List UInt8 → Guarded Extent} {body : List UInt8} (hbody : body.length < 2 ^ 63)
    (hguarded : ∀ here, here.length ≤ body.length → guarded here = outcome (inner here))
    (hinner : ∀ here e, inner here = .ok e → e.Within here) (fuel pos : Nat) :
    guardedContentsEnd guarded body fuel pos = outcome (contentsEnd inner body fuel pos) := by
  induction fuel generalizing pos with
  | zero => rfl
  | succ fuel ih =>
      rw [guardedContentsEnd, contentsEnd]
      split
      · rfl
      rename_i hlong
      split
      · rfl
      have hlen : (body.drop pos).length = body.length - pos := List.length_drop
      rw [hguarded _ (by omega)]
      refine outcome_bind _ _ fun e he => ?_
      have hle := (hinner _ e he).2.1
      rw [addUsize_bind (by omega)]
      exact ih (pos + e.total)

theorem guardedExtent_eq (L : Nat) {input : List UInt8} (hinput : input.length < 2 ^ 63) :
    guardedExtent L input = outcome (extent L input) := by
  induction L generalizing input with
  | zero => rfl
  | succ L ih =>
      rw [guardedExtent, extent]
      refine outcome_bind _ _ ?_
      rintro ⟨tag, len, hlen⟩ -
      dsimp only
      split
      · rfl
      rename_i hfits
      have hdrop : (input.drop hlen).length = input.length - hlen := List.length_drop
      rcases len with _ | clen
      · dsimp only
        rw [guardedContentsEnd_eq (extent L) (by omega) (fun here hhere => ih (by omega))
          fun _ _ => extent_within]
        refine outcome_bind _ _ fun pos hpos => ?_
        have hin := contentsEnd_within hpos
        rw [addUsize_bind (by omega), addUsize_bind (by omega)]
        rfl
      · dsimp only
        split
        · rfl
        · rw [addUsize_bind (by omega)]
          rfl

theorem guardedCut_eq {input : List UInt8} (hinput : input.length < 2 ^ 63) {e : Extent}
    (h : e.Within input) : guardedCut input e = outcome (cut input e) := by
  obtain ⟨hcontent, htotal, -⟩ := h
  rw [guardedCut, addUsize_bind (by omega), cut]
  split
  · rfl
  · rfl

theorem guardedSegment_eq {L : Nat} {nested : List UInt8 → Except P12Error (List UInt8)}
    {guarded : List UInt8 → Guarded (List UInt8)} {rest : List UInt8}
    (hrest : rest.length < 2 ^ 63)
    (hguarded : ∀ data, data.length < 2 ^ 63 → guarded data = outcome (nested data)) :
    guardedSegment (guardedExtent L) guarded rest =
      outcome (readSegment (extent L) nested rest) := by
  rw [guardedSegment, readSegment, guardedExtent_eq L hrest]
  refine outcome_bind _ _ fun e he => ?_
  have hwithin := extent_within he
  rw [guardedCut_eq hrest hwithin]
  refine outcome_bind _ _ ?_
  rintro ⟨segment, rest'⟩ hcut
  have hsegment : segment.length ≤ rest.length := (length_of_cut hwithin hcut).1
  dsimp only
  split
  · rfl
  · split
    · rw [hguarded segment (by omega)]
      exact outcome_bind _ _ fun _ _ => rfl
    · rfl

theorem guardedSegments_eq (item : Reader P12Error (List UInt8))
    {guarded : List UInt8 → Guarded (List UInt8 × List UInt8)}
    (hguarded : ∀ data, data.length < 2 ^ 63 → guarded data = outcome (item data))
    (hitem : ∀ data a rest, item data = .ok (a, rest) → rest.length < data.length)
    (fuel : Nat) {data : List UInt8} (hdata : data.length < 2 ^ 63) :
    guardedSegments guarded fuel data =
      outcome (Reader.toEnd (.malformed "truncated element") item fuel data) := by
  induction fuel generalizing data with
  | zero =>
      rcases data with _ | ⟨b, data⟩
      · rfl
      · rfl
  | succ fuel ih =>
      rcases data with _ | ⟨b, data⟩
      · rfl
      rw [guardedSegments, Reader.toEnd, hguarded _ hdata]
      refine outcome_bind _ _ ?_
      rintro ⟨a, rest⟩ hx
      have hless := hitem _ a rest hx
      dsimp only
      rw [ih (by omega)]
      exact outcome_bind _ _ fun _ _ => rfl

theorem readSegment_less {L : Nat} {nested : List UInt8 → Except P12Error (List UInt8)}
    {data a rest : List UInt8} (h : readSegment (extent L) nested data = .ok (a, rest)) :
    rest.length < data.length := by
  rw [readSegment] at h
  obtain ⟨e, he, h⟩ := Checks.bind_eq_ok.mp h
  obtain ⟨⟨segment, rest'⟩, hcut, h⟩ := Checks.bind_eq_ok.mp h
  have hless := (length_of_cut (extent_within he) hcut).2
  dsimp only at h
  split at h
  · obtain ⟨-, rfl⟩ := Prod.mk.inj (Except.ok.inj h)
    exact hless
  · split at h
    · obtain ⟨joined, -, h⟩ := Checks.bind_eq_ok.mp h
      obtain ⟨-, rfl⟩ := Prod.mk.inj (Except.ok.inj h)
      exact hless
    · cases h

theorem guardedFlatten_eq (L : Nat) {content : List UInt8} (hcontent : content.length < 2 ^ 63) :
    guardedFlatten L content = outcome (flattenOctets L content) := by
  induction L generalizing content with
  | zero => rfl
  | succ L ih =>
      rw [guardedFlatten, flattenOctets, guardedSegments_eq (readSegment (extent L)
        (flattenOctets L)) (fun data hdata => guardedSegment_eq hdata fun _ => ih)
        (fun _ _ _ => readSegment_less) _ hcontent]
      exact outcome_bind _ _ fun _ _ => rfl

theorem guardedReadTlv_eq {input : List UInt8} (hinput : input.length < 2 ^ 63) :
    guardedReadTlv input = outcome (readTlv input) := by
  rw [guardedReadTlv, readTlv, guardedExtent_eq MAX_DEPTH hinput]
  refine outcome_bind _ _ fun e he => ?_
  have hwithin := extent_within he
  rw [guardedCut_eq hinput hwithin]
  refine outcome_bind _ _ ?_
  rintro ⟨content, rest⟩ hcut
  have hcontent : content.length ≤ input.length := (length_of_cut hwithin hcut).1
  dsimp only
  split
  · rw [guardedFlatten_eq MAX_DEPTH (by omega)]
    exact outcome_bind _ _ fun _ _ => rfl
  · rfl

/-! ### The loops end -/

theorem readTlv_less {data rest : List UInt8} {t : Tlv} (h : readTlv data = .ok (t, rest)) :
    rest.length < data.length ∧ rest <:+ data := by
  rw [readTlv] at h
  obtain ⟨e, he, h⟩ := Checks.bind_eq_ok.mp h
  have hwithin := extent_within he
  obtain ⟨⟨content, rest'⟩, hcut, h⟩ := Checks.bind_eq_ok.mp h
  have hless := (length_of_cut hwithin hcut).2
  have hsuffix : rest' <:+ data := by
    rw [cut_within hwithin] at hcut
    obtain ⟨-, rfl⟩ := Prod.mk.inj (Except.ok.inj hcut)
    exact List.drop_suffix _ _
  dsimp only at h
  split at h
  · obtain ⟨value, -, h⟩ := Checks.bind_eq_ok.mp h
    obtain ⟨-, rfl⟩ := Prod.mk.inj (Except.ok.inj h)
    exact ⟨hless, hsuffix⟩
  · obtain ⟨-, rfl⟩ := Prod.mk.inj (Except.ok.inj h)
    exact ⟨hless, hsuffix⟩

/-- The walk over an indefinite content never lacks fuel: more of it changes nothing. -/
theorem contentsEnd_more {inner : List UInt8 → Except P12Error Extent} {body : List UInt8}
    (hinner : ∀ here e, inner here = .ok e → e.Within here) {fuel pos : Nat} (more : Nat)
    (hfuel : body.length < pos + fuel) :
    contentsEnd inner body (fuel + more) pos = contentsEnd inner body fuel pos := by
  induction fuel generalizing pos with
  | zero =>
      rcases more with _ | more
      · rfl
      · have hlen : (body.drop pos).length = body.length - pos := List.length_drop
        rw [Nat.zero_add, contentsEnd, contentsEnd, if_pos (by omega)]
  | succ fuel ih =>
      rw [Nat.succ_add, contentsEnd, contentsEnd]
      split
      · rfl
      split
      · rfl
      refine Checks.bind_congr_ok fun e he => ?_
      have htotal := (hinner _ e he).2.2
      exact ih (by omega)

/-- Nor does the loop over the segments of an octet string. -/
theorem segments_more (L : Nat) (content : List UInt8) (more : Nat) :
    Reader.toEnd (.malformed "truncated element") (readSegment (extent L) (flattenOctets L))
        (content.length + more) content =
      Reader.toEnd (.malformed "truncated element") (readSegment (extent L) (flattenOctets L))
        content.length content :=
  Reader.toEnd_fuel (fun _ _ _ => readSegment_less) (Nat.le_add_right _ more) (Nat.le_refl _)

/-- **The BER reader.** Whatever the encoding of an element within the depth limit and whatever
follows it, the element is read and exactly the rest is left; the members of a constructed element
are read in sequence. On any input that fits in memory no addition overflows, what is left is
the end of the input, and the loops come to their end. -/
theorem readTlv_exact :
    (∀ e : Ber, e.Ok → e.depth ≤ MAX_DEPTH → ∀ rest,
      readTlv (e.encode ++ rest) = .ok (e.tlv, rest)) ∧
    (∀ tag form members, (Ber.constructed tag form members).Ok → tag ≠ 0x24 →
      (∀ e ∈ members, e.depth ≤ MAX_DEPTH) →
        children (Ber.constructed tag form members).tlv.value = .ok (members.map Ber.tlv)) ∧
    (∀ input : List UInt8, input.length < 2 ^ 63 →
      guardedReadTlv input = outcome (readTlv input)) ∧
    (∀ input t rest, readTlv input = .ok (t, rest) →
      rest.length < input.length ∧ rest <:+ input) ∧
    (∀ L body more, contentsEnd (extent L) body (body.length + 1 + more) 0 =
      contentsEnd (extent L) body (body.length + 1) 0) ∧
    (∀ L content more,
      Reader.toEnd (.malformed "truncated element") (readSegment (extent L) (flattenOctets L))
          (content.length + more) content =
        Reader.toEnd (.malformed "truncated element") (readSegment (extent L) (flattenOctets L))
          content.length content) ∧
    ∀ value more,
      Reader.toEnd (.malformed "truncated element") readTlv (value.length + more) value =
        children value := by
  refine ⟨fun e hok hdepth => reads_tlv hok hdepth, ?_, fun _ => guardedReadTlv_eq,
    fun _ _ _ => readTlv_less, ?_, segments_more, ?_⟩
  · intro tag form members hok htag hdepth
    have hvalue : (Ber.constructed tag form members).tlv.value = Ber.encodeAll members :=
      if_neg htag
    rw [hvalue]
    exact children_encodeAll (fun e he => hok.2.2.2.1.mem he) hdepth
  · intro L body more
    exact contentsEnd_more (fun _ _ => extent_within) more (by omega)
  · intro value more
    exact Reader.toEnd_fuel (fun _ _ _ h => (readTlv_less h).1) (Nat.le_add_right _ more)
      (Nat.le_refl _)

/-- A length field may start with zero bytes, but one of nine bytes is refused. -/
theorem readTlv_nine_length_bytes :
    readTlv [0x04, 0x81, 0x01, 0x61] = .ok (⟨0x04, false, [0x61]⟩, []) ∧
    readTlv [0x04, 0x89, 0, 0, 0, 0, 0, 0, 0, 0, 0x01, 0x61] =
      .error (.malformed "length too large") := ⟨by rfl, by rfl⟩

end Keyroost.P12
