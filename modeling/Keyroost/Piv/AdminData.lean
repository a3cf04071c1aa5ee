import Keyroost.Piv.CertObject

/-!
# Admin Data

A vendor object whose flags byte says, among other things, whether the management key is
stored protected by the PIN. One bit of it is changed; the rest of the object stays. Modelled from
`keyroost-piv/src/lib.rs`, whose editor works on the bytes of the object: it looks for the container
and for the flags entry in it, and writes both anew around what it leaves alone.

What an object says is stated over fields and their encodings (`Field`, `encodeFields`), with any
form of length, since other software writes the object too. `tlvSpan_some` and `tlvSpan_none` say
which field the search of the code comes to. `Meets` is what is asked of both changes, and the
last section goes through the kinds of content: no container, a container without flags, and one with
flags of each length.
-/

namespace Keyroost.Piv

def ADMIN_DATA_FLAG_PIN_PROTECTED_MGM_KEY : UInt8 := 0x02

/-- The loop of `tlv_span`: where the first entry of a tag and its value start, and where it ends.
The number counts down the entries that may be left. -/
def tlvSpanFrom (buf : List UInt8) (tag : UInt8) : Nat → Nat → Option (Nat × Nat × Nat)
  | 0, _ => none
  | left + 1, i =>
      match buf.drop i with
      | [] => none
      | t :: rest => do
          let (len, header) ← readBerLen rest
          let vstart := i + 1 + header
          let vend := vstart + len
          if buf.length < vend then none
          else if t = tag then return (i, vstart, vend)
          else tlvSpanFrom buf tag left vend

def tlvSpan (buf : List UInt8) (tag : UInt8) : Option (Nat × Nat × Nat) :=
  tlvSpanFrom buf tag buf.length 0

/-- `buf[start..end]` -/
def between (buf : List UInt8) (start stop : Nat) : List UInt8 := (buf.take stop).drop start

def flagsEntry (flags : UInt8) : List UInt8 := pushTlv [0x81] [flags]

def updatedFlags (set : Bool) (current : UInt8) : UInt8 :=
  if set then current ||| ADMIN_DATA_FLAG_PIN_PROTECTED_MGM_KEY
  else current &&& ~~~ADMIN_DATA_FLAG_PIN_PROTECTED_MGM_KEY

/-- The container with its flags byte changed, or `none` when there is nothing to write. -/
def newContainer (container : List UInt8) (set : Bool) : Option (List UInt8) :=
  match tlvSpan container 0x81 with
  | some (fstart, fvstart, fvend) =>
      match between container fvstart fvend with
      | [current] =>
          if set = false ∧ current &&& ADMIN_DATA_FLAG_PIN_PROTECTED_MGM_KEY = 0 then none
          else some (container.take fstart ++ flagsEntry (updatedFlags set current) ++
            container.drop fvend)
      -- An unexpected length: the container is left as it is.
      | _ => none
  | none =>
      if set then some (container ++ flagsEntry ADMIN_DATA_FLAG_PIN_PROTECTED_MGM_KEY) else none

def setAdminDataPinProtectedFlag (existing : List UInt8) (set : Bool) : Option (List UInt8) :=
  match tlvSpan existing 0x80 with
  | none =>
      if set then
        some (existing ++ pushTlv [0x80] (flagsEntry ADMIN_DATA_FLAG_PIN_PROTECTED_MGM_KEY))
      else none
  | some (cstart, cvstart, cvend) =>
      (newContainer (between existing cvstart cvend) set).map fun container =>
        existing.take cstart ++ pushTlv [0x80] container ++ existing.drop cvend

/-! ### Fields -/

/-- How a length is written: alone, or in one or two bytes after their count. The reader takes each
of them for any length that it can hold; the writer takes the shortest. -/
inductive LenForm where
  | short
  | one
  | two
deriving DecidableEq, Repr

namespace LenForm

def bytes (len : Nat) : LenForm → List UInt8
  | short => [len.toUInt8]
  | one => [0x81, len.toUInt8]
  | two => 0x82 :: Bytes.be 2 len

def Fits (len : Nat) : LenForm → Prop
  | short => len < 0x80
  | one => len ≤ 0xFF
  | two => len ≤ 0xFFFF

end LenForm

/-- An entry with a tag of one byte, whose length need not be in its shortest form. It keeps the
form it was written in, so that what is left alone can be said to be byte for byte as it was. -/
structure Field where
  tag : UInt8
  form : LenForm
  value : List UInt8
deriving DecidableEq, Repr

namespace Field

def Ok (f : Field) : Prop := f.form.Fits f.value.length

def encode (f : Field) : List UInt8 := f.tag :: (f.form.bytes f.value.length ++ f.value)

end Field

def encodeFields (fields : List Field) : List UInt8 := (fields.map Field.encode).flatten

theorem encodeFields_nil : encodeFields [] = [] := rfl

theorem encodeFields_append (fields fields' : List Field) :
    encodeFields (fields ++ fields') = encodeFields fields ++ encodeFields fields' := by
  rw [encodeFields, List.map_append, List.flatten_append]
  rfl

theorem encodeFields_cons (f : Field) (fields : List Field) :
    encodeFields (f :: fields) = f.encode ++ encodeFields fields := rfl

theorem readBerLen_bytes {form : LenForm} {len : Nat} (h : form.Fits len) (tail : List UInt8) :
    readBerLen (form.bytes len ++ tail) = some (len, (form.bytes len).length) := by
  rcases form with _ | _ | _
  · have hlen : len.toUInt8.toNat = len :=
      Nat.mod_eq_of_lt (Nat.lt_trans h (by decide))
    have hlt : len.toUInt8 < 0x80 := by
      rw [UInt8.lt_iff_toNat_lt, hlen]
      exact h
    show (if len.toUInt8 < 0x80 then some (len.toUInt8.toNat, 1) else _) = _
    rw [if_pos hlt, hlen]
    rfl
  · have hlen : len.toUInt8.toNat = len := Nat.mod_eq_of_lt (Nat.lt_succ_of_le h)
    have hbe : Bytes.ofBe [len.toUInt8] = len := by
      show len.toUInt8.toNat + 256 * 0 = len
      rw [hlen]
      rfl
    show (if (0x81 : UInt8) < 0x80 then some (129, 1)
      else if 1 = 0 ∨ 2 < 1 then none
      else if ([len.toUInt8]).length < 1 then none
      else some (Bytes.ofBe [len.toUInt8], 1 + 1)) = _
    rw [if_neg (by decide), if_neg (by decide),
      if_neg (show ¬ [len.toUInt8].length < 1 from Nat.lt_irrefl 1), hbe]
    rfl
  · have htake : (Bytes.be 2 len ++ tail).take 2 = Bytes.be 2 len :=
      List.take_left' (Bytes.length_be 2 len)
    show (if (0x82 : UInt8) < 0x80 then some (130, 1)
      else if 2 = 0 ∨ 2 < 2 then none
      else if ((Bytes.be 2 len ++ tail).take 2).length < 2 then none
      else some (Bytes.ofBe ((Bytes.be 2 len ++ tail).take 2), 1 + 2)) = _
    rw [if_neg (by decide), if_neg (by decide), htake, Bytes.length_be, if_neg (Nat.lt_irrefl 2),
      Bytes.ofBe_be (Nat.lt_succ_of_le h)]
    rfl

theorem pushBerLen_form {len : Nat} (h : len ≤ 0xFFFF) :
    ∃ form : LenForm, form.Fits len ∧ pushBerLen len = form.bytes len := by
  rw [pushBerLen]
  split
  · rename_i hshort
    exact ⟨.short, hshort, rfl⟩
  split
  · rename_i hone
    exact ⟨.one, hone, rfl⟩
  · exact ⟨.two, h, rfl⟩

/-- What is written anew is a field too. -/
theorem pushTlv_field (tag : UInt8) {value : List UInt8} (h : value.length ≤ 0xFFFF) :
    ∃ f : Field, f.Ok ∧ f.tag = tag ∧ f.value = value ∧ pushTlv [tag] value = f.encode := by
  obtain ⟨form, hfits, hbytes⟩ := pushBerLen_form h
  refine ⟨⟨tag, form, value⟩, hfits, rfl, rfl, ?_⟩
  rw [pushTlv, hbytes]
  rfl

/-! ### Where a field is -/

/-- One entry of the walk: the one looked for, or the walk goes on behind it. -/
theorem tlvSpanFrom_field {f : Field} (hf : f.Ok) (before tail : List UInt8) (tag : UInt8)
    (left : Nat) : tlvSpanFrom (before ++ f.encode ++ tail) tag (left + 1) before.length =
      if f.tag = tag then
        some (before.length, before.length + 1 + (f.form.bytes f.value.length).length,
          before.length + f.encode.length)
      else tlvSpanFrom (before ++ f.encode ++ tail) tag left (before ++ f.encode).length := by
  have hdrop : (before ++ f.encode ++ tail).drop before.length =
      f.tag :: (f.form.bytes f.value.length ++ (f.value ++ tail)) := by
    rw [List.append_assoc, List.drop_left, Field.encode, List.cons_append, List.append_assoc]
  have hend : before.length + 1 + (f.form.bytes f.value.length).length + f.value.length =
      before.length + f.encode.length := by
    rw [Field.encode, List.length_cons, List.length_append]
    omega
  have hin : ¬ (before ++ f.encode ++ tail).length < before.length + f.encode.length := by
    rw [List.length_append, List.length_append]
    omega
  rw [tlvSpanFrom, hdrop]
  dsimp only
  rw [readBerLen_bytes hf]
  show (if _ < _ then none else if f.tag = tag then some _ else _) = _
  rw [hend, if_neg hin, ← List.length_append]

theorem length_le_encodeFields (fields : List Field) :
    fields.length ≤ (encodeFields fields).length := by
  induction fields with
  | nil => exact Nat.le_refl 0
  | cons f fields ih =>
      rw [encodeFields_cons, Field.encode, List.length_append, List.length_cons, List.length_cons]
      omega

theorem tlvSpanFrom_none {tag : UInt8} {fields : List Field} (hok : ∀ f ∈ fields, f.Ok)
    (hnone : ∀ f ∈ fields, f.tag ≠ tag) (before : List UInt8) (left : Nat) :
    tlvSpanFrom (before ++ encodeFields fields) tag left before.length = none := by
  induction fields generalizing before left with
  | nil =>
      rcases left with _ | left
      · rfl
      · rw [tlvSpanFrom, List.drop_left]
        rfl
  | cons f fields ih =>
      rcases left with _ | left
      · rfl
      rw [List.forall_mem_cons] at hok hnone
      rw [encodeFields_cons, ← List.append_assoc, tlvSpanFrom_field hok.1, if_neg hnone.1]
      exact ih hok.2 hnone.2 (before ++ f.encode) left

theorem tlvSpan_none {tag : UInt8} {fields : List Field} (hok : ∀ f ∈ fields, f.Ok)
    (hnone : ∀ f ∈ fields, f.tag ≠ tag) : tlvSpan (encodeFields fields) tag = none :=
  tlvSpanFrom_none hok hnone [] _

theorem tlvSpanFrom_some {f : Field} {pre : List Field} (hok : ∀ g ∈ pre, g.Ok)
    (hpre : ∀ g ∈ pre, g.tag ≠ f.tag) (hf : f.Ok) (before tail : List UInt8) (left : Nat) :
    tlvSpanFrom (before ++ encodeFields pre ++ f.encode ++ tail) f.tag (pre.length + left + 1)
        before.length =
      some ((before ++ encodeFields pre).length,
        (before ++ encodeFields pre).length + 1 + (f.form.bytes f.value.length).length,
        (before ++ encodeFields pre).length + f.encode.length) := by
  induction pre generalizing before with
  | nil =>
      rw [encodeFields, List.map_nil, List.flatten_nil, List.append_nil, List.length_nil,
        Nat.zero_add, tlvSpanFrom_field hf, if_pos rfl]
  | cons g pre ih =>
      rw [List.forall_mem_cons] at hok hpre
      have hrest := ih hok.2 hpre.2 (before ++ g.encode)
      have hsplit : before ++ encodeFields (g :: pre) ++ f.encode ++ tail =
          before ++ g.encode ++ (encodeFields pre ++ f.encode ++ tail) := by
        simp only [encodeFields_cons, List.append_assoc]
      have hcount : (g :: pre).length + left + 1 = pre.length + left + 1 + 1 := by
        rw [List.length_cons]
        omega
      have hsame : before ++ g.encode ++ encodeFields pre = before ++ encodeFields (g :: pre) := by
        rw [encodeFields_cons, List.append_assoc]
      rw [hsplit, hcount, tlvSpanFrom_field hok.1, if_neg hpre.1, ← hsame]
      simp only [List.append_assoc] at hrest ⊢
      exact hrest

theorem tlvSpan_some {f : Field} {pre : List Field} (hok : ∀ g ∈ pre, g.Ok)
    (hpre : ∀ g ∈ pre, g.tag ≠ f.tag) (hf : f.Ok) (post : List Field) :
    tlvSpan (encodeFields (pre ++ f :: post)) f.tag =
      some ((encodeFields pre).length,
        (encodeFields pre).length + 1 + (f.form.bytes f.value.length).length,
        (encodeFields pre).length + f.encode.length) := by
  have hlen := length_le_encodeFields (pre ++ f :: post)
  rw [List.length_append, List.length_cons] at hlen
  obtain ⟨left, hleft⟩ : ∃ left, (encodeFields (pre ++ f :: post)).length =
      pre.length + left + 1 := by
    obtain ⟨more, hmore⟩ := Nat.exists_eq_add_of_le hlen
    exact ⟨post.length + more, by omega⟩
  have hfrom := tlvSpanFrom_some hok hpre hf [] (encodeFields post) left
  rw [List.nil_append, List.append_assoc] at hfrom
  rw [tlvSpan, hleft, encodeFields_append, encodeFields_cons]
  exact hfrom

/-- The parts of a content around one of its fields. -/
theorem around_field (pre post : List Field) (f : Field) :
    (encodeFields (pre ++ f :: post)).take (encodeFields pre).length = encodeFields pre ∧
    between (encodeFields (pre ++ f :: post))
      ((encodeFields pre).length + 1 + (f.form.bytes f.value.length).length)
      ((encodeFields pre).length + f.encode.length) = f.value ∧
    (encodeFields (pre ++ f :: post)).drop ((encodeFields pre).length + f.encode.length) =
      encodeFields post := by
  rw [encodeFields_append, encodeFields_cons]
  refine ⟨List.take_left, ?_, ?_⟩
  · have hhead : (encodeFields pre).length + 1 + (f.form.bytes f.value.length).length =
        (encodeFields pre ++ f.tag :: f.form.bytes f.value.length).length := by
      rw [List.length_append, List.length_cons]
      omega
    rw [between, ← List.append_assoc, ← List.length_append, List.take_left, hhead, Field.encode,
      ← List.cons_append, ← List.append_assoc, List.drop_left]
  · rw [← List.append_assoc, ← List.length_append, List.drop_left]

/-! ### What is changed -/

/-- One flags byte with the bit as asked and every other bit as it was. -/
def FlagsChange (set : Bool) (b b' : UInt8) : Prop :=
  (b' &&& ADMIN_DATA_FLAG_PIN_PROTECTED_MGM_KEY ≠ 0 ↔ set = true) ∧
    b' &&& ~~~ADMIN_DATA_FLAG_PIN_PROTECTED_MGM_KEY =
      b &&& ~~~ADMIN_DATA_FLAG_PIN_PROTECTED_MGM_KEY

theorem flagsChange_updated (set : Bool) (b : UInt8) : FlagsChange set b (updatedFlags set b) := by
  obtain ⟨⟨i⟩⟩ := b
  rw [FlagsChange, updatedFlags, ADMIN_DATA_FLAG_PIN_PROTECTED_MGM_KEY]
  revert i
  cases set
  · decide +kernel
  · decide +kernel

/-- The members of a container of which only the flags byte, the first, changed or was added.
Setting adds one at the end where there is none; clearing never adds one. -/
inductive MembersChange (set : Bool) : List Field → List Field → Prop
  | changed {pre post : List Field} {flags flags' : Field} {b b' : UInt8}
      (hpre : ∀ f ∈ pre, f.tag ≠ 0x81) (htag : flags.tag = 0x81) (hvalue : flags.value = [b])
      (htag' : flags'.tag = 0x81) (hvalue' : flags'.value = [b']) (hb : FlagsChange set b b') :
      MembersChange set (pre ++ flags :: post) (pre ++ flags' :: post)
  | added {members : List Field} {flags : Field} (hnone : ∀ f ∈ members, f.tag ≠ 0x81)
      (htag : flags.tag = 0x81) (hvalue : flags.value = [0x02]) (hset : set = true) :
      MembersChange set members (members ++ [flags])

/-- A content of which only the first container's members changed, or to which one was added.
Everything before and behind that container is as it was. -/
inductive ContentChange (set : Bool) : List Field → List Field → Prop
  | changed {pre post members members' : List Field} {c c' : Field}
      (hpre : ∀ f ∈ pre, f.tag ≠ 0x80) (htag : c.tag = 0x80)
      (hvalue : c.value = encodeFields members) (htag' : c'.tag = 0x80)
      (hvalue' : c'.value = encodeFields members') (hmembers : MembersChange set members members') :
      ContentChange set (pre ++ c :: post) (pre ++ c' :: post)
  | added {fields members : List Field} {c : Field} (hnone : ∀ f ∈ fields, f.tag ≠ 0x80)
      (htag : c.tag = 0x80) (hvalue : c.value = encodeFields members)
      (hmembers : MembersChange set [] members) (hset : set = true) :
      ContentChange set fields (fields ++ [c])

/-! ### What is read -/

/-- The value of the first entry of a tag. -/
def tlvValue (buf : List UInt8) (tag : UInt8) : Option (List UInt8) :=
  (tlvSpan buf tag).map fun span => between buf span.2.1 span.2.2

def flagsOf (content : List UInt8) : Option (List UInt8) :=
  (tlvValue content 0x80).bind fun container => tlvValue container 0x81

def BitSet (content : List UInt8) : Prop :=
  ∃ b, flagsOf content = some [b] ∧ b &&& ADMIN_DATA_FLAG_PIN_PROTECTED_MGM_KEY ≠ 0

theorem tlvValue_none {tag : UInt8} {fields : List Field} (hok : ∀ f ∈ fields, f.Ok)
    (hnone : ∀ f ∈ fields, f.tag ≠ tag) : tlvValue (encodeFields fields) tag = none := by
  rw [tlvValue, tlvSpan_none hok hnone]
  rfl

theorem tlvValue_some {f : Field} {pre : List Field} (hok : ∀ g ∈ pre, g.Ok)
    (hpre : ∀ g ∈ pre, g.tag ≠ f.tag) (hf : f.Ok) (post : List Field) :
    tlvValue (encodeFields (pre ++ f :: post)) f.tag = some f.value := by
  rw [tlvValue, tlvSpan_some hok hpre hf, Option.map_some, (around_field pre post f).2.1]

/-- The first field of a tag, if there is one. -/
theorem first_field (tag : UInt8) (fields : List Field) :
    (∀ f ∈ fields, f.tag ≠ tag) ∨ ∃ pre f post, fields = pre ++ f :: post ∧
      (∀ g ∈ pre, g.tag ≠ f.tag) ∧ f.tag = tag := by
  induction fields with
  | nil => exact .inl nofun
  | cons g fields ih =>
      rcases eq_or_ne g.tag tag with hg | hg
      · exact .inr ⟨[], g, fields, rfl, nofun, hg⟩
      rcases ih with hnone | ⟨pre, f, post, rfl, hpre, hf⟩
      · exact .inl (List.forall_mem_cons.mpr ⟨hg, hnone⟩)
      · refine .inr ⟨g :: pre, f, post, rfl, ?_, hf⟩
        exact List.forall_mem_cons.mpr ⟨hf ▸ hg, hpre⟩

/-! ### What is written -/

theorem newContainer_some {flags : Field} {pre : List Field} (hok : ∀ f ∈ pre, f.Ok)
    (hpre : ∀ f ∈ pre, f.tag ≠ flags.tag) (hflags : flags.Ok) (htag : flags.tag = 0x81)
    {b : UInt8} (hvalue : flags.value = [b]) (post : List Field) (set : Bool) :
    newContainer (encodeFields (pre ++ flags :: post)) set =
      if set = false ∧ b &&& ADMIN_DATA_FLAG_PIN_PROTECTED_MGM_KEY = 0 then none
      else some (encodeFields pre ++ flagsEntry (updatedFlags set b) ++ encodeFields post) := by
  obtain ⟨hbefore, hbetween, hafter⟩ := around_field pre post flags
  have hspan := tlvSpan_some hok hpre hflags post
  rw [htag] at hspan
  rw [newContainer, hspan]
  dsimp only
  rw [hbetween, hvalue, hbefore, hafter]

theorem newContainer_odd {flags : Field} {pre : List Field} (hok : ∀ f ∈ pre, f.Ok)
    (hpre : ∀ f ∈ pre, f.tag ≠ flags.tag) (hflags : flags.Ok) (htag : flags.tag = 0x81)
    (hvalue : ∀ b, flags.value ≠ [b]) (post : List Field) (set : Bool) :
    newContainer (encodeFields (pre ++ flags :: post)) set = none := by
  obtain ⟨-, hbetween, -⟩ := around_field pre post flags
  have hspan := tlvSpan_some hok hpre hflags post
  rw [htag] at hspan
  rw [newContainer, hspan]
  dsimp only
  rw [hbetween]
  rcases hv : flags.value with _ | ⟨b, _ | ⟨b', rest⟩⟩
  · rfl
  · exact absurd hv (hvalue b)
  · rfl

theorem newContainer_none {members : List Field} (hok : ∀ f ∈ members, f.Ok)
    (hnone : ∀ f ∈ members, f.tag ≠ 0x81) (set : Bool) :
    newContainer (encodeFields members) set =
      if set then some (encodeFields members ++ flagsEntry ADMIN_DATA_FLAG_PIN_PROTECTED_MGM_KEY)
      else none := by
  rw [newContainer, tlvSpan_none hok hnone]

theorem setFlag_some {c : Field} {pre : List Field} (hok : ∀ f ∈ pre, f.Ok)
    (hpre : ∀ f ∈ pre, f.tag ≠ c.tag) (hc : c.Ok) (htag : c.tag = 0x80) (post : List Field)
    (set : Bool) : setAdminDataPinProtectedFlag (encodeFields (pre ++ c :: post)) set =
      (newContainer c.value set).map fun container =>
        encodeFields pre ++ pushTlv [0x80] container ++ encodeFields post := by
  obtain ⟨hbefore, hbetween, hafter⟩ := around_field pre post c
  have hspan := tlvSpan_some hok hpre hc post
  rw [htag] at hspan
  rw [setAdminDataPinProtectedFlag, hspan]
  dsimp only
  rw [hbetween, hbefore, hafter]

theorem setFlag_none {fields : List Field} (hok : ∀ f ∈ fields, f.Ok)
    (hnone : ∀ f ∈ fields, f.tag ≠ 0x80) (set : Bool) :
    setAdminDataPinProtectedFlag (encodeFields fields) set =
      if set then some (encodeFields fields ++
        pushTlv [0x80] (flagsEntry ADMIN_DATA_FLAG_PIN_PROTECTED_MGM_KEY))
      else none := by
  rw [setAdminDataPinProtectedFlag, tlvSpan_none hok hnone]

/-! ### Setting and clearing the flag -/

/-- What is asked of one change of a content. -/
def Meets (fields : List Field) (set : Bool) : Prop :=
  (set = true → ∃ out, setAdminDataPinProtectedFlag (encodeFields fields) set = some out) ∧
  (set = false → ((∃ out, setAdminDataPinProtectedFlag (encodeFields fields) set = some out) ↔
    BitSet (encodeFields fields))) ∧
  ∀ out, setAdminDataPinProtectedFlag (encodeFields fields) set = some out →
    (BitSet out ↔ set = true) ∧
    (∃ fields', (∀ f ∈ fields', f.Ok) ∧ out = encodeFields fields' ∧
      ContentChange set fields fields') ∧
    setAdminDataPinProtectedFlag out set = if set then some out else none

/-- A content as an object holds it: its entries can be read, and those of the first container
too. -/
def WellFormed (fields : List Field) : Prop :=
  (∀ f ∈ fields, f.Ok) ∧ (encodeFields fields).length ≤ 0xFFFF ∧
    ∀ pre c post, fields = pre ++ c :: post → (∀ f ∈ pre, f.tag ≠ c.tag) → c.tag = 0x80 →
      ∃ members, (∀ f ∈ members, f.Ok) ∧ c.value = encodeFields members

/-- The shape of what is written: entries in their shortest form around one flags byte. Such a
content has the bit that was asked for, and asking again leaves it as it is. -/
structure WrittenAnew (set : Bool) (pre : List Field) (c : Field) (pre' post' : List Field)
    (flags : Field) (b : UInt8) : Prop where
  ok : ∀ f ∈ pre, f.Ok
  first : ∀ f ∈ pre, f.tag ≠ c.tag
  containerOk : c.Ok
  tag : c.tag = 0x80
  value : c.value = encodeFields (pre' ++ flags :: post')
  push : pushTlv [0x80] c.value = c.encode
  ok' : ∀ f ∈ pre', f.Ok
  first' : ∀ f ∈ pre', f.tag ≠ flags.tag
  flagsOk : flags.Ok
  tag' : flags.tag = 0x81
  value' : flags.value = [b]
  push' : flagsEntry b = flags.encode
  bit : b &&& ADMIN_DATA_FLAG_PIN_PROTECTED_MGM_KEY ≠ 0 ↔ set = true

theorem updatedFlags_of_set {b : UInt8} (h : b &&& ADMIN_DATA_FLAG_PIN_PROTECTED_MGM_KEY ≠ 0) :
    updatedFlags true b = b := by
  obtain ⟨⟨i⟩⟩ := b
  rw [updatedFlags, if_pos rfl]
  rw [ADMIN_DATA_FLAG_PIN_PROTECTED_MGM_KEY] at h ⊢
  revert i
  decide +kernel

theorem flagsOf_some {pre pre' : List Field} {c flags : Field} (hok : ∀ f ∈ pre, f.Ok)
    (hpre : ∀ f ∈ pre, f.tag ≠ c.tag) (hc : c.Ok) (htag : c.tag = 0x80) (post : List Field)
    {post' : List Field} (hvalue : c.value = encodeFields (pre' ++ flags :: post'))
    (hok' : ∀ f ∈ pre', f.Ok) (hpre' : ∀ f ∈ pre', f.tag ≠ flags.tag) (hflags : flags.Ok)
    (htag' : flags.tag = 0x81) :
    flagsOf (encodeFields (pre ++ c :: post)) = some flags.value := by
  have houter := tlvValue_some hok hpre hc post
  have hinner := tlvValue_some hok' hpre' hflags post'
  rw [htag, hvalue] at houter
  rw [htag'] at hinner
  rw [flagsOf, houter, Option.bind_some, hinner]

/-- What was written says the bit as asked, and is not changed again. -/
theorem WrittenAnew.settled {set : Bool} {pre pre' post' : List Field} {c flags : Field} {b : UInt8}
    (h : WrittenAnew set pre c pre' post' flags b) (post : List Field) :
    (BitSet (encodeFields (pre ++ c :: post)) ↔ set = true) ∧
    setAdminDataPinProtectedFlag (encodeFields (pre ++ c :: post)) set =
      if set then some (encodeFields (pre ++ c :: post)) else none := by
  constructor
  · have hread := flagsOf_some h.ok h.first h.containerOk h.tag post h.value h.ok' h.first'
      h.flagsOk h.tag'
    rw [h.value'] at hread
    rw [BitSet, hread, ← h.bit]
    constructor
    · rintro ⟨b', hsame, hbit⟩
      obtain ⟨rfl, -⟩ := List.cons.inj (Option.some.inj hsame)
      exact hbit
    · exact fun hbit => ⟨b, rfl, hbit⟩
  · have hnew := newContainer_some h.ok' h.first' h.flagsOk h.tag' h.value' post' set
    rw [setFlag_some h.ok h.first h.containerOk h.tag, h.value, hnew]
    cases set with
    | false =>
        have hclear : b &&& ADMIN_DATA_FLAG_PIN_PROTECTED_MGM_KEY = 0 := by
          by_contra hset
          cases h.bit.mp hset
        rw [if_pos ⟨rfl, hclear⟩, if_neg Bool.false_ne_true]
        rfl
    | true =>
        have hsame := updatedFlags_of_set (h.bit.mpr rfl)
        have hvalue : encodeFields pre' ++ flagsEntry b ++ encodeFields post' = c.value := by
          rw [h.value, h.push', encodeFields_append, encodeFields_cons, List.append_assoc]
        rw [if_neg (fun hboth => Bool.noConfusion hboth.1), if_pos rfl, hsame, hvalue,
          Option.map_some, h.push, encodeFields_append, encodeFields_cons, List.append_assoc]

theorem length_flagsEntry (b : UInt8) : (flagsEntry b).length = 3 := rfl

/-- A container that fits in a content has room for a flags entry. -/
theorem container_room {c : Field} (hc : c.Ok) {pre post : List Field}
    (hsize : (encodeFields (pre ++ c :: post)).length ≤ 0xFFFF) :
    c.value.length + 3 ≤ 0xFFFF := by
  rw [encodeFields_append, encodeFields_cons, List.length_append, List.length_append, Field.encode,
    List.length_cons, List.length_append] at hsize
  rcases hform : c.form with _ | _ | _
  · rw [Field.Ok, hform] at hc
    have hlt : c.value.length < 0x80 := hc
    omega
  · rw [Field.Ok, hform] at hc
    have hle : c.value.length ≤ 0xFF := hc
    omega
  · have hthree : (c.form.bytes c.value.length).length = 3 := by
      rw [hform]
      rfl
    omega

theorem mem_append_cons {pre post : List Field} {c : Field} (hpre : ∀ f ∈ pre, f.Ok) (hc : c.Ok)
    (hpost : ∀ f ∈ post, f.Ok) : ∀ f ∈ pre ++ c :: post, f.Ok :=
  List.forall_mem_append.mpr ⟨hpre, List.forall_mem_cons.mpr ⟨hc, hpost⟩⟩

theorem written_exists {set : Bool} {pre pre' post' : List Field} {b : UInt8}
    (hok : ∀ f ∈ pre, f.Ok) (hpre : ∀ f ∈ pre, f.tag ≠ 0x80) (hok' : ∀ f ∈ pre', f.Ok)
    (hpre' : ∀ f ∈ pre', f.tag ≠ 0x81)
    (hbit : b &&& ADMIN_DATA_FLAG_PIN_PROTECTED_MGM_KEY ≠ 0 ↔ set = true)
    (hlen : (encodeFields pre' ++ flagsEntry b ++ encodeFields post').length ≤ 0xFFFF) :
    ∃ c flags, WrittenAnew set pre c pre' post' flags b ∧
      pushTlv [0x80] (encodeFields pre' ++ flagsEntry b ++ encodeFields post') = c.encode := by
  obtain ⟨flags, hflags, htag', hvalue', hpush'⟩ :=
    pushTlv_field 0x81 (show [b].length ≤ 0xFFFF from Nat.le_of_ble_eq_true rfl)
  obtain ⟨c, hc, htag, hvalue, hpush⟩ := pushTlv_field 0x80 hlen
  have hmembers : c.value = encodeFields (pre' ++ flags :: post') := by
    rw [hvalue, flagsEntry, hpush', encodeFields_append, encodeFields_cons, List.append_assoc]
  refine ⟨c, flags, ?_, hpush⟩
  exact ⟨hok, by rwa [htag], hc, htag, hmembers, by rw [hvalue, hpush], hok', by rwa [htag'],
    hflags, htag', hvalue', hpush', hbit⟩

theorem meets_of_none {fields : List Field}
    (hnone : setAdminDataPinProtectedFlag (encodeFields fields) false = none)
    (hclear : ¬ BitSet (encodeFields fields)) : Meets fields false := by
  refine ⟨fun h => Bool.noConfusion h, fun _ => ⟨?_, fun h => absurd h hclear⟩, ?_⟩
  · rintro ⟨out, hout⟩
    rw [hnone] at hout
    cases hout
  · intro out hout
    rw [hnone] at hout
    cases hout

theorem meets_of_written {fields pre post pre' post' : List Field} {c flags : Field} {b : UInt8}
    {set : Bool} (hw : WrittenAnew set pre c pre' post' flags b) (hpost : ∀ f ∈ post, f.Ok)
    (hout : setAdminDataPinProtectedFlag (encodeFields fields) set =
      some (encodeFields (pre ++ c :: post)))
    (hchange : ContentChange set fields (pre ++ c :: post))
    (hbit : set = false → BitSet (encodeFields fields)) : Meets fields set := by
  refine ⟨fun _ => ⟨_, hout⟩, fun hset => ⟨fun _ => hbit hset, fun _ => ⟨_, hout⟩⟩, ?_⟩
  intro out hsome
  obtain rfl := Option.some.inj (hout.symm.trans hsome)
  obtain ⟨hread, hagain⟩ := hw.settled post
  exact ⟨hread, ⟨_, mem_append_cons hw.ok hw.containerOk hpost, rfl, hchange⟩, hagain⟩

/-! ### Each kind of content -/

theorem flag_bit : ADMIN_DATA_FLAG_PIN_PROTECTED_MGM_KEY &&&
    ADMIN_DATA_FLAG_PIN_PROTECTED_MGM_KEY ≠ 0 ↔ true = true := by decide

theorem meets_no_container {fields : List Field} (hok : ∀ f ∈ fields, f.Ok)
    (hnone : ∀ f ∈ fields, f.tag ≠ 0x80) (set : Bool) : Meets fields set := by
  have hresult := setFlag_none hok hnone set
  cases set with
  | false =>
      refine meets_of_none hresult ?_
      rintro ⟨b, hread, -⟩
      rw [flagsOf, tlvValue_none hok hnone] at hread
      cases hread
  | true =>
      obtain ⟨c, flags, hw, hpush⟩ := written_exists hok hnone (List.forall_mem_nil _)
        (List.forall_mem_nil _) flag_bit
        (show (encodeFields [] ++ flagsEntry _ ++ encodeFields []).length ≤ 0xFFFF from
          Nat.le_of_ble_eq_true rfl)
      have hout : setAdminDataPinProtectedFlag (encodeFields fields) true =
          some (encodeFields (fields ++ c :: [])) := by
        rw [hresult, if_pos rfl, encodeFields_append, encodeFields_cons, ← hpush, encodeFields_nil,
          List.nil_append, List.append_nil, List.append_nil]
      refine meets_of_written hw (List.forall_mem_nil _) hout ?_ (fun h => Bool.noConfusion h)
      exact .added hnone hw.tag hw.value (.added (List.forall_mem_nil _) hw.tag' hw.value' rfl) rfl

theorem meets_no_flags {pre members post : List Field} {c : Field}
    (hok : ∀ f ∈ pre ++ c :: post, f.Ok)
    (hsize : (encodeFields (pre ++ c :: post)).length ≤ 0xFFFF)
    (hpre : ∀ f ∈ pre, f.tag ≠ c.tag) (htag : c.tag = 0x80) (hok' : ∀ f ∈ members, f.Ok)
    (hvalue : c.value = encodeFields members) (hnone : ∀ f ∈ members, f.tag ≠ 0x81) (set : Bool) :
    Meets (pre ++ c :: post) set := by
  obtain ⟨hokPre, hokRest⟩ := List.forall_mem_append.mp hok
  obtain ⟨hc, hokPost⟩ := List.forall_mem_cons.mp hokRest
  have hresult := setFlag_some hokPre hpre hc htag post set
  rw [hvalue, newContainer_none hok' hnone] at hresult
  cases set with
  | false =>
      refine meets_of_none hresult ?_
      rintro ⟨b, hread, -⟩
      have houter := tlvValue_some hokPre hpre hc post
      rw [htag] at houter
      rw [flagsOf, houter, Option.bind_some, hvalue, tlvValue_none hok' hnone] at hread
      cases hread
  | true =>
      have hroom := container_room hc hsize
      rw [hvalue] at hroom
      obtain ⟨c', flags, hw, hpush⟩ := written_exists hokPre (htag ▸ hpre) hok' hnone
        flag_bit (by
          show (encodeFields members ++ flagsEntry _ ++ encodeFields []).length ≤ 0xFFFF
          rw [List.length_append, List.length_append, length_flagsEntry]
          exact hroom)
      have hout : setAdminDataPinProtectedFlag (encodeFields (pre ++ c :: post)) true =
          some (encodeFields (pre ++ c' :: post)) := by
        rw [encodeFields_nil, List.append_nil] at hpush
        rw [hresult, if_pos rfl, Option.map_some, hpush, encodeFields_append _ (c' :: post),
          encodeFields_cons, List.append_assoc]
      refine meets_of_written hw hokPost hout ?_ (fun h => Bool.noConfusion h)
      exact .changed (htag ▸ hpre) htag hvalue hw.tag hw.value
        (.added hnone hw.tag' hw.value' rfl)

theorem meets_flags {pre pre' post' post : List Field} {c flags : Field} {b : UInt8}
    (hok : ∀ f ∈ pre ++ c :: post, f.Ok)
    (hsize : (encodeFields (pre ++ c :: post)).length ≤ 0xFFFF)
    (hpre : ∀ f ∈ pre, f.tag ≠ c.tag) (htag : c.tag = 0x80)
    (hok' : ∀ f ∈ pre' ++ flags :: post', f.Ok)
    (hvalue : c.value = encodeFields (pre' ++ flags :: post'))
    (hpre' : ∀ f ∈ pre', f.tag ≠ flags.tag) (htag' : flags.tag = 0x81) (hb : flags.value = [b])
    (set : Bool) : Meets (pre ++ c :: post) set := by
  obtain ⟨hokPre, hokRest⟩ := List.forall_mem_append.mp hok
  obtain ⟨hc, hokPost⟩ := List.forall_mem_cons.mp hokRest
  obtain ⟨hokPre', hokRest'⟩ := List.forall_mem_append.mp hok'
  obtain ⟨hflags, -⟩ := List.forall_mem_cons.mp hokRest'
  have hread := flagsOf_some hokPre hpre hc htag post hvalue hokPre' hpre' hflags htag'
  rw [hb] at hread
  have hresult := setFlag_some hokPre hpre hc htag post set
  rw [hvalue, newContainer_some hokPre' hpre' hflags htag' hb] at hresult
  split at hresult
  · rename_i hclear
    obtain ⟨rfl, hclear⟩ := hclear
    refine meets_of_none hresult ?_
    rintro ⟨b', hsame, hset⟩
    rw [hread] at hsame
    obtain ⟨rfl, -⟩ := List.cons.inj (Option.some.inj hsame)
    exact hset hclear
  · rename_i hwrite
    have hchange := flagsChange_updated set b
    have hlen : (encodeFields pre' ++ flagsEntry (updatedFlags set b) ++
        encodeFields post').length ≤ 0xFFFF := by
      have hroom := container_room hc hsize
      rw [hvalue, encodeFields_append, encodeFields_cons] at hroom
      simp only [List.length_append, length_flagsEntry] at hroom ⊢
      omega
    obtain ⟨c', flags', hw, hpush⟩ := written_exists hokPre (htag ▸ hpre) hokPre' (htag' ▸ hpre')
      hchange.1 hlen
    have hout : setAdminDataPinProtectedFlag (encodeFields (pre ++ c :: post)) set =
        some (encodeFields (pre ++ c' :: post)) := by
      rw [hresult, Option.map_some, hpush, encodeFields_append _ (c' :: post), encodeFields_cons,
        List.append_assoc]
    refine meets_of_written hw hokPost hout ?_ ?_
    · exact .changed (htag ▸ hpre) htag hvalue hw.tag hw.value
        (.changed (htag' ▸ hpre') htag' hb hw.tag' hw.value' hchange)
    · intro hset
      refine ⟨b, hread, ?_⟩
      intro hclear
      exact hwrite ⟨hset, hclear⟩

/-- **One bit of Admin Data.** A content meets what is asked of both changes exactly when its flags
field, if it has one, is one byte. The content is any sequence of fields with tags of one byte, in
any form of length, that is read without an error. -/
theorem setAdminDataPinProtectedFlag_meets_iff {fields : List Field} (h : WellFormed fields) :
    (∀ set, Meets fields set) ↔
      ∀ v, flagsOf (encodeFields fields) = some v → ∃ b, v = [b] := by
  obtain ⟨hok, hsize, hcontainer⟩ := h
  rcases first_field 0x80 fields with hnone | ⟨pre, c, post, rfl, hpre, htag⟩
  · refine ⟨fun _ v hread => ?_, fun _ => meets_no_container hok hnone⟩
    rw [flagsOf, tlvValue_none hok hnone] at hread
    cases hread
  obtain ⟨members, hok', hvalue⟩ := hcontainer pre c post rfl hpre htag
  obtain ⟨hokPre, hokRest⟩ := List.forall_mem_append.mp hok
  obtain ⟨hc, -⟩ := List.forall_mem_cons.mp hokRest
  rcases first_field 0x81 members with hnone | ⟨pre', flags, post', rfl, hpre', htag'⟩
  · refine ⟨fun _ v hread => ?_, fun _ => meets_no_flags hok hsize hpre htag hok' hvalue hnone⟩
    have houter := tlvValue_some hokPre hpre hc post
    rw [htag] at houter
    rw [flagsOf, houter, Option.bind_some, hvalue, tlvValue_none hok' hnone] at hread
    cases hread
  obtain ⟨hokPre', hokRest'⟩ := List.forall_mem_append.mp hok'
  obtain ⟨hflags, -⟩ := List.forall_mem_cons.mp hokRest'
  have hread := flagsOf_some hokPre hpre hc htag post hvalue hokPre' hpre' hflags htag'
  rw [hread]
  constructor
  · intro hmeets v hv
    obtain rfl := Option.some.inj hv
    by_contra hodd
    obtain ⟨out, hout⟩ := (hmeets true).1 rfl
    rw [setFlag_some hokPre hpre hc htag, hvalue, newContainer_odd hokPre' hpre' hflags htag'
      (fun b hb => hodd ⟨b, hb⟩)] at hout
    cases hout
  · intro hone
    obtain ⟨b, hb⟩ := hone flags.value rfl
    exact meets_flags hok hsize hpre htag hok' hvalue hpre' htag' hb

/-- The worked case of a content with a container, a flags byte and a sibling. -/
theorem setAdminDataPinProtectedFlag_meets_sample :
    (∀ set, Meets [⟨0x99, .short, [0x7F]⟩, ⟨0x80, .short, [0x81, 0x01, 0x03]⟩] set) ↔
      ∀ v, flagsOf (encodeFields [⟨0x99, .short, [0x7F]⟩, ⟨0x80, .short, [0x81, 0x01, 0x03]⟩]) =
        some v → ∃ b, v = [b] := by
  apply setAdminDataPinProtectedFlag_meets_iff
  refine ⟨?_, by decide, ?_⟩
  · simp [Field.Ok, LenForm.Fits]
  · intro pre c post hsplit hpre htag
    rcases pre with _ | ⟨p, _ | ⟨q, pre⟩⟩
    · obtain ⟨rfl, -⟩ := List.cons.inj hsplit
      exact absurd htag (by decide)
    · obtain ⟨-, hsplit⟩ := List.cons.inj hsplit
      obtain ⟨rfl, -⟩ := List.cons.inj hsplit
      refine ⟨[⟨0x81, .short, [0x03]⟩], ?_, rfl⟩
      simp [Field.Ok, LenForm.Fits]
    · obtain ⟨-, hsplit⟩ := List.cons.inj hsplit
      obtain ⟨-, hsplit⟩ := List.cons.inj hsplit
      exact (List.cons_ne_nil _ _ (List.append_eq_nil_iff.mp hsplit.symm).2).elim

/-- With a flags field of two bytes nothing is returned, although the bit is to be set. -/
theorem setAdminDataPinProtectedFlag_two_bytes :
    setAdminDataPinProtectedFlag [0x80, 0x04, 0x81, 0x02, 0x00, 0x00] true = none := by
  decide

end Keyroost.Piv
