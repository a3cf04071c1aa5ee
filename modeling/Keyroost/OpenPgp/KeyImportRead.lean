import Keyroost.OpenPgp.KeyImport

/-!
# What a card reads of an import object

A card takes the fields of an import object by the lengths of its template. This is the card's side
as the OpenPGP card specification has it, over the readers of `Tlv`; nothing here is translated
from the host's code.

`Fields.headerList` is an object as the host builds it, from any fields. `loadedKey_headerList`
says that the card gets these fields back, for every slot, as long as the object's length can be
read; `loadedKey_long` is an object whose length cannot.
-/

namespace Keyroost.OpenPgp

/-! ### What a card reads -/

/-- A template's entries: each tag and the length behind it. The number counts down the bytes
that may be left. -/
def templateEntriesFrom : Nat → List UInt8 → Except ParseError (List (UInt16 × Nat))
  | 0, _ => .ok []
  | _, [] => .ok []
  | left + 1, first :: rest => do
      let buf := first :: rest
      let (tag, tagLen) ← readTag buf
      let (len, lenLen) ← readLen (buf.drop tagLen)
      let tail ← templateEntriesFrom left (buf.drop (tagLen + lenLen))
      return (tag, len) :: tail

def templateEntries (buf : List UInt8) : Except ParseError (List (UInt16 × Nat)) :=
  templateEntriesFrom buf.length buf

/-- Data cut by the entries' lengths, with nothing left over. -/
def cut : List (UInt16 × Nat) → List UInt8 → Option (List (UInt16 × List UInt8))
  | [], data => if data = [] then some [] else none
  | (tag, len) :: entries, data =>
      if data.length < len then none
      else (cut entries (data.drop len)).map fun fields => (tag, data.take len) :: fields

/-- The slot's tag and the key's fields, as the three parts of a header list give them. -/
def loadedFields : List Tlv → Option (UInt16 × List (UInt16 × List UInt8))
  | [crt, template, data] =>
      if crt.value = [] ∧ template.tag = 0x7F48 ∧ data.tag = 0x5F48 then
        (templateEntries template.value).toOption.bind fun entries =>
          (cut entries data.value).map fun fields => (crt.tag, fields)
      else none
  | _ => none

/-- What an import object loads. -/
def loadedKey (object : List UInt8) : Option (UInt16 × List (UInt16 × List UInt8)) :=
  match parseTlvs object with
  | .ok [list] =>
      if list.tag = 0x4D then (parseTlvs list.value).toOption.bind loadedFields else none
  | _ => none

/-! ### Fields and their template -/

abbrev Fields : Type := List (UInt8 × List UInt8)

def Fields.template (fields : Fields) : List UInt8 :=
  (fields.map fun f => keyTemplateEntry f.1 f.2.length).flatten

def Fields.data (fields : Fields) : List UInt8 := (fields.map Prod.snd).flatten

def Fields.headerList (crt : KeyCrt) (fields : Fields) : List UInt8 :=
  berTlv 0x4D ([crt.tag, 0x00] ++ berTlv 0x7F48 fields.template ++ berTlv 0x5F48 fields.data)

/-- Every tag is one byte. -/
def Fields.Plain (fields : Fields) : Prop := ∀ f ∈ fields, f.1 &&& 0x1F ≠ 0x1F

theorem readTag_plain {tag : UInt8} (htag : tag &&& 0x1F ≠ 0x1F) (tail : List UInt8) :
    readTag (tag :: tail) = .ok (tag.toUInt16, 1) := by
  rw [readTag.eq_def]
  exact if_pos htag

theorem templateEntriesFrom_entry {tag : UInt8} (htag : tag &&& 0x1F ≠ 0x1F) {len : Nat}
    (hlen : len ≤ 0xFFFF) (tail : List UInt8) (left : Nat) :
    templateEntriesFrom (left + 1) (keyTemplateEntry tag len ++ tail) =
      (templateEntriesFrom left tail).map fun rest => (tag.toUInt16, len) :: rest := by
  have hsplit : keyTemplateEntry tag len ++ tail = tag :: (berLen len ++ tail) := rfl
  have hdropTag : (tag :: (berLen len ++ tail)).drop 1 = berLen len ++ tail := rfl
  have hdropLen : (tag :: (berLen len ++ tail)).drop (1 + (berLen len).length) = tail := by
    rw [← List.drop_drop, hdropTag, List.drop_left]
  rw [hsplit, templateEntriesFrom, readTag_plain htag]
  simp only [bind, Except.bind, hdropTag, readLen_berLen hlen, hdropLen]
  cases templateEntriesFrom left tail <;> rfl

theorem templateEntriesFrom_template {fields : Fields} (hplain : fields.Plain)
    (hlen : ∀ f ∈ fields, f.2.length ≤ 0xFFFF) {left : Nat} (hleft : fields.length ≤ left) :
    templateEntriesFrom left fields.template =
      .ok (fields.map fun f => (f.1.toUInt16, f.2.length)) := by
  induction fields generalizing left with
  | nil => cases left <;> rfl
  | cons f fields ih =>
      obtain ⟨left, rfl⟩ : ∃ n, left = n + 1 :=
        Nat.exists_eq_succ_of_ne_zero (Nat.ne_of_gt (Nat.lt_of_lt_of_le (Nat.succ_pos _) hleft))
      have hrest := ih (fun g hg => hplain g (List.mem_cons_of_mem _ hg))
        (fun g hg => hlen g (List.mem_cons_of_mem _ hg)) (Nat.le_of_succ_le_succ hleft)
      have hcons : Fields.template (f :: fields) =
          keyTemplateEntry f.1 f.2.length ++ Fields.template fields := rfl
      rw [hcons, templateEntriesFrom_entry (hplain f List.mem_cons_self)
        (hlen f List.mem_cons_self), hrest]
      rfl

theorem length_le_template (fields : Fields) : fields.length ≤ fields.template.length := by
  induction fields with
  | nil => exact Nat.le_refl 0
  | cons f fields ih =>
      have hcons : Fields.template (f :: fields) =
          keyTemplateEntry f.1 f.2.length ++ Fields.template fields := rfl
      rw [hcons, List.length_append, List.length_cons, keyTemplateEntry, List.length_cons]
      omega

theorem cut_data (fields : Fields) :
    cut (fields.map fun f => (f.1.toUInt16, f.2.length)) fields.data =
      some (fields.map fun f => (f.1.toUInt16, f.2)) := by
  induction fields with
  | nil => rfl
  | cons f fields ih =>
      have hcons : Fields.data (f :: fields) = f.2 ++ Fields.data fields := rfl
      have hroom : ¬ (f.2 ++ Fields.data fields).length < f.2.length := by
        rw [List.length_append]
        omega
      rw [List.map_cons, hcons, cut, if_neg hroom, List.drop_left, List.take_left, ih]
      rfl

theorem length_le_data {fields : Fields} {f : UInt8 × List UInt8} (hf : f ∈ fields) :
    f.2.length ≤ fields.data.length := by
  have hsub : f.2.Sublist fields.data :=
    List.sublist_flatten_of_mem (List.mem_map_of_mem hf)
  exact hsub.length_le

/-! ### The object -/

theorem tagReads_list : TagReads 0x4D false := ⟨_, _, rfl, rfl, fun _ => rfl⟩

theorem tagReads_template : TagReads 0x7F48 true := ⟨_, _, rfl, rfl, fun _ => rfl⟩

theorem tagReads_data : TagReads 0x5F48 false := ⟨_, _, rfl, rfl, fun _ => rfl⟩

theorem tagReads_crt (crt : KeyCrt) : TagReads crt.tag.toUInt16 true := by
  cases crt <;> exact ⟨_, _, rfl, rfl, fun _ => rfl⟩

theorem crt_berTlv (crt : KeyCrt) : [crt.tag, 0x00] = berTlv crt.tag.toUInt16 [] := by
  cases crt <;> rfl

theorem parseTlvs_list {value : List UInt8} (h : value.length ≤ 0xFFFF) :
    parseTlvs (berTlv 0x4D value) = .ok [⟨0x4D, false, value⟩] := by
  obtain ⟨left, hleft⟩ : ∃ left, (berTlv 0x4D value).length = left + 1 := ⟨_, rfl⟩
  have hone := parseTlvsFrom_berTlv tagReads_list h [] left
  rw [List.append_nil, parseTlvsFrom_nil] at hone
  rw [parseTlvs, hleft, hone]
  rfl

theorem parseTlvs_parts (crt : KeyCrt) {template data : List UInt8}
    (htemplate : template.length ≤ 0xFFFF) (hdata : data.length ≤ 0xFFFF) :
    parseTlvs ([crt.tag, 0x00] ++ berTlv 0x7F48 template ++ berTlv 0x5F48 data) =
      .ok [⟨crt.tag.toUInt16, true, []⟩, ⟨0x7F48, true, template⟩, ⟨0x5F48, false, data⟩] := by
  obtain ⟨left, hleft⟩ : ∃ left, ([crt.tag, 0x00] ++ berTlv 0x7F48 template ++
      berTlv 0x5F48 data).length = left + 3 := by
    refine Nat.exists_eq_add_of_le' ?_
    simp only [berTlv, List.length_append, List.length_cons, List.length_nil, berTag]
    split <;> simp only [List.length_cons, List.length_nil] <;> omega
  have hlast := parseTlvsFrom_berTlv tagReads_data hdata [] left
  rw [List.append_nil, parseTlvsFrom_nil] at hlast
  rw [parseTlvs, hleft, crt_berTlv, List.append_assoc,
    parseTlvsFrom_berTlv (tagReads_crt crt) (Nat.zero_le _),
    parseTlvsFrom_berTlv tagReads_template htemplate, hlast]
  rfl

theorem length_berLen_long {len : Nat} (h : 0x10000 ≤ len) (hfit : len < 256 ^ 8) :
    4 ≤ (berLen len).length := by
  have hmin := minimalBe_eq (by omega) hfit
  have hlow : 2 < (minimalBe len).length := by
    by_contra hshort
    rw [hmin] at hshort
    have hlt := Bytes.lt_of_length_minimal_le (Nat.le_of_not_lt hshort)
    omega
  rw [berLen, if_neg (by omega), List.length_cons]
  omega

/-- The value's length takes two bytes, or more, as the object is this long, or longer. -/
theorem length_list (value : List UInt8) :
    (berTlv 0x4D value).length = 1 + (berLen value.length).length + value.length := by
  rw [berTlv, List.length_append, List.length_append]
  rfl

theorem length_berLen_le {len : Nat} (h : len ≤ 0xFFFF) : (berLen len).length ≤ 3 := by
  rcases Nat.lt_or_ge len 0x80 with hshort | hlong
  · rw [berLen_short hshort]
    exact Nat.le_of_ble_eq_true rfl
  · rcases Nat.lt_or_ge len 0x100 with hone | htwo
    · rw [berLen_one hlong hone, List.length_cons, Bytes.length_be]
      omega
    · rw [berLen_two htwo (by omega), List.length_cons, Bytes.length_be]

theorem value_short {value : List UInt8} (h : (berTlv 0x4D value).length ≤ 0x10003) :
    value.length ≤ 0xFFFF := by
  rw [length_list] at h
  by_contra hlong
  rcases Nat.lt_or_ge value.length (256 ^ 8) with hfit | hhuge
  · have hlen := length_berLen_long (by omega) hfit
    omega
  · omega

theorem value_long {value : List UInt8} (h : 0x10003 < (berTlv 0x4D value).length) :
    0x10000 ≤ value.length := by
  rw [length_list] at h
  by_contra hshort
  have hlen := length_berLen_le (show value.length ≤ 0xFFFF by omega)
  omega

/-- **The fields a card gets** are those the object was made of. -/
theorem loadedKey_headerList (crt : KeyCrt) {fields : Fields} (hplain : fields.Plain)
    (h : (fields.headerList crt).length ≤ 0x10003) :
    loadedKey (fields.headerList crt) =
      some (crt.tag.toUInt16, fields.map fun f => (f.1.toUInt16, f.2)) := by
  have hvalue := value_short h
  have hparts := hvalue
  simp only [List.length_append, berTlv] at hparts
  have htemplate : fields.template.length ≤ 0xFFFF := by omega
  have hdata : fields.data.length ≤ 0xFFFF := by omega
  have hentries : templateEntries fields.template =
      .ok (fields.map fun f => (f.1.toUInt16, f.2.length)) :=
    templateEntriesFrom_template hplain (fun f hf => (length_le_data hf).trans hdata)
      (length_le_template fields)
  have hfields : loadedFields [⟨crt.tag.toUInt16, true, []⟩, ⟨0x7F48, true, fields.template⟩,
      ⟨0x5F48, false, fields.data⟩] =
        some (crt.tag.toUInt16, fields.map fun f => (f.1.toUInt16, f.2)) := by
    rw [loadedFields, if_pos ⟨rfl, rfl, rfl⟩, hentries]
    show (cut _ fields.data).map _ = _
    rw [cut_data]
    rfl
  rw [loadedKey, Fields.headerList, parseTlvs_list hvalue]
  show (parseTlvs _).toOption.bind loadedFields = _
  rw [parseTlvs_parts crt htemplate hdata]
  exact hfields

theorem loadedKey_long (crt : KeyCrt) {fields : Fields}
    (h : 0x10003 < (fields.headerList crt).length)
    (hfit : (fields.headerList crt).length < 2 ^ 64) :
    loadedKey (fields.headerList crt) = none := by
  have hlong := value_long h
  have hsize := hfit
  rw [Fields.headerList, length_list] at hsize
  rw [loadedKey, Fields.headerList, parseTlvs_berTlv_long tagReads_list hlong (by omega)]

end Keyroost.OpenPgp
