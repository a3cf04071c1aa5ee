import Keyroost.OpenPgp.KeyImportRead
import Keyroost.Piv.WriteCard

/-!
# The key a card is given is the key

The fields a card gets are the key's integers, in either form of the command, and a key is refused
where its field's width would not carry it.

The builders of `KeyImport` are compared with the card's reading of `KeyImportRead`: the object
that is sent is read as the fields it was made of, and each field stands for the same integer as
the component of the key (`SameInteger`), since only zeros in front are added or taken away. That
one chain and one extended command carry the same data is `chained_eq_extended`.

`rsaImportExact` and `eccImportExact` are the two kinds of keys, and `import_carries_key` both.
`padded_refused_and_long_unread` holds what the statement has to leave out.
-/

namespace Keyroost.OpenPgp

open Piv (readApdu assembled)

/-! ### The components of a key -/

/-- What a format asks for, in its order. -/
def rsaComponents (format : RsaImportFormat) (key : RsaPrivateKeyParts) :
    List (UInt16 × List UInt8) :=
  [(0x91, key.e), (0x92, key.p), (0x93, key.q)] ++
    (if format.includesCrt then [(0x94, key.u), (0x95, key.dp), (0x96, key.dq)] else []) ++
    if format.includesModulus then [(0x97, key.n)] else []

def SameInteger (wanted got : UInt16 × List UInt8) : Prop :=
  got.1 = wanted.1 ∧ Bytes.ofBe got.2 = Bytes.ofBe wanted.2

theorem ofBe_stripLeadingZero (field : List UInt8) :
    Bytes.ofBe (stripLeadingZero field) = Bytes.ofBe field := by
  unfold stripLeadingZero
  split
  · exact (Bytes.ofBe_zero_cons _).symm
  · rfl

theorem padExponent_ok {e : List UInt8} {reqlen : Nat}
    (h : (stripLeadingZero e).length ≤ reqlen) :
    padExponent e reqlen = .ok (Bytes.padTo reqlen (stripLeadingZero e)) :=
  if_neg (Nat.not_lt.mpr h)

theorem padExponent_error {e : List UInt8} {reqlen : Nat}
    (h : reqlen < (stripLeadingZero e).length) :
    padExponent e reqlen = .error ⟨(stripLeadingZero e).length, reqlen⟩ := if_pos h

/-- The fields of an import object. -/
def rsaFields (format : RsaImportFormat) (key : RsaPrivateKeyParts) (e : List UInt8) : Fields :=
  [(0x91, e), (0x92, stripLeadingZero key.p), (0x93, stripLeadingZero key.q)] ++
    (if format.includesCrt then
      [(0x94, stripLeadingZero key.u), (0x95, stripLeadingZero key.dp),
        (0x96, stripLeadingZero key.dq)]
    else []) ++
    if format.includesModulus then [(0x97, stripLeadingZero key.n)] else []

theorem extendedHeaderList_eq (crt : KeyCrt) (key : RsaPrivateKeyParts)
    (format : RsaImportFormat) (eBits : UInt16) :
    extendedHeaderList crt key format eBits =
      (padExponent key.e (exponentWidth eBits)).map fun e =>
        (rsaFields format key e).headerList crt := by
  refine congrArg (Except.map · _) (funext fun e => ?_)
  cases format <;>
    simp [rsaFields, Fields.headerList, Fields.template, Fields.data,
      RsaImportFormat.includesCrt, RsaImportFormat.includesModulus]

theorem plain_cons {tag : UInt8} (htag : tag &&& 0x1F ≠ 0x1F) (field : List UInt8)
    {fields : Fields} (h : fields.Plain) : Fields.Plain ((tag, field) :: fields) :=
  List.forall_mem_cons.mpr ⟨htag, h⟩

theorem plain_nil : Fields.Plain [] := List.forall_mem_nil _

theorem plain_append {a b : Fields} (ha : a.Plain) (hb : b.Plain) : Fields.Plain (a ++ b) :=
  List.forall_mem_append.mpr ⟨ha, hb⟩

theorem plain_rsaFields (format : RsaImportFormat) (key : RsaPrivateKeyParts) (e : List UInt8) :
    (rsaFields format key e).Plain := by
  have hthree : Fields.Plain [(0x91, e), (0x92, stripLeadingZero key.p),
      (0x93, stripLeadingZero key.q)] :=
    plain_cons (by decide) _ (plain_cons (by decide) _ (plain_cons (by decide) _ plain_nil))
  have hcrt : Fields.Plain [(0x94, stripLeadingZero key.u), (0x95, stripLeadingZero key.dp),
      (0x96, stripLeadingZero key.dq)] :=
    plain_cons (by decide) _ (plain_cons (by decide) _ (plain_cons (by decide) _ plain_nil))
  have hmodulus : Fields.Plain [(0x97, stripLeadingZero key.n)] :=
    plain_cons (by decide) _ plain_nil
  cases format with
  | standard => exact plain_append (plain_append hthree plain_nil) plain_nil
  | standardWithModulus => exact plain_append (plain_append hthree plain_nil) hmodulus
  | crt => exact plain_append (plain_append hthree hcrt) plain_nil
  | crtWithModulus => exact plain_append (plain_append hthree hcrt) hmodulus

theorem sameInteger_rsaFields (format : RsaImportFormat) (key : RsaPrivateKeyParts)
    {e : List UInt8} (he : Bytes.ofBe e = Bytes.ofBe key.e) :
    List.Forall₂ SameInteger (rsaComponents format key)
      ((rsaFields format key e).map fun f => (f.1.toUInt16, f.2)) := by
  have hstrip : ∀ (tag : UInt16) (field : List UInt8),
      SameInteger (tag, field) (tag, stripLeadingZero field) :=
    fun tag field => ⟨rfl, ofBe_stripLeadingZero field⟩
  have hthree : List.Forall₂ SameInteger [(0x91, key.e), (0x92, key.p), (0x93, key.q)]
      [(0x91, e), (0x92, stripLeadingZero key.p), (0x93, stripLeadingZero key.q)] :=
    .cons ⟨rfl, he⟩ (.cons (hstrip _ _) (.cons (hstrip _ _) .nil))
  have hcrt : List.Forall₂ SameInteger [(0x94, key.u), (0x95, key.dp), (0x96, key.dq)]
      [(0x94, stripLeadingZero key.u), (0x95, stripLeadingZero key.dp),
        (0x96, stripLeadingZero key.dq)] :=
    .cons (hstrip _ _) (.cons (hstrip _ _) (.cons (hstrip _ _) .nil))
  have hmodulus : List.Forall₂ SameInteger [(0x97, key.n)] [(0x97, stripLeadingZero key.n)] :=
    .cons (hstrip _ _) .nil
  cases format with
  | standard => exact hthree
  | standardWithModulus => exact List.rel_append hthree hmodulus
  | crt => exact List.rel_append hthree hcrt
  | crtWithModulus => exact List.rel_append (List.rel_append hthree hcrt) hmodulus

/-! ### Widths -/

theorem le_ofBe_cons {b : UInt8} (hb : b ≠ 0) (rest : List UInt8) :
    256 ^ rest.length ≤ Bytes.ofBe (b :: rest) := by
  by_contra hlt
  have hlen := Bytes.length_minimal_le (Nat.lt_of_not_le hlt)
  rw [← Bytes.strip_eq_minimal, Bytes.strip_cons hb, List.length_cons] at hlen
  omega

theorem ofBe_lt_of_length_le {bytes : List UInt8} {width : Nat} (h : bytes.length ≤ width) :
    Bytes.ofBe bytes < 256 ^ width :=
  lt_of_lt_of_le (Bytes.ofBe_lt bytes) (Nat.pow_le_pow_right (by decide) h)

theorem length_le_of_ofBe_lt {bytes : List UInt8} {width : Nat} (hhead : bytes.head? ≠ some 0)
    (h : Bytes.ofBe bytes < 256 ^ width) : bytes.length ≤ width := by
  cases bytes with
  | nil => exact Nat.zero_le width
  | cons b rest =>
      have hb : b ≠ 0 := fun hzero => hhead (congrArg some hzero)
      have hlt : 256 ^ rest.length < 256 ^ width := lt_of_le_of_lt (le_ofBe_cons hb rest) h
      exact (Nat.pow_lt_pow_iff_right (by decide)).mp hlt

/-! ### Chained and extended -/

theorem mapIdx_eq_chainLinks (ins p1 p2 : UInt8) (links : List (List UInt8)) :
    (links.mapIdx fun i chunk =>
      [if i < links.length - 1 then 0x10 else 0x00, ins, p1, p2, chunk.length.toUInt8] ++
        chunk) = Piv.chainLinks 0x00 ins p1 p2 none links := by
  induction links with
  | nil => rfl
  | cons chunk rest ih =>
      cases rest with
      | nil => simp [Piv.chainLinks]
      | cons next rest =>
          have hshift : ∀ i, i + 1 < (chunk :: next :: rest).length - 1 ↔
              i < (next :: rest).length - 1 := by
            intro i
            simp only [List.length_cons]
            omega
          rw [Piv.chainLinks_cons, ← ih, List.mapIdx_cons]
          congr 1
          simp only [hshift]

theorem putDataOddChained_eq (p1 p2 : UInt8) (data : List UInt8) {maxChunk : Nat}
    (hlow : 1 ≤ maxChunk) (hhigh : maxChunk ≤ 255) :
    putDataOddChained p1 p2 data maxChunk =
      some (Piv.chainApdu 0x00 INS_PUT_DATA_ODD p1 p2 data maxChunk none) := by
  rw [putDataOddChained, if_pos ⟨hlow, hhigh⟩, Piv.chainApdu]
  split
  · rfl
  · exact congrArg some (mapIdx_eq_chainLinks _ _ _ _)

/-- The PUT DATA command that imports an object. -/
def importCommand (object : List UInt8) : Piv.Command :=
  ⟨0x00, INS_PUT_DATA_ODD, 0x3F, 0xFF, object⟩

theorem readApdu_buildApduExtended {object : List UInt8} (h : object.length ≤ 0xFFFF) :
    ∃ apdu, buildApduExtended 0x00 INS_PUT_DATA_ODD 0x3F 0xFF object = some apdu ∧
      readApdu apdu = some (false, importCommand object) := by
  refine ⟨_, if_pos h, ?_⟩
  have htwo := Bytes.be_two_toUInt16 object.length
  rw [Nat.mod_eq_of_lt (show object.length < 2 ^ 16 by omega)] at htwo
  have hback := Bytes.ofBe_be (show object.length < 256 ^ 2 by omega)
  rw [htwo] at hback
  show some (false, Piv.Command.mk 0x00 INS_PUT_DATA_ODD 0x3F 0xFF
    (object.take (Bytes.ofBe [(object.length.toUInt16 >>> 8).toUInt8,
      (object.length.toUInt16 &&& 0xFF).toUInt8]))) = _
  rw [hback, List.take_length]
  rfl

/-- The chained command is the extended one, whenever the object fits that. -/
theorem chained_eq_extended (object : List UInt8) {maxChunk : Nat} (hlow : 1 ≤ maxChunk)
    (hhigh : maxChunk ≤ 255) : ∃ apdus, putDataOddChained 0x3F 0xFF object maxChunk = some apdus ∧
      assembled none apdus = some (importCommand object) :=
  ⟨_, putDataOddChained_eq _ _ _ hlow hhigh, Piv.assembled_chainApdu _ _ _ _ hlow hhigh⟩

/-! ### RSA keys -/

/-- What the import of an RSA key does, for all a card may announce: what the card reads of the
object, when there is one, and that the object reaches it in either form of the command. -/
structure RsaImportExact (crt : KeyCrt) (key : RsaPrivateKeyParts) (format : RsaImportFormat)
    (eBits : UInt16) : Prop where
  /-- Read as a card reads it, the object holds the components, the exponent in its width. -/
  reads : ∀ object, extendedHeaderList crt key format eBits = .ok object →
    object.length ≤ 0x10003 → ∃ e fields,
      loadedKey object = some (crt.tag.toUInt16, (0x91, e) :: fields) ∧
      e.length = exponentWidth eBits ∧
      List.Forall₂ SameInteger (rsaComponents format key) ((0x91, e) :: fields)
  tooLong : ∀ object, extendedHeaderList crt key format eBits = .ok object →
    0x10003 < object.length → object.length < 2 ^ 64 → loadedKey object = none
  refused : (∃ e, extendedHeaderList crt key format eBits = .error e) ↔
    rsaExponentFits key.e eBits = false
  fits : rsaExponentFits key.e eBits = true → Bytes.ofBe key.e < 256 ^ exponentWidth eBits
  /-- With no zero byte left in front, the refusal is the integer's. -/
  refusedWide : (stripLeadingZero key.e).head? ≠ some 0 →
    (rsaExponentFits key.e eBits = true ↔ Bytes.ofBe key.e < 256 ^ exponentWidth eBits)
  chained : ∀ object maxChunk, extendedHeaderList crt key format eBits = .ok object →
    1 ≤ maxChunk → maxChunk ≤ 255 →
    ∃ apdus, importRsaKeyChained crt key format eBits maxChunk = some (.ok apdus) ∧
      assembled none apdus = some (importCommand object)
  extended : ∀ object, extendedHeaderList crt key format eBits = .ok object →
    object.length ≤ 0xFFFF →
    ∃ apdu, importRsaKey crt key format eBits = some (.ok apdu) ∧
      readApdu apdu = some (false, importCommand object)

theorem extendedHeaderList_ok {crt : KeyCrt} {key : RsaPrivateKeyParts}
    {format : RsaImportFormat} {eBits : UInt16} {object : List UInt8}
    (h : extendedHeaderList crt key format eBits = .ok object) :
    (stripLeadingZero key.e).length ≤ exponentWidth eBits ∧
      object = (rsaFields format key
        (Bytes.padTo (exponentWidth eBits) (stripLeadingZero key.e))).headerList crt := by
  rw [extendedHeaderList_eq] at h
  rcases Nat.lt_or_ge (exponentWidth eBits) (stripLeadingZero key.e).length with hwide | hfit
  · rw [padExponent_error hwide] at h
    cases h
  · rw [padExponent_ok hfit] at h
    cases h
    exact ⟨hfit, rfl⟩

theorem rsaFields_cons (format : RsaImportFormat) (key : RsaPrivateKeyParts) (e : List UInt8) :
    ∃ rest, (rsaFields format key e).map (fun f => (f.1.toUInt16, f.2)) = (0x91, e) :: rest :=
  ⟨_, rfl⟩

theorem rsaImportExact (crt : KeyCrt) (key : RsaPrivateKeyParts) (format : RsaImportFormat)
    (eBits : UInt16) : RsaImportExact crt key format eBits where
  reads object h hlen := by
    obtain ⟨hfit, rfl⟩ := extendedHeaderList_ok h
    have hvalue : Bytes.ofBe (Bytes.padTo (exponentWidth eBits) (stripLeadingZero key.e)) =
        Bytes.ofBe key.e := by
      rw [Bytes.ofBe_padTo, ofBe_stripLeadingZero]
    have hsame := sameInteger_rsaFields format key hvalue
    have hload := loadedKey_headerList crt (plain_rsaFields format key _) hlen
    obtain ⟨rest, hcons⟩ := rsaFields_cons format key
      (Bytes.padTo (exponentWidth eBits) (stripLeadingZero key.e))
    rw [hcons] at hload hsame
    exact ⟨_, rest, hload, Bytes.length_padTo hfit, hsame⟩
  tooLong object h hlong hsize := by
    obtain ⟨-, rfl⟩ := extendedHeaderList_ok h
    exact loadedKey_long crt hlong hsize
  refused := by
    rw [extendedHeaderList_eq, rsaExponentFits, decide_eq_false_iff_not, Nat.not_le]
    rcases Nat.lt_or_ge (exponentWidth eBits) (stripLeadingZero key.e).length with hwide | hfit
    · rw [padExponent_error hwide]
      exact iff_of_true ⟨_, rfl⟩ hwide
    · rw [padExponent_ok hfit]
      refine iff_of_false ?_ (Nat.not_lt.mpr hfit)
      rintro ⟨e, he⟩
      cases he
  fits h := by
    rw [← ofBe_stripLeadingZero]
    exact ofBe_lt_of_length_le (of_decide_eq_true h)
  refusedWide hhead := by
    rw [← ofBe_stripLeadingZero, rsaExponentFits, decide_eq_true_iff]
    exact ⟨ofBe_lt_of_length_le, length_le_of_ofBe_lt hhead⟩
  chained object maxChunk h hlow hhigh := by
    obtain ⟨apdus, hbuilt, hdone⟩ := chained_eq_extended object hlow hhigh
    refine ⟨apdus, ?_, hdone⟩
    simp only [importRsaKeyChained, h, hbuilt, Option.map_some]
  extended object h hlen := by
    obtain ⟨apdu, hbuilt, hread⟩ := readApdu_buildApduExtended hlen
    refine ⟨apdu, ?_, hread⟩
    simp only [importRsaKey, h, hbuilt, Option.map_some]

/-! ### Keys on a curve -/

def eccComponents (key : EccPrivateKeyParts) : List (UInt16 × List UInt8) :=
  key.publicPoint.toList.map fun point => (0x99, point)

/-- What the import of a key on a curve does, for every width of the field: what the card reads of
the object, when there is one, and that the object reaches it in either form of the command. -/
structure EccImportExact (crt : KeyCrt) (key : EccPrivateKeyParts) (fieldLen : Nat) : Prop where
  /-- Read as a card reads it, the object holds the scalar in its width, and the point. -/
  reads : ∀ object, eccExtendedHeaderList crt key fieldLen = some (.ok object) →
    object.length ≤ 0x10003 → ∃ scalar,
      loadedKey object = some (crt.tag.toUInt16, (0x92, scalar) :: eccComponents key) ∧
      scalar.length = fieldLen ∧ Bytes.ofBe scalar = Bytes.ofBe key.scalar
  tooLong : ∀ object, eccExtendedHeaderList crt key fieldLen = some (.ok object) →
    0x10003 < object.length → object.length < 2 ^ 64 → loadedKey object = none
  refused : (∃ e, eccExtendedHeaderList crt key fieldLen = some (.error e)) ↔
    eccScalarFits key.scalar fieldLen = false
  built : 0 < fieldLen → eccScalarFits key.scalar fieldLen = true →
    ∃ object, eccExtendedHeaderList crt key fieldLen = some (.ok object)
  fits : eccScalarFits key.scalar fieldLen = true → Bytes.ofBe key.scalar < 256 ^ fieldLen
  /-- With at most one zero byte in front, the refusal is the integer's. -/
  refusedWide : ¬ [0, 0] <+: key.scalar →
    (eccScalarFits key.scalar fieldLen = true ↔ Bytes.ofBe key.scalar < 256 ^ fieldLen)
  chained : ∀ object maxChunk, eccExtendedHeaderList crt key fieldLen = some (.ok object) →
    1 ≤ maxChunk → maxChunk ≤ 255 →
    ∃ apdus, importEccKeyChained crt key fieldLen maxChunk = some (.ok apdus) ∧
      assembled none apdus = some (importCommand object)
  extended : ∀ object, eccExtendedHeaderList crt key fieldLen = some (.ok object) →
    object.length ≤ 0xFFFF →
    ∃ apdu, importEccKey crt key fieldLen = some (.ok apdu) ∧
      readApdu apdu = some (false, importCommand object)

/-- The scalar as the padding finds it. -/
def droppedScalar (scalar : List UInt8) (fieldLen : Nat) : List UInt8 :=
  if fieldLen < scalar.length then stripLeadingZero scalar else scalar

theorem ofBe_droppedScalar (scalar : List UInt8) (fieldLen : Nat) :
    Bytes.ofBe (droppedScalar scalar fieldLen) = Bytes.ofBe scalar := by
  unfold droppedScalar
  split
  · exact ofBe_stripLeadingZero scalar
  · rfl

def eccFields (key : EccPrivateKeyParts) (scalar : List UInt8) : Fields :=
  (0x92, scalar) :: key.publicPoint.toList.map fun point => (0x99, point)

theorem plain_eccFields (key : EccPrivateKeyParts) (scalar : List UInt8) :
    (eccFields key scalar).Plain := by
  have hscalar : (0x92 : UInt8) &&& 0x1F ≠ 0x1F := by decide
  have hpublic : (0x99 : UInt8) &&& 0x1F ≠ 0x1F := by decide
  refine plain_cons hscalar scalar fun f hf => ?_
  obtain ⟨point, -, rfl⟩ := List.mem_map.mp hf
  exact hpublic

theorem eccFields_map (key : EccPrivateKeyParts) (scalar : List UInt8) :
    (eccFields key scalar).map (fun f => (f.1.toUInt16, f.2)) =
      (0x92, scalar) :: eccComponents key := by
  rw [eccFields, List.map_cons, List.map_map]
  rfl

theorem eccExtendedHeaderList_eq (crt : KeyCrt) (key : EccPrivateKeyParts) (fieldLen : Nat) :
    eccExtendedHeaderList crt key fieldLen =
      if eccScalarFits key.scalar fieldLen = false then
        some (.error ⟨(droppedScalar key.scalar fieldLen).length, fieldLen⟩)
      else if fieldLen < (droppedScalar key.scalar fieldLen).length then none
      else some (.ok ((eccFields key
        (Bytes.padTo fieldLen (droppedScalar key.scalar fieldLen))).headerList crt)) := by
  unfold eccExtendedHeaderList
  by_cases hfits : eccScalarFits key.scalar fieldLen = false
  · simp only [hfits, if_true]
    rfl
  · rw [if_neg hfits, if_neg hfits]
    by_cases hwide : fieldLen < (droppedScalar key.scalar fieldLen).length
    · exact (if_pos hwide).trans (if_pos hwide).symm
    · have hlen := Bytes.length_padTo (Nat.le_of_not_lt hwide)
      refine (if_neg hwide).trans (Eq.trans ?_ (if_neg hwide).symm)
      rw [Fields.headerList, Fields.template, Fields.data, eccFields, List.map_cons,
        List.map_cons, List.flatten_cons, List.flatten_cons, hlen, List.map_map, List.map_map]
      have hid : (Prod.snd ∘ fun point : List UInt8 => ((0x99 : UInt8), point)) = id := rfl
      rw [hid, List.map_id]
      rfl

theorem eccExtendedHeaderList_ok {crt : KeyCrt} {key : EccPrivateKeyParts} {fieldLen : Nat}
    {object : List UInt8} (h : eccExtendedHeaderList crt key fieldLen = some (.ok object)) :
    (droppedScalar key.scalar fieldLen).length ≤ fieldLen ∧
      object = (eccFields key
        (Bytes.padTo fieldLen (droppedScalar key.scalar fieldLen))).headerList crt := by
  rw [eccExtendedHeaderList_eq] at h
  split at h
  · cases h
  · split at h
    · cases h
    · next hwide =>
        cases h
        exact ⟨Nat.le_of_not_lt hwide, rfl⟩

theorem eccScalarFits_iff (scalar : List UInt8) (fieldLen : Nat) :
    eccScalarFits scalar fieldLen = true ↔
      scalar.length ≤ fieldLen ∨ ∃ rest, scalar = 0x00 :: rest ∧ rest.length = fieldLen := by
  rw [eccScalarFits, Bool.or_eq_true, Bool.and_eq_true, decide_eq_true_iff, decide_eq_true_iff,
    decide_eq_true_iff]
  refine or_congr_right ?_
  constructor
  · rintro ⟨hlen, hhead⟩
    obtain ⟨rest, rfl⟩ := List.head?_eq_some_iff.mp hhead
    exact ⟨rest, rfl, Nat.succ.inj hlen⟩
  · rintro ⟨rest, rfl, hlen⟩
    exact ⟨congrArg Nat.succ hlen, rfl⟩

theorem length_droppedScalar {scalar : List UInt8} {fieldLen : Nat} (hpos : 0 < fieldLen)
    (h : eccScalarFits scalar fieldLen = true) :
    (droppedScalar scalar fieldLen).length ≤ fieldLen := by
  unfold droppedScalar
  rcases (eccScalarFits_iff scalar fieldLen).mp h with hlen | ⟨rest, rfl, hlen⟩
  · rwa [if_neg (Nat.not_lt.mpr hlen)]
  · rw [if_pos (by rw [List.length_cons, hlen]; exact Nat.lt_succ_self _)]
    cases rest with
    | nil => exact absurd hlen.symm (Nat.ne_of_gt hpos)
    | cons b rest => exact Nat.le_of_eq hlen

theorem lt_of_eccScalarFits {scalar : List UInt8} {fieldLen : Nat}
    (h : eccScalarFits scalar fieldLen = true) : Bytes.ofBe scalar < 256 ^ fieldLen := by
  rcases (eccScalarFits_iff scalar fieldLen).mp h with hlen | ⟨rest, rfl, hlen⟩
  · exact ofBe_lt_of_length_le hlen
  · rw [Bytes.ofBe_zero_cons]
    exact ofBe_lt_of_length_le (Nat.le_of_eq hlen)

theorem eccScalarFits_of_lt {scalar : List UInt8} {fieldLen : Nat}
    (hzeros : ¬ [0, 0] <+: scalar) (h : Bytes.ofBe scalar < 256 ^ fieldLen) :
    eccScalarFits scalar fieldLen = true := by
  rw [eccScalarFits_iff]
  by_cases hhead : scalar.head? = some 0
  · obtain ⟨rest, rfl⟩ := List.head?_eq_some_iff.mp hhead
    have hrest : rest.head? ≠ some 0 := by
      intro hzero
      obtain ⟨tail, rfl⟩ := List.head?_eq_some_iff.mp hzero
      exact hzeros ⟨tail, rfl⟩
    rw [Bytes.ofBe_zero_cons] at h
    have hlen := length_le_of_ofBe_lt hrest h
    rcases Nat.lt_or_eq_of_le hlen with hshort | hsame
    · exact .inl hshort
    · exact .inr ⟨rest, rfl, hsame⟩
  · exact .inl (length_le_of_ofBe_lt hhead h)

theorem eccImportExact (crt : KeyCrt) (key : EccPrivateKeyParts) (fieldLen : Nat) :
    EccImportExact crt key fieldLen where
  reads object h hlen := by
    obtain ⟨hfit, rfl⟩ := eccExtendedHeaderList_ok h
    have hload := loadedKey_headerList crt (plain_eccFields key _) hlen
    rw [eccFields_map] at hload
    refine ⟨_, hload, Bytes.length_padTo hfit, ?_⟩
    rw [Bytes.ofBe_padTo, ofBe_droppedScalar]
  tooLong object h hlong hsize := by
    obtain ⟨-, rfl⟩ := eccExtendedHeaderList_ok h
    exact loadedKey_long crt hlong hsize
  refused := by
    rw [eccExtendedHeaderList_eq]
    constructor
    · rintro ⟨e, he⟩
      split at he
      · assumption
      · split at he <;> cases he
    · intro hfits
      exact ⟨_, if_pos hfits⟩
  built hpos hfits := by
    have hlen := length_droppedScalar hpos hfits
    rw [eccExtendedHeaderList_eq, if_neg (by rw [hfits]; exact Bool.noConfusion),
      if_neg (Nat.not_lt.mpr hlen)]
    exact ⟨_, rfl⟩
  fits := lt_of_eccScalarFits
  refusedWide hzeros := ⟨lt_of_eccScalarFits, eccScalarFits_of_lt hzeros⟩
  chained object maxChunk h hlow hhigh := by
    obtain ⟨apdus, hbuilt, hdone⟩ := chained_eq_extended object hlow hhigh
    refine ⟨apdus, ?_, hdone⟩
    simp only [importEccKeyChained, h, hbuilt, Option.map_some]
  extended object h hlen := by
    obtain ⟨apdu, hbuilt, hread⟩ := readApdu_buildApduExtended hlen
    refine ⟨apdu, ?_, hread⟩
    simp only [importEccKey, h, hbuilt, Option.map_some]

/-- **An import carries the key exactly**, RSA or on a curve: for every key, every format and every
width of a field, what the card reads of the object that is sent are the key's components, and a
component that is too wide for its field is refused. -/
theorem import_carries_key (crt : KeyCrt) :
    (∀ key format eBits, RsaImportExact crt key format eBits) ∧
      ∀ key fieldLen, EccImportExact crt key fieldLen :=
  ⟨rsaImportExact crt, eccImportExact crt⟩

/-! ### What is refused or not read -/

theorem length_berLen_le_nine (len : Nat) : (berLen len).length ≤ 9 := by
  have hstrip := Bytes.length_strip_le (Bytes.be 8 len)
  rw [Bytes.length_be] at hstrip
  rw [berLen]
  split
  · exact Nat.le_of_ble_eq_true rfl
  · rw [List.length_cons, minimalBe]
    split
    · exact Nat.le_of_ble_eq_true rfl
    · exact Nat.succ_le_succ hstrip

theorem length_template_le (fields : Fields) :
    fields.template.length ≤ 10 * fields.length := by
  induction fields with
  | nil => exact Nat.le_refl 0
  | cons f fields ih =>
      have hcons : Fields.template (f :: fields) =
          keyTemplateEntry f.1 f.2.length ++ Fields.template fields := rfl
      have hlen := length_berLen_le_nine f.2.length
      rw [hcons, List.length_append, List.length_cons, keyTemplateEntry, List.length_cons]
      omega

theorem length_headerList (crt : KeyCrt) (fields : Fields) :
    fields.data.length ≤ (fields.headerList crt).length ∧
      (fields.headerList crt).length ≤ fields.data.length + 10 * fields.length + 34 := by
  have htemplate := length_template_le fields
  have houter := length_berLen_le_nine ([crt.tag, 0x00] ++ berTlv 0x7F48 fields.template ++
    berTlv 0x5F48 fields.data).length
  have hinner := length_berLen_le_nine fields.template.length
  have hdata := length_berLen_le_nine fields.data.length
  have h7f48 : (berTag 0x7F48).length = 2 := rfl
  have h5f48 : (berTag 0x5F48).length = 2 := rfl
  rw [Fields.headerList, length_list]
  generalize (berLen ([crt.tag, 0x00] ++ berTlv 0x7F48 fields.template ++
    berTlv 0x5F48 fields.data).length).length = outer at houter
  simp only [List.length_append, List.length_cons, List.length_nil, berTlv, h7f48, h5f48]
  omega

theorem length_stripLeadingZero (field : List UInt8) :
    field.length ≤ (stripLeadingZero field).length + 1 ∧
      (stripLeadingZero field).length ≤ field.length := by
  unfold stripLeadingZero
  split
  · exact ⟨Nat.le_refl _, Nat.le_succ _⟩
  · exact ⟨Nat.le_succ _, Nat.le_refl _⟩

/-- An object with a prime of more than two bytes of length is built and does not read back. -/
theorem long_unread {p : List UInt8} (hlow : 0x10004 ≤ p.length) (hhigh : p.length < 2 ^ 32) :
    ∃ object, extendedHeaderList .sign ⟨[3], p, [], [], [], [], []⟩ .standard 8 = .ok object ∧
      loadedKey object = none := by
  have hlist := extendedHeaderList_eq .sign ⟨[3], p, [], [], [], [], []⟩ .standard 8
  have hpad : padExponent [3] (exponentWidth 8) = .ok [3] := rfl
  simp only [hpad, Except.map] at hlist
  refine ⟨_, hlist, ?_⟩
  obtain ⟨hmin, hmax⟩ := length_stripLeadingZero p
  have hdata : (rsaFields .standard ⟨[3], p, [], [], [], [], []⟩ [3]).data =
      3 :: (stripLeadingZero p ++ []) := rfl
  have hfields : (rsaFields .standard ⟨[3], p, [], [], [], [], []⟩ [3]).length = 3 := rfl
  have hlen := length_headerList .sign (rsaFields .standard ⟨[3], p, [], [], [], [], []⟩ [3])
  rw [hdata, hfields, List.append_nil, List.length_cons] at hlen
  exact loadedKey_long .sign (by omega) (by omega)

/-- A padded exponent that fits as an integer is refused, and so is a padded scalar; and an
object may be too long to be read. -/
theorem padded_refused_and_long_unread :
    (Bytes.ofBe [0, 0, 3] < 256 ^ exponentWidth 8 ∧
      extendedHeaderList .sign ⟨[0, 0, 3], [], [], [], [], [], []⟩ .standard 8 =
        .error ⟨2, 1⟩) ∧
    (Bytes.ofBe [0, 0, 3] < 256 ^ 1 ∧
      eccExtendedHeaderList .sign ⟨[0, 0, 3], none⟩ 1 = some (.error ⟨2, 1⟩)) ∧
    ∃ object,
      extendedHeaderList .sign ⟨[3], List.replicate 0x10004 1, [], [], [], [], []⟩ .standard 8 =
        .ok object ∧ loadedKey object = none := by
  refine ⟨⟨by decide, rfl⟩, ⟨by decide, rfl⟩, long_unread ?_ ?_⟩
  · exact Nat.le_of_eq List.length_replicate.symm
  · exact lt_of_eq_of_lt List.length_replicate (Nat.le_of_ble_eq_true rfl)

end Keyroost.OpenPgp
