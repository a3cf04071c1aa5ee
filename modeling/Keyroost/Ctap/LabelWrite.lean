import Keyroost.Ctap.LargeBlobCommands
import Keyroost.Ctap.LargeBlobTransfer

/-!
# Writing a key's name

A planned change of name reaches the key only if the key still holds the array the plan was made
from, and then the key holds the planned array: the other elements as they were, and the new name
entry or none. The functions are those of `keyroost-ctap/src/device_label.rs` and
`keyroost-ctap/src/large_blobs.rs` that plan a change and apply it.

The proof goes in three steps: what is planned (`reads_plan`), what is sent when it is applied
(`sent_applyLabelPlan`), and what the authenticator of `Authenticator` holds afterwards
(`stored_of_applyLabelPlan`). `label_written` puts them together.

`encodeEntry_roundTrip` is about the entry itself: a name within the rules comes back from it, with
what AES-GCM and DEFLATE promise as the only assumptions (`Crypto.Opens`). The samples use the real
values of both for one name.
-/

/-! ### Planning and writing a key's name

A change of name is planned from an array that was read, and written later, over that
very array only. -/

namespace Keyroost.Ctap

/-- What a name change reads of an authenticator's getInfo, besides what the transfer reads: whether
it stores large blobs, whether a PIN is set, and how large its array may be. -/
structure LabelInfo extends AuthenticatorInfo where
  largeBlobs : Option Bool
  clientPin : Option Bool
  maxSerializedLargeBlobArray : Option UInt64
deriving DecidableEq, Repr

/-- `maxSerializedLargeBlobArray` where the key reports none. -/
def SPEC_MIN_SERIALIZED_ARRAY : UInt64 := 1024

structure BlobCapacity where
  maxBytes : UInt64
  usedBytes : UInt64
  freeBytes : UInt64
  entryCount : Nat
deriving DecidableEq, Repr

namespace LargeBlobArray

/-- Number of conforming entries. -/
def len (a : LargeBlobArray) : Nat := a.entries.length

def capacity (a : LargeBlobArray) (info : LabelInfo) : BlobCapacity :=
  let used := (a.arrayBytes.length + a.trailing + CHECKSUM_LEN).toUInt64
  let max := info.maxSerializedLargeBlobArray.getD SPEC_MIN_SERIALIZED_ARRAY
  { maxBytes := max
    usedBytes := used
    freeBytes := if max < used then 0 else max - used
    entryCount := a.len }

/-- The last name entry: its number among the conforming entries, and the name. -/
def label (c : Crypto) (a : LargeBlobArray) : Option (Nat × DeviceLabel) :=
  (a.entries.zipIdx.filterMap fun entry =>
    (DeviceLabel.decodeEntry c entry.1).map fun label => (entry.2, label)).getLast?

end LargeBlobArray

/-- A checked change of name: the array it was made from, as read, and what will be
written, with its checksum. -/
structure LabelPlan where
  beforeRaw : List UInt8
  serialized : List UInt8
  previous : Option DeviceLabel
  after : LargeBlobArray
deriving DecidableEq, Repr

def planLabelChange (c : Crypto) (current : LargeBlobArray) (info : LabelInfo)
    (label : Option DeviceLabel) (nonce : Nonce) : Except LabelError LabelPlan := do
  if info.largeBlobs ≠ some true then throw .unsupported
  if info.clientPin ≠ some true then throw .noPin
  let after ← current.withLabel c label nonce
  let serialized ← (after.serializeWithChecksum c).mapError .ctap
  let size := serialized.length.toUInt64
  let max := (current.capacity info).maxBytes
  if max < size then throw (.tooLarge size max)
  return {
    beforeRaw := current.rawArray
    serialized
    previous := (current.label c).map (·.2)
    after }

section

variable {σ : Type}

/-- The array is read again, and written over only if its bytes are the ones planned
from. -/
def applyLabelPlan (c : Crypto) (dev : Device σ) (info : LabelInfo) (token : PinUvAuthToken)
    (plan : LabelPlan) (l : Link σ) : Except LabelError Unit × Link σ :=
  let (now, l) := read c dev info.toAuthenticatorInfo l
  match now with
  | .error e => (.error (.ctap e), l)
  | .ok now =>
      if now.rawArray ≠ plan.beforeRaw then (.error .changed, l)
      else
        let (done, l) := write c dev info.toAuthenticatorInfo token plan.serialized l
        (done.mapError .ctap, l)

end

end Keyroost.Ctap

/-! ### Writing a key's name -/

namespace Keyroost.Ctap

open Cbor

/-- What the cipher and the inflater do for a writer's own entries: what was sealed under a nonce of
12 bytes opens, and a stored block of the writer inflates to its contents. -/
structure Crypto.Seals (c : Crypto) : Prop where
  decrypt_encrypt : ∀ key nonce plain aad, nonce.length = 12 →
    c.aesGcmDecrypt key nonce (c.aesGcmEncrypt key nonce plain aad) aad = some plain
  inflate_stored : ∀ data, data.length ≤ 0xffff →
    c.inflate (DeviceLabel.storedDeflate data) data.length = some data

/-! ### A name entry reads back as its name -/

namespace DeviceLabel

/-- The entries of a name's plaintext map. -/
def plainEntries (l : DeviceLabel) : List (Value × Value) :=
  [(.uInt P_VERSION, .uInt LABEL_FORMAT_VERSION), (.uInt P_LABEL, .text l.label)] ++
    (l.writer.map fun w => (Value.uInt P_WRITER, Value.text w)).toList

theorem plaintext_eq_ok {l : DeviceLabel} {p : List UInt8} (h : plaintext l = .ok p) :
    fits l.label = true ∧ (∀ w ∈ l.writer, fits w = true) ∧ p = encode (.map (plainEntries l)) := by
  unfold plaintext at h
  split at h
  · cases h
  · rename_i hnot
    rw [not_or, Bool.not_eq_false, Bool.not_eq_true] at hnot
    refine ⟨hnot.1, ?_, (Except.ok.inj h).symm⟩
    intro w hw
    have hany := hnot.2
    rw [Option.mem_def.mp hw] at hany
    simpa using hany

theorem len_le_of_fits {s : RustStr} (h : fits s = true) : s.len ≤ 256 := by
  have hshort : s.length ≤ 64 := (of_decide_eq_true h).2
  have hlen := Utf8.len_le s
  omega

theorem length_encode_text {s : RustStr} (h : s.len ≤ 256) :
    (encode (.text s)).length ≤ 259 := by
  rw [encode, List.length_append, length_encodeHeader, toNat_length (by omega)]
  have hbytes : s.asBytes.length = s.len := rfl
  split_ifs <;> omega

/-- A plaintext is small, and reads back as its map. -/
theorem decode_plaintext {l : DeviceLabel} {p : List UInt8} (h : plaintext l = .ok p) :
    p.length ≤ 0xffff ∧ decode p = .ok (.map (plainEntries l), []) := by
  rcases plaintext_eq_ok h with ⟨hlabel, hwriter, rfl⟩
  rcases l with ⟨label, writer⟩
  have hlen : label.len ≤ 256 := len_le_of_fits hlabel
  have htext := length_encode_text hlen
  have hkey (key : UInt64) (h : key.toNat < 24) := length_encode_uInt_short h
  cases writer with
  | none =>
      constructor
      · rw [plainEntries, length_encode_map]
        swap
        · exact show 2 < 24 by decide
        simp only [Option.map_none, Option.toList_none, List.append_nil, List.map_cons,
          List.map_nil, List.sum_cons, List.sum_nil, hkey P_VERSION (by decide),
          hkey LABEL_FORMAT_VERSION (by decide), hkey P_LABEL (by decide)]
        omega
      · exact decode_of_encode ⟨show 2 < 2 ^ 64 by decide, ⟨trivial, trivial⟩,
          ⟨trivial, show label.len < 2 ^ 64 by omega⟩, trivial⟩
          (show 1 ≤ DECODE_DEPTH_LIMIT by decide)
  | some w =>
      have hwlen := len_le_of_fits (hwriter w rfl)
      have hwtext := length_encode_text hwlen
      constructor
      · rw [plainEntries, length_encode_map]
        swap
        · exact show 3 < 24 by decide
        simp only [Option.map_some, Option.toList_some, List.cons_append, List.nil_append,
          List.map_cons, List.map_nil, List.sum_cons, List.sum_nil, hkey P_VERSION (by decide),
          hkey LABEL_FORMAT_VERSION (by decide), hkey P_LABEL (by decide),
          hkey P_WRITER (by decide)]
        omega
      · exact decode_of_encode ⟨show 3 < 2 ^ 64 by decide, ⟨trivial, trivial⟩,
          ⟨trivial, show label.len < 2 ^ 64 by omega⟩,
          ⟨trivial, show w.len < 2 ^ 64 by omega⟩, trivial⟩
          (show 1 ≤ DECODE_DEPTH_LIMIT by decide)

/-- The entry built for a name decodes as that name, whatever bytes it was read as. -/
theorem decodeEntry_encodeEntry {c : Crypto} (hseals : c.Seals) {l : DeviceLabel} {nonce : Nonce}
    {e : LargeBlobEntry} (h : encodeEntry c l nonce = .ok e) (original : Option (List UInt8)) :
    decodeEntry c { e with original } = some l := by
  rcases Checks.bind_eq_ok.mp h with ⟨p, hp, he⟩
  have he := Except.ok.inj he
  rcases plaintext_eq_ok hp with ⟨hlabel, hwriter, -⟩
  rcases decode_plaintext hp with ⟨hshort, hdecode⟩
  have hsize : p.length.toUInt64.toNat = p.length := toNat_length (by omega)
  have hdecrypt : c.gcmDecrypt (labelKey c) e.nonce e.ciphertext e.origSize =
      some (storedDeflate p) := by
    rw [← he, LargeBlobEntry.built, Crypto.gcmDecrypt, if_neg (not_not.mpr nonce.property)]
    exact hseals.decrypt_encrypt _ _ _ _ nonce.property
  have hinflate : c.inflateRaw (storedDeflate p) e.origSize = some p := by
    have hmax : Crypto.MAX_BLOB_PLAINTEXT = 1048576 := rfl
    rw [← he, LargeBlobEntry.built, Crypto.inflateRaw, hsize, if_neg (by omega),
      hseals.inflate_stored p hshort, Option.bind_some, if_pos rfl]
  rcases l with ⟨label, writer⟩
  have hfilter : (some label).filter fits = some label :=
    Option.filter_eq_some_iff.mpr ⟨rfl, hlabel⟩
  unfold decodeEntry
  simp only [hdecrypt, hinflate, Option.bind_eq_bind, Option.bind_some, hdecode]
  cases writer with
  | none =>
      simp [plainEntries, Value.asMap, Value.getUIntKey, Value.asUInt, Value.asText, P_VERSION,
        P_LABEL, P_WRITER, hfilter]
  | some w =>
      have hwfilter : (some w).filter fits = some w :=
        Option.filter_eq_some_iff.mpr ⟨rfl, hwriter w rfl⟩
      simp [plainEntries, Value.asMap, Value.getUIntKey, Value.asUInt, Value.asText, P_VERSION,
        P_LABEL, P_WRITER, hfilter, hwfilter]

end DeviceLabel

/-! ### What a plan holds -/

section

variable {c : Crypto} {current : LargeBlobArray} {info : LabelInfo} {label : Option DeviceLabel}
  {nonce : Nonce} {plan : LabelPlan}

theorem plan_eq_ok (h : planLabelChange c current info label nonce = .ok plan) :
    current.withLabel c label nonce = .ok plan.after ∧
      plan.after.serializeWithChecksum c = .ok plan.serialized ∧
      plan.beforeRaw = current.rawArray ∧
      plan.serialized.length.toUInt64 ≤ (current.capacity info).maxBytes := by
  unfold planLabelChange at h
  rcases Checks.check_eq_ok.mp h with ⟨-, h⟩
  rcases Checks.check_eq_ok.mp h with ⟨-, h⟩
  rcases Checks.bind_eq_ok.mp h with ⟨after, hafter, h⟩
  rcases Checks.bind_eq_ok.mp h with ⟨serialized, hserialized, h⟩
  rcases Checks.check_eq_ok.mp h with ⟨hfits, h⟩
  obtain rfl := Except.ok.inj h
  refine ⟨hafter, ?_, rfl, UInt64.not_lt.mp hfits⟩
  cases hbytes : after.serializeWithChecksum c with
  | error e =>
      rw [hbytes] at hserialized
      cases hserialized
  | ok bytes =>
      rw [hbytes] at hserialized
      exact congrArg Except.ok (Except.ok.inj hserialized)

/-- The elements of the planned array: those that are no name entries, and the new one. -/
theorem items_of_withLabel {after : LargeBlobArray}
    (h : current.withLabel c label nonce = .ok after) :
    ∃ fresh, after.items = (current.items.filter fun i => !i.isLabelItem c) ++ fresh ∧
      (label = none → fresh = []) ∧
      ∀ l ∈ label, ∃ e, DeviceLabel.encodeEntry c l nonce = .ok e ∧ fresh = [.entry e] := by
  cases label with
  | none =>
      obtain rfl := Except.ok.inj h
      exact ⟨[], (List.append_nil _).symm, fun _ => rfl, by simp⟩
  | some l =>
      rcases Checks.bind_eq_ok.mp h with ⟨e, he, hafter⟩
      obtain rfl := Except.ok.inj hafter
      refine ⟨[.entry e], rfl, by simp, ?_⟩
      intro l' hl'
      obtain rfl := Option.some.inj hl'
      exact ⟨e, he, rfl⟩

theorem asRead_itemOf (raw : List UInt8) : (itemOf raw).asRead = itemOf raw := by
  unfold itemOf
  cases hentry : conformingEntry raw with
  | none => rfl
  | some e =>
      have horiginal := original_of_conformingEntry hentry
      rcases e with ⟨ciphertext, entryNonce, origSize, original⟩
      change original = some raw at horiginal
      rw [horiginal]
      rfl

/-- What is written reads back as the kept elements, as they were, and the new name
entry, which is the only one. -/
theorem reads_plan (hseals : c.Seals) {data : List UInt8}
    (hparse : LargeBlobArray.parse data = .ok current)
    (hplan : planLabelChange c current info label nonce = .ok plan)
    (hsize : plan.serialized.length < 2 ^ 64) :
    ∃ again fresh, LargeBlobArray.parseChecked c plan.serialized = .ok again ∧
      again.items = (current.items.filter fun i => !i.isLabelItem c) ++ fresh ∧
      again.items.filter (·.isLabelItem c) = fresh ∧ (label = none → fresh = []) ∧
      ∀ l ∈ label, ∃ e, fresh = [.entry e] ∧ DeviceLabel.decodeEntry c e = some l := by
  rcases plan_eq_ok hplan with ⟨hafter, hserialized, -, -⟩
  rcases items_of_withLabel hafter with ⟨fresh, hitems, hnone, hsome⟩
  have hwf : plan.after.WellFormed := by
    refine Edit.wellFormed_of_apply (c := c) (e := .label label nonce)
      (LargeBlobArray.wellFormed_of_parse hparse).1 ?_
    rw [Edit.apply, hafter]
    rfl
  unfold LargeBlobArray.serializeWithChecksum at hserialized
  split at hserialized
  · cases hserialized
  have hserialized := Except.ok.inj hserialized
  have hbytes : plan.after.arrayBytes.length < 2 ^ 64 := by
    rw [← hserialized, List.length_append] at hsize
    omega
  have hagain := (LargeBlobArray.parseChecked_append c _).trans
    (LargeBlobArray.parse_arrayBytes hwf hbytes)
  rw [hserialized] at hagain
  have hkept : (current.items.filter fun i => !i.isLabelItem c).map Item.asRead =
      current.items.filter fun i => !i.isLabelItem c := by
    rcases LargeBlobArray.parse_eq_ok hparse with ⟨elements, -, -, hcurrent, -⟩
    refine (List.map_congr_left fun i hi => ?_).trans (List.map_id _)
    have hmem := List.mem_of_mem_filter hi
    rw [hcurrent] at hmem
    rcases List.mem_map.mp hmem with ⟨raw, -, rfl⟩
    exact asRead_itemOf raw
  have hnolabel :
      (current.items.filter fun i => !i.isLabelItem c).filter (·.isLabelItem c) = [] := by
    rw [List.filter_filter]
    simp
  refine ⟨_, fresh.map Item.asRead, hagain, ?_, ?_, ?_, ?_⟩
  · show plan.after.items.map Item.asRead = _
    rw [hitems, List.map_append, hkept]
  · show (plan.after.items.map Item.asRead).filter _ = _
    rw [hitems, List.map_append, hkept, List.filter_append, hnolabel, List.nil_append]
    refine List.filter_eq_self.mpr fun i hi => ?_
    cases label with
    | none =>
        rw [hnone rfl] at hi
        cases hi
    | some l =>
        rcases hsome l rfl with ⟨e, he, rfl⟩
        rw [List.mem_singleton.mp hi]
        show (DeviceLabel.decodeEntry c { e with original := _ }).isSome = true
        rw [DeviceLabel.decodeEntry_encodeEntry hseals he]
        rfl
  · intro h
    rw [hnone h]
    rfl
  · intro l hl
    rcases hsome l hl with ⟨e, he, rfl⟩
    exact ⟨_, rfl, DeviceLabel.decodeEntry_encodeEntry hseals he _⟩

/-! ### Over the array it was made from -/

/-- Nothing follows the read unless it gave the array planned from. -/
theorem sent_applyLabelPlan {σ : Type} (dev : Device σ) (token : PinUvAuthToken) (l : Link σ)
    (h : (applyLabelPlan c dev info token plan l).2.sent ≠
      (read c dev info.toAuthenticatorInfo l).2.sent) :
    ∃ now, (read c dev info.toAuthenticatorInfo l).1 = .ok now ∧
      now.rawArray = plan.beforeRaw := by
  unfold applyLabelPlan at h
  rcases hread : read c dev info.toAuthenticatorInfo l with ⟨now, l'⟩
  rw [hread] at h
  cases now with
  | error e => exact absurd rfl h
  | ok now =>
      refine ⟨now, rfl, ?_⟩
      by_contra hne
      simp only [ne_eq, hne, not_false_eq_true, if_true, not_true_eq_false] at h

/-- A plan that was applied is what the key holds. -/
theorem stored_of_applyLabelPlan {auth : Authenticator} {l l' : Link BlobStore}
    (hinfo : info.toAuthenticatorInfo = auth.info)
    (hserialized : plan.after.serializeWithChecksum c = .ok plan.serialized)
    (hsize : plan.serialized.length < 2 ^ 64)
    (h : applyLabelPlan c (auth.device c) info auth.token plan l = (.ok (), l')) :
    l'.state.stored = plan.serialized := by
  unfold LargeBlobArray.serializeWithChecksum at hserialized
  split at hserialized
  · cases hserialized
  have hserialized := Except.ok.inj hserialized
  have hlong : 17 ≤ plan.serialized.length := by
    have hhead := LargeBlobArray.head_arrayBytes plan.after
    have hpos : 0 < plan.after.arrayBytes.length := by
      rw [List.length_pos_iff]
      intro hnil
      rw [hnil] at hhead
      cases hhead
    rw [← hserialized, List.length_append, c.length_left16Sha256]
    omega
  unfold applyLabelPlan at h
  rw [hinfo] at h
  rcases hread : read c (auth.device c) auth.info l with ⟨now, between⟩
  rw [hread] at h
  cases now with
  | error e => cases h
  | ok now =>
      by_cases hsame : now.rawArray = plan.beforeRaw
      · simp only [hsame, ne_eq, not_true_eq_false, if_false] at h
        rcases Prod.mk.inj h with ⟨hdone, hlink⟩
        have hok : (write c (auth.device c) auth.info auth.token plan.serialized between).1 =
            .ok () := by
          cases hwrite : (write c (auth.device c) auth.info auth.token plan.serialized between).1
            with
          | error e =>
              rw [hwrite] at hdone
              cases hdone
          | ok u => rfl
        rcases write_accepted hserialized.symm hlong
          (fits_of_write (by omega) hsize hok) between with ⟨last, -, hwrite, hstored, -⟩
        rw [hwrite] at hlink
        rw [← hlink]
        exact hstored
      · simp only [ne_eq, hsame, not_false_eq_true, if_true] at h
        cases h

end

/-- **Writing a name.** For every plan made from an array as it was read: no request but
the reads is sent unless the array just read again is byte for byte that array; when the
plan is reported applied, the key holds the planned bytes; these read back as the
elements that were no name entries, unchanged and in order, and the new name entry as
the only one, or none when clearing; and they fit what the key says it stores. -/
theorem label_written (c : Crypto) (hseals : c.Seals) {data : List UInt8}
    {current : LargeBlobArray} {info : LabelInfo} {label : Option DeviceLabel} {nonce : Nonce}
    {plan : LabelPlan} (hparse : LargeBlobArray.parse data = .ok current)
    (hplan : planLabelChange c current info label nonce = .ok plan)
    (hsize : plan.serialized.length < 2 ^ 64) :
    (∀ (σ : Type) (dev : Device σ) (token : PinUvAuthToken) (l : Link σ),
      (∃ offsets : List Nat, (read c dev info.toAuthenticatorInfo l).2.sent = l.sent ++
        offsets.map fun offset => requestBytes
          (getParams offset (maxFragmentLength info.toAuthenticatorInfo).val)) ∧
      ((applyLabelPlan c dev info token plan l).2.sent ≠
          (read c dev info.toAuthenticatorInfo l).2.sent →
        ∃ now, (read c dev info.toAuthenticatorInfo l).1 = .ok now ∧ now.rawArray = data)) ∧
    (∀ (auth : Authenticator) (l l' : Link BlobStore), info.toAuthenticatorInfo = auth.info →
      applyLabelPlan c (auth.device c) info auth.token plan l = (.ok (), l') →
        l'.state.stored = plan.serialized) ∧
    (∃ again fresh, LargeBlobArray.parseChecked c plan.serialized = .ok again ∧
      again.items = (current.items.filter fun i => !i.isLabelItem c) ++ fresh ∧
      again.items.filter (·.isLabelItem c) = fresh ∧ (label = none → fresh = []) ∧
      ∀ l ∈ label, ∃ e, fresh = [.entry e] ∧ DeviceLabel.decodeEntry c e = some l) ∧
    plan.serialized.length ≤ (info.maxSerializedLargeBlobArray.getD 1024).toNat := by
  rcases plan_eq_ok hplan with ⟨-, hserialized, hbefore, hfits⟩
  have hraw : plan.beforeRaw = data := by
    rw [hbefore]
    exact LargeBlobArray.rawArray_of_parse hparse
  refine ⟨?_, ?_, reads_plan hseals hparse hplan hsize, ?_⟩
  · intro σ dev token l
    refine ⟨sent_read dev info.toAuthenticatorInfo l, ?_⟩
    rw [← hraw]
    exact sent_applyLabelPlan dev token l
  · intro auth l l' hinfo
    exact stored_of_applyLabelPlan hinfo hserialized hsize
  · rw [UInt64.le_iff_toNat_le, toNat_length hsize] at hfits
    exact hfits

/-! ### A sample name -/

/-- The bytes `0` to `11`. -/
def sampleNonce : Nonce := ⟨(List.range 12).map Nat.toUInt8, rfl⟩

def sampleLabel : DeviceLabel where
  label := "Work YubiKey".toList
  writer := none

/-- The sample name's entry under the published key, as other tools write it. -/
def SAMPLE_CIPHERTEXT : List UInt8 :=
  [0xfa, 0x20, 0x2b, 0x36, 0x26, 0xa9, 0xc1, 0x3b, 0x79, 0xe2, 0x36, 0xfa, 0x5b, 0x12, 0x88, 0x77,
    0x7a, 0xa8, 0x54, 0xba, 0xa7, 0xb9, 0x07, 0x11, 0x06, 0xda, 0x74, 0xaf, 0x6c, 0xa2, 0x25, 0x11,
    0xf5, 0x91, 0x3d, 0xab, 0x35, 0xed]

/-- The sample name's plaintext as one stored block. -/
def SAMPLE_BLOCK : List UInt8 :=
  [0x01, 0x11, 0x00, 0xee, 0xff, 0xa2, 0x01, 0x01, 0x02, 0x6c, 0x57, 0x6f, 0x72, 0x6b, 0x20, 0x59,
    0x75, 0x62, 0x69, 0x4b, 0x65, 0x79]

/-- The entry of the name `Old`, with the nonce `100` to `111`. -/
def OLD_CIPHERTEXT : List UInt8 :=
  [0xb8, 0xd4, 0xca, 0x6f, 0x59, 0x6e, 0xa7, 0xec, 0x87, 0x77, 0xb1, 0xeb, 0x94, 0xd3, 0x91, 0x6c,
    0xe5, 0x17, 0xb6, 0x4c, 0xf0, 0xc0, 0x83, 0xeb, 0x38, 0x68, 0x18, 0x24, 0x71]

def OLD_BLOCK : List UInt8 :=
  [0x01, 0x08, 0x00, 0xf7, 0xff, 0xa2, 0x01, 0x01, 0x02, 0x63, 0x4f, 0x6c, 0x64]

/-- The entry of the name `Key` that `keyroost` wrote, with a nonce of sevens. -/
def KEY_CIPHERTEXT : List UInt8 :=
  [0x87, 0x48, 0x1d, 0x25, 0x8e, 0xde, 0xed, 0x19, 0x82, 0xe9, 0x9c, 0x93, 0x4e, 0x03, 0x8c, 0x84,
    0xae, 0xff, 0x02, 0x54, 0xcb, 0x4c, 0xa3, 0xa9, 0x1d, 0x0e, 0x4d, 0xf7, 0x7a, 0x4c, 0xaf, 0xea,
    0x4d, 0x77, 0x00, 0xdc, 0x43, 0x85, 0x40]

def KEY_BLOCK : List UInt8 :=
  [0x01, 0x12, 0x00, 0xed, 0xff, 0xa3, 0x01, 0x01, 0x02, 0x63, 0x4b, 0x65, 0x79, 0x03, 0x68, 0x6b,
    0x65, 0x79, 0x72, 0x6f, 0x6f, 0x73, 0x74]

/-- An integer, the entry of the name `Old`, and a tagged integer. -/
def OLD_ARRAY : List UInt8 :=
  [0x83, 0x01, 0xa3, 0x01, 0x58, 0x1d, 0xb8, 0xd4, 0xca, 0x6f, 0x59, 0x6e, 0xa7, 0xec, 0x87, 0x77,
    0xb1, 0xeb, 0x94, 0xd3, 0x91, 0x6c, 0xe5, 0x17, 0xb6, 0x4c, 0xf0, 0xc0, 0x83, 0xeb, 0x38, 0x68,
    0x18, 0x24, 0x71, 0x02, 0x4c, 0x64, 0x65, 0x66, 0x67, 0x68, 0x69, 0x6a, 0x6b, 0x6c, 0x6d, 0x6e,
    0x6f, 0x03, 0x08, 0xc1, 0x00]

/-- The array under its new name. -/
def NEW_ARRAY : List UInt8 :=
  [0x83, 0x01, 0xc1, 0x00, 0xa3, 0x01, 0x58, 0x26, 0xfa, 0x20, 0x2b, 0x36, 0x26, 0xa9, 0xc1, 0x3b,
    0x79, 0xe2, 0x36, 0xfa, 0x5b, 0x12, 0x88, 0x77, 0x7a, 0xa8, 0x54, 0xba, 0xa7, 0xb9, 0x07, 0x11,
    0x06, 0xda, 0x74, 0xaf, 0x6c, 0xa2, 0x25, 0x11, 0xf5, 0x91, 0x3d, 0xab, 0x35, 0xed, 0x02, 0x4c,
    0x00, 0x01, 0x02, 0x03, 0x04, 0x05, 0x06, 0x07, 0x08, 0x09, 0x0a, 0x0b, 0x03, 0x11]

/-- SHA-256 and HMAC-SHA-256 of what the samples hash: the key string, the two arrays, and the one
fragment that is written. AES-256-GCM of the three names, as it is; any other plaintext is only
marked. -/
def labelCrypto : Crypto where
  sha256 data :=
    if data = LABEL_KEY_INFO then
      [0x2d, 0x90, 0x17, 0x62, 0x40, 0xc2, 0x49, 0xe3, 0xf7, 0xaa, 0xea, 0xbd, 0x44, 0x40, 0x93,
        0x43, 0x7d, 0x2f, 0x59, 0x5d, 0xc7, 0x78, 0xbf, 0x45, 0xd3, 0xcc, 0x05, 0x54, 0xf3, 0x26,
        0xb6, 0x39]
    else if data = OLD_ARRAY then
      [0x21, 0x82, 0xd6, 0x54, 0x4d, 0xab, 0x26, 0x8b, 0x45, 0x23, 0xc8, 0xb7, 0xf6, 0x9a, 0x28,
        0x1b, 0x0b, 0x2f, 0x16, 0x67, 0x16, 0x27, 0x07, 0x35, 0xae, 0x01, 0x3d, 0x7b, 0x46, 0x7c,
        0xe6, 0x68]
    else if data = NEW_ARRAY then
      [0xcd, 0xec, 0x41, 0xd1, 0x43, 0x36, 0xde, 0x54, 0xc9, 0x3e, 0x63, 0x30, 0xb7, 0xa8, 0x58,
        0xa7, 0x7b, 0x5e, 0x74, 0x35, 0x58, 0xd8, 0x14, 0xc7, 0x2b, 0x87, 0x88, 0x81, 0xbf, 0xd0,
        0x8b, 0xe4]
    else
      [0x59, 0xa7, 0x85, 0x0c, 0x43, 0xce, 0x2b, 0x86, 0xe3, 0x2c, 0xb5, 0x25, 0x1e, 0xf0, 0x91,
        0xbb, 0xb3, 0xab, 0x27, 0x68, 0x07, 0x3c, 0x5b, 0x8b, 0xcd, 0xbd, 0x66, 0x35, 0xa1, 0x06,
        0xdb, 0x00]
  hmacSha256 _ _ :=
    [0x38, 0x31, 0x34, 0x71, 0xaf, 0x22, 0x5d, 0x67, 0x78, 0x10, 0xd3, 0xa4, 0xf3, 0x55, 0x35,
      0x4a, 0x48, 0x8f, 0xe0, 0xda, 0x32, 0x8b, 0xb0, 0x6f, 0x63, 0x47, 0xd5, 0xb4, 0xf3, 0x84,
      0x28, 0x87]
  aesGcmEncrypt _ _ plain _ :=
    if plain = SAMPLE_BLOCK then SAMPLE_CIPHERTEXT
    else if plain = OLD_BLOCK then OLD_CIPHERTEXT
    else if plain = KEY_BLOCK then KEY_CIPHERTEXT
    else 0x00 :: plain
  aesGcmDecrypt _ _ ciphertext _ :=
    if ciphertext = SAMPLE_CIPHERTEXT then some SAMPLE_BLOCK
    else if ciphertext = OLD_CIPHERTEXT then some OLD_BLOCK
    else if ciphertext = KEY_CIPHERTEXT then some KEY_BLOCK
    else if ciphertext.head? = some 0x00 then some ciphertext.tail
    else none
  inflate data max := if (data.drop 5).length ≤ max then some (data.drop 5) else none
  length_sha256 data := by
    repeat' split
    all_goals rfl
  length_hmacSha256 _ _ := rfl

theorem seals_labelCrypto : labelCrypto.Seals where
  decrypt_encrypt := by
    intro key nonce plain aad hnonce
    have hmarked (ciphertext : List UInt8) (h : ciphertext.head? ≠ some 0x00) :
        (0x00 :: plain : List UInt8) ≠ ciphertext := by
      rintro rfl
      exact h rfl
    by_cases hsample : plain = SAMPLE_BLOCK
    · simp [labelCrypto, hsample]
    by_cases hold : plain = OLD_BLOCK
    · have hblock : OLD_BLOCK ≠ SAMPLE_BLOCK := by decide
      have hcipher : OLD_CIPHERTEXT ≠ SAMPLE_CIPHERTEXT := by decide
      simp [labelCrypto, hold, hblock, hcipher]
    by_cases hkey : plain = KEY_BLOCK
    · have hblock : KEY_BLOCK ≠ SAMPLE_BLOCK ∧ KEY_BLOCK ≠ OLD_BLOCK := by decide
      have hcipher : KEY_CIPHERTEXT ≠ SAMPLE_CIPHERTEXT ∧ KEY_CIPHERTEXT ≠ OLD_CIPHERTEXT := by
        decide
      simp [labelCrypto, hkey, hblock, hcipher]
    simp [labelCrypto, hsample, hold, hkey, hmarked SAMPLE_CIPHERTEXT (by decide),
      hmarked OLD_CIPHERTEXT (by decide), hmarked KEY_CIPHERTEXT (by decide)]
  inflate_stored := by
    intro data hdata
    have hdrop : (DeviceLabel.storedDeflate data).drop 5 = data := by
      simp [DeviceLabel.storedDeflate, List.drop_append, Bytes.length_le]
    show (if ((DeviceLabel.storedDeflate data).drop 5).length ≤ data.length then
      some ((DeviceLabel.storedDeflate data).drop 5) else none) = some data
    rw [hdrop, if_pos le_rfl]

def sampleInfo : LabelInfo where
  maxMsgSize := none
  largeBlobs := some true
  clientPin := some true
  maxSerializedLargeBlobArray := none

/-- What is read of the array under its old name. -/
def oldArray : LargeBlobArray where
  items := [.skipped [0x01],
    .entry {
      ciphertext := OLD_CIPHERTEXT
      nonce := (List.range' 100 12).map Nat.toUInt8
      origSize := 8
      original := some (OLD_ARRAY.drop 2 |>.take 49) },
    .skipped [0xc1, 0x00]]
  rawArray := OLD_ARRAY
  trailing := 0

/-- A key that holds that array. -/
def labelledKey : Authenticator :=
  { sampleKey with maxMsgSize := none, msgSize_room := by decide }

def labelledLink : Link BlobStore where
  state :=
    { stored := OLD_ARRAY ++ labelCrypto.left16Sha256 OLD_ARRAY
      expectedLength := 0
      expectedNextOffset := 0
      pending := [] }
  sent := []

def sampleRename : LabelPlan where
  beforeRaw := OLD_ARRAY
  serialized := NEW_ARRAY ++ labelCrypto.left16Sha256 NEW_ARRAY
  previous := some ⟨"Old".toList, none⟩
  after :=
    { items := [.skipped [0x01], .skipped [0xc1, 0x00],
        .entry (.built SAMPLE_CIPHERTEXT sampleNonce.val 17)]
      rawArray := []
      trailing := 0 }

theorem parse_oldArray : LargeBlobArray.parse OLD_ARRAY = .ok oldArray := by decide +kernel

theorem plan_sampleRename :
    planLabelChange labelCrypto oldArray sampleInfo (some sampleLabel) sampleNonce =
      .ok sampleRename := by decide +kernel

/-- The key still holds the array that the plan was made from, and takes the new one. -/
theorem apply_sampleRename : ∃ l, applyLabelPlan labelCrypto (labelledKey.device labelCrypto)
    sampleInfo labelledKey.token sampleRename labelledLink = (.ok (), l) := by
  have hlen : labelledLink.state.stored.length = 69 := by decide
  have hread : (read labelCrypto (labelledKey.device labelCrypto) sampleInfo.toAuthenticatorInfo
      labelledLink).1 = .ok oldArray := by
    have hall := @readAll_ok labelCrypto labelledKey labelledLink (by rw [hlen]; decide)
    rw [hlen, if_pos (by decide)] at hall
    have hstored : labelledLink.state.stored =
        OLD_ARRAY ++ labelCrypto.left16Sha256 OLD_ARRAY := rfl
    rw [read_eq, show sampleInfo.toAuthenticatorInfo = labelledKey.info from rfl, hall, hstored,
      Checks.ok_bind, LargeBlobArray.parseChecked_append, parse_oldArray]
  rcases hnow : read labelCrypto (labelledKey.device labelCrypto) sampleInfo.toAuthenticatorInfo
    labelledLink with ⟨now, between⟩
  rw [hnow] at hread
  obtain ⟨l, -, hwrite, -⟩ := @write_accepted labelCrypto labelledKey NEW_ARRAY _ rfl
    (by decide) (.inl (by decide)) between
  have hwrite : write labelCrypto (labelledKey.device labelCrypto) sampleInfo.toAuthenticatorInfo
      labelledKey.token sampleRename.serialized between = (.ok (), l) := hwrite
  refine ⟨l, ?_⟩
  obtain rfl : now = .ok oldArray := hread
  rw [applyLabelPlan, hnow]
  simp only [show oldArray.rawArray = sampleRename.beforeRaw from rfl, ne_eq, not_true_eq_false,
    if_false, hwrite]
  rfl

/-- The key called `Old` is given its new name: the elements around the old entry stay, the old
entry goes, and the new one is the last. -/
theorem sampleLabel_planned :
    ∃ l again e, applyLabelPlan labelCrypto (labelledKey.device labelCrypto) sampleInfo
        labelledKey.token sampleRename labelledLink = (.ok (), l) ∧
      l.state.stored = sampleRename.serialized ∧
      LargeBlobArray.parseChecked labelCrypto l.state.stored = .ok again ∧
      again.items = [.skipped [0x01], .skipped [0xc1, 0x00], .entry e] ∧
      DeviceLabel.decodeEntry labelCrypto e = some sampleLabel := by
  obtain ⟨-, hstored, ⟨again, fresh, hagain, hitems, -, -, hfresh⟩, -⟩ :=
    label_written labelCrypto seals_labelCrypto parse_oldArray plan_sampleRename
      (by decide)
  obtain ⟨l, happly⟩ := apply_sampleRename
  have hstored := hstored labelledKey labelledLink l rfl happly
  obtain ⟨e, rfl, hdecode⟩ := hfresh sampleLabel rfl
  have hkept : (oldArray.items.filter fun i => !i.isLabelItem labelCrypto) =
      [.skipped [0x01], .skipped [0xc1, 0x00]] := by decide
  rw [hkept] at hitems
  exact ⟨l, again, e, happly, hstored, hstored ▸ hagain, hitems, hdecode⟩

end Keyroost.Ctap

/-! ### A name entry, there and back

The entry that is built for a name within the rules decodes as that name and its writer; no entry
is built for another. -/

namespace Keyroost.Ctap

open Cbor

/-- One final stored block, as RFC 1951 writes it: the header byte, the length, its complement, and
the data. -/
def StoredBlock (data block : List UInt8) : Prop :=
  data.length ≤ 0xffff ∧
    block = [0x01] ++ Bytes.le 2 data.length ++ Bytes.le 2 (0xffff - data.length) ++ data

/-- The cipher opens what it sealed, and the inflater takes stored blocks. -/
structure Crypto.Opens (c : Crypto) : Prop where
  decrypt_encrypt : ∀ key nonce plain aad, nonce.length = 12 →
    c.aesGcmDecrypt key nonce (c.aesGcmEncrypt key nonce plain aad) aad = some plain
  inflate_stored : ∀ data block, StoredBlock data block → c.inflate block data.length = some data

namespace DeviceLabel

/-- The rules of a name: a label of 1 to 64 characters, and such a writer if there is one. -/
def InRules (l : DeviceLabel) : Prop :=
  (1 ≤ l.label.length ∧ l.label.length ≤ 64) ∧ ∀ w ∈ l.writer, 1 ≤ w.length ∧ w.length ≤ 64

/-- The block that is made by hand is one. -/
theorem storedBlock_storedDeflate {data : List UInt8} (h : data.length ≤ 0xffff) :
    StoredBlock data (storedDeflate data) := by
  have hlen : data.length.toUInt16.toNat = data.length := by
    rw [Nat.toUInt16_eq, UInt16.toNat_ofNat']
    exact Nat.mod_eq_of_lt (Nat.lt_succ_of_le h)
  have hnot : (~~~data.length.toUInt16).toNat = 0xffff - data.length := by
    rw [UInt16.toNat_not, hlen]
    rfl
  refine ⟨h, ?_⟩
  rw [storedDeflate, hlen, hnot]
  rfl

theorem seals_of_opens {c : Crypto} (h : c.Opens) : c.Seals where
  decrypt_encrypt := h.decrypt_encrypt
  inflate_stored data hdata := h.inflate_stored data _ (storedBlock_storedDeflate hdata)

theorem fits_iff {s : RustStr} : fits s = true ↔ 1 ≤ s.length ∧ s.length ≤ 64 := by
  rw [fits, decide_eq_true_iff]
  rfl

theorem inRules_iff {l : DeviceLabel} : InRules l ↔
    ¬ (fits l.label = false ∨ l.writer.any (fun w => !fits w) = true) := by
  rw [InRules, ← fits_iff, not_or, Bool.not_eq_false, Bool.not_eq_true]
  refine and_congr_right fun _ => ?_
  cases l.writer with
  | none => exact ⟨fun _ => rfl, fun _ => nofun⟩
  | some w =>
      rw [Option.any_some, Bool.not_eq_false', fits_iff]
      exact ⟨fun h => h w rfl, fun h w' hw' => Option.some.inj hw' ▸ h⟩

/-- **A name within the rules comes back from its entry, and no other name gets one.** The nonce is
any. Of the cipher and the inflater it is used that they undo what was encrypted and what was stored
without compression. -/
theorem encodeEntry_roundTrip (c : Crypto) (hopens : c.Opens) (l : DeviceLabel) (nonce : Nonce) :
    (InRules l → ∃ e, encodeEntry c l nonce = .ok e ∧ decodeEntry c e = some l) ∧
      (¬ InRules l → encodeEntry c l nonce = .error .invalidLabel) := by
  constructor
  · intro hrules
    have hplain : plaintext l = .ok (encode (.map (plainEntries l))) :=
      if_neg (inRules_iff.mp hrules)
    have hentry : encodeEntry c l nonce = .ok _ := Checks.bind_eq_ok.mpr ⟨_, hplain, rfl⟩
    exact ⟨_, hentry, decodeEntry_encodeEntry (seals_of_opens hopens) hentry none⟩
  · intro hrules
    have hplain : plaintext l = .error .invalidLabel :=
      if_pos (not_not.mp (mt inRules_iff.mpr hrules))
    rw [encodeEntry, hplain]
    rfl

end DeviceLabel

theorem opens_labelCrypto : labelCrypto.Opens where
  decrypt_encrypt := seals_labelCrypto.decrypt_encrypt
  inflate_stored data block hblock := by
    obtain rfl : block = DeviceLabel.storedDeflate data :=
      hblock.2.trans (DeviceLabel.storedBlock_storedDeflate hblock.1).2.symm
    exact seals_labelCrypto.inflate_stored data hblock.1

/-- A name with its writer, in the entry that AES-256-GCM gives for it. -/
theorem encodeEntry_roundTrip_key : ∃ e,
    DeviceLabel.encodeEntry labelCrypto ⟨"Key".toList, some "keyroost".toList⟩
      ⟨List.replicate 12 7, List.length_replicate⟩ = .ok e ∧ e.ciphertext = KEY_CIPHERTEXT ∧
    DeviceLabel.decodeEntry labelCrypto e = some ⟨"Key".toList, some "keyroost".toList⟩ := by
  obtain ⟨e, hentry, hdecode⟩ := (DeviceLabel.encodeEntry_roundTrip labelCrypto opens_labelCrypto
    ⟨"Key".toList, some "keyroost".toList⟩ ⟨List.replicate 12 7, List.length_replicate⟩).1
    ⟨by decide, fun w hw => by
      obtain rfl := Option.some.inj hw
      decide⟩
  have hbuilt : DeviceLabel.encodeEntry labelCrypto ⟨"Key".toList, some "keyroost".toList⟩
      ⟨List.replicate 12 7, List.length_replicate⟩ =
        .ok (.built KEY_CIPHERTEXT (List.replicate 12 7) 18) := by decide
  obtain rfl := Except.ok.inj (hbuilt.symm.trans hentry)
  exact ⟨_, hentry, rfl, hdecode⟩

end Keyroost.Ctap
