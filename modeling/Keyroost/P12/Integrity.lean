import Keyroost.Library.Checks
import Keyroost.P12.Pfx

/-!
# Where a file's keys come from

Every key that is read was decrypted, or stands under a MAC that matches the password it was read
with. A MAC that matches no candidate lets nothing through.

`KeyOf` says of one key where it comes from, and it is carried upwards through the functions of
`Pfx`: from a bag to the bags of one safe, to the contents of the AuthenticatedSafe, and to the
candidates for the password (`bagContent_key`, `safeBags_key`, `walkContents_key`,
`tryCandidates_ok`). The comparison of MACs is shown to be an equality (`constantTimeEq_iff`).
`read_bags_integrity` is the result for every file, and the last section has a file with a MAC.
-/

namespace Keyroost.P12

open Metered

/-! ### Keys of a file -/

section Sources

variable (prims : Primitives) (authSafe : List UInt8) (pw : Option RustStr)

/-- A SafeContents of the AuthenticatedSafe, decrypted (`true`) or in the clear. Each way to one is
by the readers of the source, so nothing else is taken for one. -/
inductive SafeIn : Bool → List UInt8 → Prop
  | clear {infos : List Tlv} {info content : Tlv} : contentInfos authSafe = .ok infos →
      info ∈ infos → contentInfo info = .ok (DATA_OID, content) →
      isOctets content = true → SafeIn false content.value
  | decrypted {infos : List Tlv} {info content alg : Tlv} {ciphertext plain : List UInt8} :
      contentInfos authSafe = .ok infos → info ∈ infos →
      contentInfo info = .ok (ENCRYPTED_DATA_OID, content) →
      encryptedData content = .ok (alg, ciphertext) →
      (decrypt prims alg ciphertext pw).Yields plain → SafeIn true plain

/-- A bag of a SafeContents. -/
def BagIn (data id : List UInt8) (value : Tlv) : Prop :=
  ∃ members bag attrs, safeMembers data = .ok members ∧ bag ∈ members ∧
    bagParts bag = .ok (id, value, attrs)

/-- A key decrypted with its SafeContents or by itself. A key that stood in the clear in a clear
container is none. -/
inductive FromEncrypted : List UInt8 → Prop
  | container {data : List UInt8} {value : Tlv} : SafeIn prims authSafe pw true data →
      BagIn data KEY_BAG_OID value → FromEncrypted (encode value)
  | shrouded {encrypted : Bool} {data cipher plain : List UInt8} {value alg : Tlv} :
      SafeIn prims authSafe pw encrypted data → BagIn data SHROUDED_KEY_BAG_OID value →
      shroudedKey value = .ok (alg, cipher) → (decrypt prims alg cipher pw).Yields plain →
      FromEncrypted plain

end Sources

variable {prims : Primitives} {authSafe : List UInt8} {pw : Option RustStr}

/-! ### Bags -/

/-- What a key bag gives was in the clear or was decrypted. -/
theorem bagContent_key {id : List UInt8} {value : Tlv} {plainKeysOk : Bool} {bytes : List UInt8}
    {left left' : Nat} (h : bagContent prims id value pw plainKeysOk left =
      (.ok (some (.key, bytes)), left')) :
    (id = KEY_BAG_OID ∧ plainKeysOk = true ∧ bytes = encode value) ∨
      (id = SHROUDED_KEY_BAG_OID ∧ ∃ alg cipher, shroudedKey value = .ok (alg, cipher) ∧
        (decrypt prims alg cipher pw).Yields bytes) := by
  unfold bagContent at h
  split at h
  · next hid =>
      left
      obtain ⟨plain, t, hplain, hdone⟩ := bind_eq_ok.mp h
      obtain ⟨hpair, -⟩ := pure_eq_ok.mp hdone
      cases hpair
      obtain ⟨hplain, -⟩ := lift_eq_ok.mp hplain
      unfold plainKey at hplain
      split at hplain
      · cases hplain
      · next hok =>
          obtain ⟨-, hencode⟩ := Checks.bind_unit_eq_ok.mp hplain
          cases hencode
          rw [Bool.not_eq_true, Bool.not_eq_false'] at hok
          exact ⟨hid, hok, rfl⟩
  · split at h
    · next hid =>
        right
        obtain ⟨⟨alg, cipher⟩, t, hshrouded, hrest⟩ := bind_eq_ok.mp h
        obtain ⟨plain, u, hdecrypt, hdone⟩ := bind_eq_ok.mp hrest
        obtain ⟨hpair, -⟩ := pure_eq_ok.mp hdone
        cases hpair
        exact ⟨hid, alg, cipher, (lift_eq_ok.mp hshrouded).1, yields_of_eq hdecrypt⟩
    · split at h
      · obtain ⟨cert, t, -, hdone⟩ := bind_eq_ok.mp h
        obtain ⟨hpair, -⟩ := pure_eq_ok.mp hdone
        cases cert with
        | none => cases hpair
        | some cert => cases hpair
      · obtain ⟨hnone, -⟩ := pure_eq_ok.mp h
        cases hnone

/-- A key of a SafeContents: in the clear where that is accepted, or shrouded. -/
def KeyOf (prims : Primitives) (pw : Option RustStr) (data : List UInt8) (plainKeysOk : Bool)
    (bytes : List UInt8) : Prop :=
  ∃ value, (plainKeysOk = true ∧ BagIn data KEY_BAG_OID value ∧ bytes = encode value) ∨
    (BagIn data SHROUDED_KEY_BAG_OID value ∧ ∃ alg cipher,
      shroudedKey value = .ok (alg, cipher) ∧ (decrypt prims alg cipher pw).Yields bytes)

theorem safeBag_key {bag : Tlv} {plainKeysOk : Bool} {raw : RawBag} {left left' : Nat}
    {data : List UInt8} {members : List Tlv} (hmembers : safeMembers data = .ok members)
    (hbag : bag ∈ members)
    (h : safeBag prims bag pw plainKeysOk left = (.ok (some raw), left'))
    (hkey : raw.kind = .key) : KeyOf prims pw data plainKeysOk raw.value := by
  obtain ⟨⟨id, value, attrs⟩, t, hparts, hrest⟩ := bind_eq_ok.mp h
  have hin : ∀ {id'}, id = id' → BagIn data id' value := by
    rintro _ rfl
    exact ⟨members, bag, attrs, hmembers, hbag, (lift_eq_ok.mp hparts).1⟩
  obtain ⟨content, u, hcontent, hdone⟩ := bind_eq_ok.mp hrest
  rcases content with _ | ⟨kind, bytes⟩
  · obtain ⟨hnone, -⟩ := pure_eq_ok.mp hdone
    cases hnone
  · obtain ⟨⟨localKeyId, friendlyName⟩, v, -, hraw⟩ := bind_eq_ok.mp hdone
    obtain ⟨hraw, -⟩ := pure_eq_ok.mp hraw
    cases hraw
    cases hkey
    rcases bagContent_key hcontent with ⟨hid, hok, hbytes⟩ | ⟨hid, hshrouded⟩
    · exact ⟨value, .inl ⟨hok, hin hid, hbytes⟩⟩
    · exact ⟨value, .inr ⟨hin hid, hshrouded⟩⟩

theorem safeBags_key {data : List UInt8} {members bags : List Tlv} {plainKeysOk : Bool}
    (hmembers : safeMembers data = .ok members) (hsub : ∀ bag ∈ bags, bag ∈ members)
    {raws : List RawBag} {left left' : Nat}
    (h : safeBags prims pw plainKeysOk bags left = (.ok raws, left')) :
    ∀ raw ∈ raws, raw.kind = .key → KeyOf prims pw data plainKeysOk raw.value := by
  induction bags generalizing raws left left' with
  | nil =>
      obtain ⟨hnil, -⟩ := pure_eq_ok.mp h
      cases hnil
      exact nofun
  | cons bag bags ih =>
      obtain ⟨first, t, hfirst, hrest⟩ := bind_eq_ok.mp h
      obtain ⟨more, u, hmore, hdone⟩ := bind_eq_ok.mp hrest
      obtain ⟨hraws, -⟩ := pure_eq_ok.mp hdone
      cases hraws
      intro raw hraw hkey
      rcases List.mem_append.mp hraw with hraw | hraw
      · rw [Option.mem_toList] at hraw
        cases hraw
        exact safeBag_key hmembers (hsub bag List.mem_cons_self) hfirst hkey
      · exact ih (fun b hb => hsub b (List.mem_cons_of_mem _ hb)) hmore raw hraw hkey

theorem safeContents_key {data : List UInt8} {plainKeysOk : Bool} {raws : List RawBag}
    {left left' : Nat} (h : safeContents prims data pw plainKeysOk left = (.ok raws, left')) :
    ∀ raw ∈ raws, raw.kind = .key → KeyOf prims pw data plainKeysOk raw.value := by
  obtain ⟨members, t, hmembers, hbags⟩ := bind_eq_ok.mp h
  exact safeBags_key (lift_eq_ok.mp hmembers).1 (fun _ => id) hbags

/-! ### The AuthenticatedSafe -/

theorem walkContent_key {infos : List Tlv} {info : Tlv} {plainKeysOk : Bool}
    (hinfos : contentInfos authSafe = .ok infos) (hinfo : info ∈ infos) {raws : List RawBag}
    {left left' : Nat} (h : walkContent prims info pw plainKeysOk left = (.ok raws, left')) :
    ∀ raw ∈ raws, raw.kind = .key →
      FromEncrypted prims authSafe pw raw.value ∨ plainKeysOk = true := by
  obtain ⟨⟨oid, content⟩, t, hcontent, hrest⟩ := bind_eq_ok.mp h
  obtain ⟨hcontent, -⟩ := lift_eq_ok.mp hcontent
  dsimp only at hrest
  split at hrest
  · next hoid =>
      cases hoid
      obtain ⟨_, u, hoctets, hsafe⟩ := bind_eq_ok.mp hrest
      obtain ⟨hoctets, -⟩ := lift_eq_ok.mp hoctets
      have hsafeIn : SafeIn prims authSafe pw false content.value := by
        refine .clear hinfos hinfo hcontent ?_
        unfold expectOctets at hoctets
        split at hoctets
        · assumption
        · cases hoctets
      intro raw hraw hkey
      obtain ⟨value, ⟨hok, -⟩ | ⟨hbag, alg, cipher, hshrouded, hplain⟩⟩ :=
        safeContents_key hsafe raw hraw hkey
      · exact .inr hok
      · exact .inl (.shrouded hsafeIn hbag hshrouded hplain)
  · split at hrest
    · next hoid =>
        cases hoid
        obtain ⟨⟨alg, ciphertext⟩, u, hed, hrest⟩ := bind_eq_ok.mp hrest
        obtain ⟨plain, v, hplain, hsafe⟩ := bind_eq_ok.mp hrest
        have hsafeIn : SafeIn prims authSafe pw true plain :=
          .decrypted hinfos hinfo hcontent (lift_eq_ok.mp hed).1 (yields_of_eq hplain)
        intro raw hraw hkey
        obtain ⟨value, ⟨-, hbag, hbytes⟩ | ⟨hbag, alg, cipher, hshrouded, hplain⟩⟩ :=
          safeContents_key hsafe raw hraw hkey
        · exact .inl (hbytes ▸ .container hsafeIn hbag)
        · exact .inl (.shrouded hsafeIn hbag hshrouded hplain)
    · obtain ⟨herror, -⟩ := lift_eq_ok.mp hrest
      cases herror

theorem walkContents_key {infos rest : List Tlv} {plainKeysOk : Bool}
    (hinfos : contentInfos authSafe = .ok infos) (hsub : ∀ info ∈ rest, info ∈ infos)
    {raws : List RawBag} {left left' : Nat}
    (h : walkContents prims pw plainKeysOk rest left = (.ok raws, left')) :
    ∀ raw ∈ raws, raw.kind = .key →
      FromEncrypted prims authSafe pw raw.value ∨ plainKeysOk = true := by
  induction rest generalizing raws left left' with
  | nil =>
      obtain ⟨hnil, -⟩ := pure_eq_ok.mp h
      cases hnil
      exact nofun
  | cons info rest ih =>
      obtain ⟨first, t, hfirst, hrest⟩ := bind_eq_ok.mp h
      obtain ⟨more, u, hmore, hdone⟩ := bind_eq_ok.mp hrest
      obtain ⟨hraws, -⟩ := pure_eq_ok.mp hdone
      cases hraws
      intro raw hraw hkey
      rcases List.mem_append.mp hraw with hraw | hraw
      · exact walkContent_key hinfos (hsub info List.mem_cons_self) hfirst raw hraw hkey
      · exact ih (fun i hi => hsub i (List.mem_cons_of_mem _ hi)) hmore raw hraw hkey

/-- The keys an AuthenticatedSafe gives. -/
theorem walkAuthSafe_key {plainKeysOk : Bool} {raws : List RawBag} {left left' : Nat}
    (h : walkAuthSafe prims authSafe pw plainKeysOk left = (.ok raws, left')) :
    ∀ raw ∈ raws, raw.kind = .key →
      FromEncrypted prims authSafe pw raw.value ∨ plainKeysOk = true := by
  obtain ⟨infos, t, hinfos, hrest⟩ := bind_eq_ok.mp h
  exact walkContents_key (lift_eq_ok.mp hinfos).1 (fun _ => id) hrest

/-! ### The MAC -/

theorem constantTimeEq_fold (a b : List UInt8) (h : a.length = b.length) (acc : UInt8) :
    (List.zipWith (· ^^^ ·) a b).foldl (· ||| ·) acc = 0 ↔ acc = 0 ∧ a = b := by
  induction a generalizing b acc with
  | nil =>
      cases b with
      | nil => exact (and_iff_left rfl).symm
      | cons y b => cases h
  | cons x a ih =>
      cases b with
      | nil => cases h
      | cons y b =>
          rw [List.zipWith_cons_cons, List.foldl_cons, ih b (Nat.succ.inj h), List.cons.injEq]
          rw [UInt8.or_eq_zero_iff, UInt8.xor_eq_zero_iff, and_assoc]

theorem constantTimeEq_iff (a b : List UInt8) : constantTimeEq a b = true ↔ a = b := by
  rw [constantTimeEq, Bool.and_eq_true, beq_iff_eq, beq_iff_eq]
  constructor
  · rintro ⟨hlen, hfold⟩
    exact ((constantTimeEq_fold a b hlen 0).mp hfold).2
  · rintro rfl
    exact ⟨rfl, (constantTimeEq_fold a a rfl 0).mpr ⟨rfl, rfl⟩⟩

/-- The MAC a file carries, if any, is the one this password gives. -/
def Matches (prims : Primitives) (authSafe : List UInt8) (mac : Option Mac)
    (pw : Option RustStr) : Prop :=
  ∀ m, mac = some m → m.compute prims authSafe pw = m.digest

theorem matches_of_admits {mac : Option Mac} {left left' : Nat}
    (h : admits prims authSafe mac pw left = (.ok true, left')) : Matches prims authSafe mac pw := by
  rintro m rfl
  obtain ⟨_, t, -, hverify⟩ := bind_eq_ok.mp h
  obtain ⟨heq, -⟩ := pure_eq_ok.mp hverify
  exact (constantTimeEq_iff _ _).mp heq

/-- The bags that are returned were read with a candidate that matches the MAC. -/
theorem tryCandidates_ok {mac : Option Mac} {pws : List (Option RustStr)} {raws : List RawBag}
    {left left' : Nat} (h : tryCandidates prims authSafe mac pws left = (.ok raws, left')) :
    ∃ pw ∈ pws, Matches prims authSafe mac pw ∧
      (walkAuthSafe prims authSafe pw mac.isSome).Yields raws := by
  induction pws generalizing left left' with
  | nil =>
      obtain ⟨herror, -⟩ := lift_eq_ok.mp h
      cases herror
  | cons pw pws ih =>
      have hlater : ∀ {left left'}, tryCandidates prims authSafe mac pws left = (.ok raws, left') →
          ∃ pw' ∈ pw :: pws, Matches prims authSafe mac pw' ∧
            (walkAuthSafe prims authSafe pw' mac.isSome).Yields raws := by
        intro left left' h
        obtain ⟨pw', hpw', hrest⟩ := ih h
        exact ⟨pw', List.mem_cons_of_mem _ hpw', hrest⟩
      obtain ⟨admitted, t, hadmits, hrest⟩ := bind_eq_ok.mp h
      cases admitted with
      | false => exact hlater hrest
      | true =>
          rw [if_pos rfl] at hrest
          rcases orElseIf_eq_ok hrest with hwalk | ⟨u, hrest⟩
          · exact ⟨pw, List.mem_cons_self, matches_of_admits hadmits, yields_of_eq hwalk⟩
          · exact hlater hrest

/-- The bags were read with one candidate, and each key among them was decrypted with it or
stands under the file's MAC, which matches it. -/
def Vouched (prims : Primitives) (der : List UInt8) (password : Option RustStr)
    (bags : List RawBag) : Prop :=
  ∃ authSafe mac pw, parsePfx der = .ok (authSafe, mac) ∧ pw ∈ candidates password ∧
    (walkAuthSafe prims authSafe pw mac.isSome).Yields bags ∧
    ∀ bag ∈ bags, bag.kind = .key → FromEncrypted prims authSafe pw bag.value ∨
      ∃ m, mac = some m ∧ m.compute prims authSafe pw = m.digest

/-- **No key of a file is read unless it was decrypted or its MAC matches.** What is read is vouched
for, a file whose MAC matches no candidate for the password is refused, and in a file without a MAC
only keys that were decrypted under one of the candidates are read. -/
theorem read_bags_integrity (prims : Primitives) (der : List UInt8)
    (password : Option RustStr) :
    (∀ bags, readBags prims der password = .ok bags → Vouched prims der password bags) ∧
    (∀ authSafe m, parsePfx der = .ok (authSafe, some m) →
      (∀ pw ∈ candidates password, m.compute prims authSafe pw ≠ m.digest) →
      ∀ bags, readBags prims der password ≠ .ok bags) ∧
    (∀ authSafe bags, parsePfx der = .ok (authSafe, none) →
      readBags prims der password = .ok bags → ∃ pw ∈ candidates password,
        ∀ bag ∈ bags, bag.kind = .key → FromEncrypted prims authSafe pw bag.value) := by
  have hopen : ∀ {bags}, readBags prims der password = .ok bags →
      ∃ authSafe mac pw, parsePfx der = .ok (authSafe, mac) ∧ pw ∈ candidates password ∧
        Matches prims authSafe mac pw ∧
        (walkAuthSafe prims authSafe pw mac.isSome).Yields bags := by
    intro bags h
    obtain ⟨⟨authSafe, mac⟩, t, hparse, htry⟩ := bind_eq_ok.mp (Prod.ext h rfl)
    obtain ⟨hparse, -⟩ := lift_eq_ok.mp hparse
    obtain ⟨pw, hpw, hmatches, hwalk⟩ := tryCandidates_ok htry
    exact ⟨authSafe, mac, pw, hparse, hpw, hmatches, hwalk⟩
  refine ⟨fun bags h => ?_, fun authSafe m hparse hno bags h => ?_,
    fun authSafe bags hparse h => ?_⟩
  · obtain ⟨authSafe, mac, pw, hparse, hpw, hmatches, hwalk⟩ := hopen h
    refine ⟨authSafe, mac, pw, hparse, hpw, hwalk, fun bag hbag hkey => ?_⟩
    obtain ⟨left, left', hwalk⟩ := hwalk
    refine (walkAuthSafe_key hwalk bag hbag hkey).imp_right fun hmac => ?_
    obtain ⟨m, rfl⟩ := Option.isSome_iff_exists.mp hmac
    exact ⟨m, rfl, hmatches m rfl⟩
  · obtain ⟨authSafe', mac, pw, hparse', hpw, hmatches, -⟩ := hopen h
    rw [hparse] at hparse'
    cases hparse'
    exact hno pw hpw (hmatches m rfl)
  · obtain ⟨authSafe', mac, pw, hparse', hpw, -, left, left', hwalk⟩ := hopen h
    rw [hparse] at hparse'
    cases hparse'
    refine ⟨pw, hpw, fun bag hbag hkey => ?_⟩
    exact (walkAuthSafe_key hwalk bag hbag hkey).resolve_right nofun

/-! ### A file with a MAC -/

def MAC_KEY : List UInt8 :=
  [0x6D, 0xA2, 0x87, 0x25, 0x5A, 0x80, 0x95, 0x1B, 0x23, 0x75, 0xEC, 0x52, 0xD5, 0x30, 0xB8,
    0x8A, 0xA6, 0xF4, 0xFA, 0x67]

def MAC_DIGEST : List UInt8 :=
  [0xA6, 0xAF, 0x8A, 0xD1, 0x96, 0x98, 0x91, 0xF9, 0xDF, 0xBF, 0xCF, 0xC1, 0x6F, 0xDE, 0x43,
    0x25, 0x7B, 0x15, 0x97, 0x5C]

/-- A PKCS#12 file with a key in the clear and a MAC under the password `k`. -/
def MAC_FILE : List UInt8 :=
  [0x30, 0x68, 0x02, 0x01, 0x03, 0x30, 0x3A, 0x06, 0x09, 0x2A, 0x86, 0x48, 0x86, 0xF7, 0x0D,
    0x01, 0x07, 0x01, 0xA0, 0x2D, 0x04, 0x2B, 0x30, 0x29, 0x30, 0x27, 0x06, 0x09, 0x2A, 0x86,
    0x48, 0x86, 0xF7, 0x0D, 0x01, 0x07, 0x01, 0xA0, 0x1A, 0x04, 0x18, 0x30, 0x16, 0x30, 0x14,
    0x06, 0x0B, 0x2A, 0x86, 0x48, 0x86, 0xF7, 0x0D, 0x01, 0x0C, 0x0A, 0x01, 0x01, 0xA0, 0x05,
    0x30, 0x03, 0x02, 0x01, 0x00, 0x30, 0x27, 0x30, 0x21, 0x30, 0x09, 0x06, 0x05, 0x2B, 0x0E,
    0x03, 0x02, 0x1A, 0x05, 0x00, 0x04, 0x14, 0xA6, 0xAF, 0x8A, 0xD1, 0x96, 0x98, 0x91, 0xF9,
    0xDF, 0xBF, 0xCF, 0xC1, 0x6F, 0xDE, 0x43, 0x25, 0x7B, 0x15, 0x97, 0x5C, 0x04, 0x02, 0x01,
    0x02]

/-- The keyed hash and the key derivation at what the file asks for. Nothing is encrypted. -/
def macFilePrims : Primitives where
  hmac := fun _ _ _ => MAC_DIGEST
  pkcs12Kdf := fun _ _ _ _ _ _ => MAC_KEY
  pbkdf2 := fun _ _ _ _ _ => []
  decryptPadded := fun _ _ _ _ => none

theorem read_bags_integrity_macFile : Vouched macFilePrims MAC_FILE (some ['k'])
    [⟨.key, [0x30, 0x03, 0x02, 0x01, 0x00], none, none⟩] :=
  (read_bags_integrity macFilePrims MAC_FILE (some ['k'])).1 _ (by decide)

end Keyroost.P12
