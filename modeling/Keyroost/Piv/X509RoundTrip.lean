import Keyroost.Library.Checks
import Keyroost.Piv.KeyImport
import Keyroost.Piv.X509
import Keyroost.Piv.X509Parse

/-!
# What is built is read back

A certificate that `X509` builds for a key reads back, through `X509Parse`, as that key and its
subject, for every length a reader follows: less than `2^32` bytes.

The proof goes by elements. `readTlv_derTlv` reads one element in front of anything, in each of the
forms of its length, and the writer and the reader are then gone through together: the subject
(`parseName_toDer`), the key (`subjectPublicKeyInfo_reads`), and the fields of the certificate
(`built_fields`). `builder_and_reader_agree` is the result.
`padding_and_huge_certificates_are_lost` shows what its conditions are for.
-/

namespace Keyroost.Piv

/-! ### Elements -/

theorem readLen_append (bytes tail : List UInt8) (n : Nat) :
    readLen bytes.length n (bytes ++ tail) = .ok (Bytes.foldBe n bytes, tail) := by
  induction bytes generalizing n with
  | nil => rfl
  | cons b bytes ih => exact ih _

theorem readContent_append (tag : UInt8) (value tail : List UInt8) :
    readContent tag value.length (value ++ tail) = .ok (⟨tag, value⟩, tail) := by
  rw [readContent, if_neg, List.take_left, List.drop_left]
  rw [List.length_append]
  omega

/-- The octet in front of a long length. -/
theorem longForm {num : Nat} (hpos : 0 < num) (hle : num ≤ 4) :
    (0x80 ||| num.toUInt8) &&& 0x80 ≠ 0 ∧ ((0x80 ||| num.toUInt8) &&& 0x7F).toNat = num := by
  obtain rfl | rfl | rfl | rfl : num = 1 ∨ num = 2 ∨ num = 3 ∨ num = 4 := by omega
  · decide
  · decide
  · decide
  · decide

theorem shortForm : ∀ len < 0x80, len.toUInt8 &&& 0x80 = 0 ∧ len.toUInt8.toNat = len := by
  decide

/-- An element of less than `2^32` bytes reads back. -/
theorem readTlv_derTlv {value : List UInt8} (h : value.length < 2 ^ 32) (tag : UInt8)
    (tail : List UInt8) : readTlv (derTlv tag value ++ tail) = .ok (⟨tag, value⟩, tail) := by
  rw [derTlv, List.cons_append, List.append_assoc]
  unfold derLen
  split
  · next hshort =>
      obtain ⟨hbit, hlen⟩ := shortForm value.length hshort
      rw [List.singleton_append, readTlv, if_pos hbit, hlen]
      exact readContent_append tag value tail
  · next hlong =>
      have hpos := List.length_pos_iff.mpr
        (Bytes.minimal_ne_nil (n := value.length) (by omega))
      have hle : (Bytes.minimal value.length).length ≤ 4 := Bytes.length_minimal_le h
      obtain ⟨hbit, hnum⟩ := longForm hpos hle
      rw [List.cons_append, readTlv, if_neg hbit]
      simp only [hnum]
      rw [if_neg (by omega), readLen_append, Bytes.foldBe_minimal]
      exact readContent_append tag value tail

theorem expectTag_derTlv {value : List UInt8} (h : value.length < 2 ^ 32) (tag : UInt8)
    (tail : List UInt8) : expectTag tag (derTlv tag value ++ tail) = .ok (value, tail) := by
  rw [expectTag, readTlv_derTlv h, Checks.ok_bind]
  exact if_neg (not_not_intro rfl)

theorem expectTag_alone {value : List UInt8} (h : value.length < 2 ^ 32) (tag : UInt8) :
    expectTag tag (derTlv tag value) = .ok (value, []) := by
  have hread := expectTag_derTlv h tag []
  rwa [List.append_nil] at hread

/-! ### The subject -/

def NameAttr.asDn : NameAttr → DnAttr
  | .commonName => .commonName
  | .organization => .organization
  | .organizationalUnit => .organizationalUnit
  | .country => .country
  | .locality => .locality
  | .stateOrProvince => .stateOrProvince

/-- The subject as its reader shows it. -/
def SubjectName.asDn (subject : SubjectName) : SubjectDn :=
  ⟨subject.parts.map fun part => (part.1.asDn, part.2)⟩

/-- The identifiers of the key types as the reader spells them. -/
theorem dotted_keyTypes :
    (oidOf (OID_RSA_ENCRYPTION.drop 2) = .ok DOTTED_RSA_ENCRYPTION ∧
      oidOf (OID_EC_PUBLIC_KEY.drop 2) = .ok DOTTED_EC_PUBLIC_KEY ∧
      oidOf (OID_ED25519.drop 2) = .ok DOTTED_ED25519 ∧
      oidOf (OID_X25519.drop 2) = .ok DOTTED_X25519) ∧
    (DOTTED_EC_PUBLIC_KEY ≠ DOTTED_RSA_ENCRYPTION ∧ DOTTED_X25519 ≠ DOTTED_ED25519 ∧
      ∀ d ∈ [DOTTED_ED25519, DOTTED_X25519],
        d ≠ DOTTED_RSA_ENCRYPTION ∧ d ≠ DOTTED_EC_PUBLIC_KEY) ∧
    curveAlg (derTlv 0x06 (OID_P256.drop 2)) = .ok (some .eccP256) ∧
    curveAlg (derTlv 0x06 (OID_P384.drop 2)) = .ok (some .eccP384) ∧
    curveAlg (derTlv 0x06 (OID_P521.drop 2)) = .ok (some .eccP521) := by
  decide

theorem oid_element (attr : NameAttr) : ∃ content, attr.oid = derTlv 0x06 content ∧
    content.length < 2 ^ 32 ∧ (oidOf content).map DnAttr.fromOid = .ok attr.asDn := by
  cases attr with
  | commonName => exact ⟨[0x55, 0x04, 0x03], rfl, by decide, by decide⟩
  | organization => exact ⟨[0x55, 0x04, 0x0A], rfl, by decide, by decide⟩
  | organizationalUnit => exact ⟨[0x55, 0x04, 0x0B], rfl, by decide, by decide⟩
  | country => exact ⟨[0x55, 0x04, 0x06], rfl, by decide, by decide⟩
  | locality => exact ⟨[0x55, 0x04, 0x07], rfl, by decide, by decide⟩
  | stateOrProvince => exact ⟨[0x55, 0x04, 0x08], rfl, by decide, by decide⟩

theorem readAttribute_append {part : NameAttr × RustStr}
    (h : (rdnDer part).length < 2 ^ 32) (tail : List UInt8) :
    readAttribute (derSeq [part.1.oid, derTlv (if part.1 = .country then 0x13 else 0x0C)
      (RustStr.asBytes part.2)] ++ tail) = .ok ((part.1.asDn, part.2), tail) := by
  obtain ⟨content, hoid, hcontent, hattr⟩ := oid_element part.1
  have hatv := Nat.lt_trans (length_lt_derTlv _ _) h
  have hflat := Nat.lt_trans (length_lt_derTlv _ _) hatv
  have hvalue : (RustStr.asBytes part.2).length < 2 ^ 32 :=
    Nat.lt_trans (length_lt_derTlv _ _) (Nat.lt_trans (length_lt_derSeq
      (List.mem_cons_of_mem _ List.mem_cons_self)) hatv)
  rw [readAttribute, derSeq, expectTag_derTlv hflat, Checks.ok_bind]
  simp only [List.flatten_cons, List.flatten_nil, List.append_nil]
  rw [hoid, expectTag_derTlv hcontent, Checks.ok_bind]
  rcases hoidOf : oidOf content with e | oid
  · rw [hoidOf] at hattr
    cases hattr
  · rw [hoidOf] at hattr
    have htlv := readTlv_derTlv hvalue (if part.1 = .country then 0x13 else 0x0C) []
    rw [List.append_nil] at htlv
    rw [Checks.ok_bind, htlv, Checks.ok_bind]
    show Except.ok ((DnAttr.fromOid oid, Utf8.fromUtf8Lossy (RustStr.asBytes part.2)), tail) = _
    rw [Utf8.fromUtf8Lossy_asBytes, Except.ok.inj hattr]

theorem reads_rdnDer {part : NameAttr × RustStr} (h : (rdnDer part).length < 2 ^ 32) :
    Reader.Reads readRdn (rdnDer part) [(part.1.asDn, part.2)] := by
  intro tail
  have hset := Nat.lt_trans (length_lt_derTlv _ _) h
  rw [readRdn, rdnDer, expectTag_derTlv hset, Checks.ok_bind]
  have hone := Reader.toEnd_flatten (e := .malformed)
    (.cons ⟨derTlv_ne_nil _ _, readAttribute_append h⟩ .nil) _ (Nat.le_refl _)
  rw [List.flatten_cons, List.flatten_nil, List.append_nil] at hone
  exact congrArg (· >>= fun rdn => .ok (rdn, tail)) hone

/-- The subject reads back, attribute by attribute. -/
theorem parseName_toDer {subject : SubjectName} (h : subject.toDer.length < 2 ^ 32) :
    parseName (subject.parts.map rdnDer).flatten = .ok subject.asDn := by
  have hitems : List.Forall₂ (fun pre rdn => pre ≠ [] ∧ Reader.Reads readRdn pre rdn)
      (subject.parts.map rdnDer) (subject.parts.map fun part => [(part.1.asDn, part.2)]) := by
    rw [List.forall₂_map_left_iff, List.forall₂_map_right_iff, List.forall₂_same]
    exact fun part hpart => ⟨derTlv_ne_nil _ _, reads_rdnDer
      (Nat.lt_trans (length_lt_derSeq (List.mem_map_of_mem hpart)) h)⟩
  rw [parseName, Reader.toEnd_flatten hitems _ (Nat.le_refl _), Checks.ok_bind]
  show Except.ok (SubjectDn.mk _) = _
  rw [SubjectName.asDn, ← List.flatMap_def, ← List.map_eq_flatMap]

/-! ### The public key -/

def PublicKey.Fits : PublicKey → KeyAlg → Prop
  | .rsa modulus _, alg => rsaBits alg = some (modulus.length * 8) ∧ modulus.head? ≠ some 0
  | .ecc _, alg => rsaBits alg = none

/-- The key as its reader shows it: an exponent's leading zero bytes are not written. -/
def PublicKey.asRead : PublicKey → PublicKey
  | .rsa modulus exponent => .rsa modulus (magnitude exponent)
  | .ecc point => .ecc point

/-- The content of an INTEGER. -/
def uintContent (bytes : List UInt8) : List UInt8 :=
  (if (magnitude bytes).head?.any highBit then [0x00] else []) ++ magnitude bytes

theorem derUint_eq (bytes : List UInt8) : derUint bytes = derTlv 0x02 (uintContent bytes) := rfl

theorem stripDerUintSignGuard_of_head {bytes : List UInt8} (h : bytes.head? ≠ some 0) :
    stripDerUintSignGuard bytes = bytes := by
  rw [stripDerUintSignGuard]
  rintro b rest rfl
  exact h rfl

/-- The sign guard goes, and only it. -/
theorem stripDerUintSignGuard_uintContent (bytes : List UInt8) :
    stripDerUintSignGuard (uintContent bytes) = magnitude bytes := by
  have hne := magnitude_ne_nil bytes
  have hhead : magnitude bytes = [0] ∨ (magnitude bytes).head? ≠ some 0 := by
    rw [magnitude]
    split
    · exact .inl rfl
    · exact stripZeros_head bytes
  rw [uintContent]
  rcases hhead with hzero | hhead
  · rw [hzero]
    rfl
  · split
    · obtain ⟨b, rest, hcons⟩ := List.exists_cons_of_ne_nil hne
      rw [hcons]
      rfl
    · rw [List.nil_append]
      exact stripDerUintSignGuard_of_head hhead

theorem rsaKeyAlg_derSeq {alg : KeyAlg} {modulus exponent : List UInt8}
    (hfits : (PublicKey.rsa modulus exponent).Fits alg)
    (h : (derSeq [derUint modulus, derUint exponent]).length < 2 ^ 32) :
    rsaKeyAlg (derSeq [derUint modulus, derUint exponent]) = .ok (some alg) := by
  obtain ⟨hbits, hhead⟩ := hfits
  have hflat := Nat.lt_trans (length_lt_derTlv _ _) h
  have hmodulus : (uintContent modulus).length < 2 ^ 32 := Nat.lt_trans (length_lt_derTlv 0x02 _)
    (Nat.lt_trans (length_lt_derSeq List.mem_cons_self) h)
  have hne : modulus ≠ [] := by
    rintro rfl
    cases alg <;> cases hbits
  rw [rsaKeyAlg, derSeq, expectTag_alone hflat, Checks.ok_bind]
  dsimp only
  rw [List.flatten_cons, derUint_eq, expectTag_derTlv hmodulus, Checks.ok_bind]
  simp only [stripDerUintSignGuard_uintContent, magnitude_of_head hne hhead]
  generalize modulus.length * 8 = bits at hbits
  cases alg <;> cases hbits <;> rfl

/-- The content of a `SubjectPublicKeyInfo`. -/
def spkiContent (oid params keyBytes : List UInt8) : List UInt8 :=
  derSeq [derTlv 0x06 oid, params] ++ derBitstring keyBytes

theorem spkiParts_content {oid params keyBytes : List UInt8} {dotted : RustStr}
    (hoid : oidOf oid = .ok dotted) (h : (spkiContent oid params keyBytes).length < 2 ^ 32) :
    spkiParts (spkiContent oid params keyBytes) = .ok (dotted, params, keyBytes) := by
  rw [spkiContent, List.length_append] at h
  have hseq : (derSeq [derTlv 0x06 oid, params]).length < 2 ^ 32 := by omega
  have hbits : (derBitstring keyBytes).length < 2 ^ 32 := by omega
  have hflat := Nat.lt_trans (length_lt_derTlv _ _) hseq
  have hoidLen : oid.length < 2 ^ 32 := Nat.lt_trans (length_lt_derTlv 0x06 _)
    (Nat.lt_trans (length_lt_derSeq List.mem_cons_self) hseq)
  rw [spkiParts, spkiContent, derSeq, expectTag_derTlv hflat, Checks.ok_bind]
  dsimp only
  rw [derBitstring, expectTag_alone (Nat.lt_trans (length_lt_derTlv _ _) hbits), Checks.ok_bind]
  dsimp only
  rw [List.flatten_cons, expectTag_derTlv hoidLen, Checks.ok_bind]
  dsimp only
  rw [hoid, Checks.ok_bind, List.flatten_cons, List.flatten_nil, List.append_nil]
  rfl

theorem derSeq_spki (oid params keyBytes : List UInt8) :
    derSeq [derSeq [derTlv 0x06 oid, params], derBitstring keyBytes] =
      derTlv 0x30 (spkiContent oid params keyBytes) := by
  rw [derSeq, List.flatten_cons, List.flatten_cons, List.flatten_nil, List.append_nil,
    spkiContent]

/-- The content reads as the key and as its algorithm. -/
def ReadsAs (key : PublicKey) (alg : KeyAlg) (content : List UInt8) : Prop :=
  content.length < 2 ^ 32 → parseSpkiContent content = .ok (alg, key.asRead) ∧
    spkiAlgorithm content = .ok (some alg)

theorem readsAs_rsa {alg : KeyAlg} {modulus exponent : List UInt8}
    (hfits : (PublicKey.rsa modulus exponent).Fits alg) :
    ReadsAs (.rsa modulus exponent) alg (spkiContent (OID_RSA_ENCRYPTION.drop 2) DER_NULL
      (derSeq [derUint modulus, derUint exponent])) := by
  intro h
  have hoid := dotted_keyTypes.1.1
  have hbits : (derBitstring (derSeq [derUint modulus, derUint exponent])).length < 2 ^ 32 := by
    rw [spkiContent, List.length_append] at h
    omega
  have hseq : (derSeq [derUint modulus, derUint exponent]).length < 2 ^ 32 :=
    Nat.lt_of_succ_lt (Nat.lt_trans (length_lt_derTlv 0x03 (0x00 :: _)) hbits)
  have hmodulus : (uintContent modulus).length < 2 ^ 32 := Nat.lt_trans (length_lt_derTlv 0x02 _)
    (Nat.lt_trans (length_lt_derSeq List.mem_cons_self) hseq)
  have hexponent : (uintContent exponent).length < 2 ^ 32 := Nat.lt_trans
    (length_lt_derTlv 0x02 _) (Nat.lt_trans (length_lt_derSeq
      (List.mem_cons_of_mem _ List.mem_cons_self)) hseq)
  have halg := rsaKeyAlg_derSeq hfits hseq
  have hne : modulus ≠ [] := by
    rintro rfl
    cases alg <;> cases hfits.1
  rw [parseSpkiContent, spkiAlgorithm, spkiParts_content hoid h, Checks.ok_bind, Checks.ok_bind]
  dsimp only
  rw [if_pos rfl, if_pos rfl]
  refine ⟨?_, halg⟩
  have hknown : rsaKeyAlg (derSeq [derUint modulus, derUint exponent]) >>= known = .ok alg := by
    rw [halg]
    rfl
  rw [hknown, Checks.ok_bind]
  rw [derSeq, expectTag_alone (Nat.lt_trans (length_lt_derTlv _ _) hseq), Checks.ok_bind]
  dsimp only
  rw [List.flatten_cons, derUint_eq, expectTag_derTlv hmodulus, Checks.ok_bind]
  dsimp only
  rw [List.flatten_cons, List.flatten_nil, List.append_nil, derUint_eq,
    expectTag_alone hexponent, Checks.ok_bind]
  dsimp only
  rw [stripDerUintSignGuard_uintContent, stripDerUintSignGuard_uintContent,
    magnitude_of_head hne hfits.2]
  rfl

theorem readsAs_ec {alg : KeyAlg} {curve point : List UInt8}
    (halg : curveAlg (derTlv 0x06 curve) = .ok (some alg)) :
    ReadsAs (.ecc point) alg (spkiContent (OID_EC_PUBLIC_KEY.drop 2) (derTlv 0x06 curve)
      point) := by
  intro h
  obtain ⟨⟨-, hoid, -⟩, ⟨hne, -⟩, -⟩ := dotted_keyTypes
  rw [parseSpkiContent, spkiAlgorithm, spkiParts_content hoid h, Checks.ok_bind, Checks.ok_bind]
  dsimp only
  rw [if_neg hne, if_neg hne, if_pos rfl, if_pos rfl, halg, Checks.ok_bind]
  exact ⟨rfl, rfl⟩

theorem readsAs_eddsa {alg : KeyAlg} {oid point : List UInt8} {dotted : RustStr}
    (hoid : oidOf oid = .ok dotted) (halg : alg = .ed25519 ∧ dotted = DOTTED_ED25519 ∨
      alg = .x25519 ∧ dotted = DOTTED_X25519) :
    ReadsAs (.ecc point) alg (spkiContent oid [] point) := by
  intro h
  obtain ⟨-, ⟨-, hed, hne⟩, -⟩ := dotted_keyTypes
  rw [parseSpkiContent, spkiAlgorithm, spkiParts_content hoid h, Checks.ok_bind, Checks.ok_bind]
  dsimp only
  rcases halg with ⟨rfl, rfl⟩ | ⟨rfl, rfl⟩
  · obtain ⟨hrsa, hec⟩ := hne _ List.mem_cons_self
    rw [if_neg hrsa, if_neg hec, if_pos rfl, if_neg hrsa, if_neg hec, if_pos rfl]
    exact ⟨rfl, rfl⟩
  · obtain ⟨hrsa, hec⟩ := hne _ (List.mem_cons_of_mem _ List.mem_cons_self)
    rw [if_neg hrsa, if_neg hec, if_neg hed, if_pos rfl, if_neg hrsa, if_neg hec, if_neg hed,
      if_pos rfl]
    exact ⟨rfl, rfl⟩

/-- Every key that fits its algorithm is written, and read back from what is written. -/
theorem subjectPublicKeyInfo_reads {key : PublicKey} {alg : KeyAlg} (hfits : key.Fits alg) :
    ∃ content, subjectPublicKeyInfo key alg = .ok (derTlv 0x30 content) ∧
      ReadsAs key alg content := by
  cases key with
  | rsa modulus exponent =>
      refine ⟨_, ?_, readsAs_rsa hfits⟩
      have hspki : subjectPublicKeyInfo (.rsa modulus exponent) alg =
          .ok (rsaSpki modulus exponent) := by
        have hbits := hfits.1
        cases alg <;> first | rfl | cases hbits
      rw [hspki]
      exact congrArg _ (derSeq_spki (OID_RSA_ENCRYPTION.drop 2) DER_NULL _)
  | ecc point =>
      have hec : ∀ {alg : KeyAlg} (curve : List UInt8),
          curveAlg (derTlv 0x06 curve) = .ok (some alg) → ∃ content,
            Except.ok (ε := SpkiError) (ecSpki (derTlv 0x06 curve) point) =
              .ok (derTlv 0x30 content) ∧ ReadsAs (.ecc point) alg content :=
        fun curve hcurve => ⟨_, congrArg _ (derSeq_spki (OID_EC_PUBLIC_KEY.drop 2) _ point),
          readsAs_ec hcurve⟩
      have hed : ∀ {alg : KeyAlg} (oid : List UInt8) {dotted : RustStr},
          oidOf oid = .ok dotted → (alg = .ed25519 ∧ dotted = DOTTED_ED25519 ∨
            alg = .x25519 ∧ dotted = DOTTED_X25519) → ∃ content,
            Except.ok (ε := SpkiError) (eddsaSpki (derTlv 0x06 oid) point) =
              .ok (derTlv 0x30 content) ∧ ReadsAs (.ecc point) alg content :=
        fun oid _ hoid halg => ⟨_, congrArg _ (derSeq_spki oid [] point),
          readsAs_eddsa hoid halg⟩
      obtain ⟨⟨-, -, hed25519, hx25519⟩, -, hp256, hp384, hp521⟩ := dotted_keyTypes
      cases alg with
      | eccP256 => exact hec (OID_P256.drop 2) hp256
      | eccP384 => exact hec (OID_P384.drop 2) hp384
      | eccP521 => exact hec (OID_P521.drop 2) hp521
      | ed25519 => exact hed (OID_ED25519.drop 2) hed25519 (.inl ⟨rfl, rfl⟩)
      | x25519 => exact hed (OID_X25519.drop 2) hx25519 (.inr ⟨rfl, rfl⟩)
      | rsa1024 | rsa2048 | rsa3072 | rsa4096 => cases hfits

/-! ### The certificate -/

theorem signatureAlgorithm_element {alg : KeyAlg} {sigAlg : List UInt8}
    (h : signatureAlgorithm alg = .ok sigAlg) : ∃ content, sigAlg = derTlv 0x30 content := by
  cases alg with
  | rsa1024 | rsa2048 | rsa3072 | rsa4096 =>
      cases h
      exact ⟨[0x06, 0x09, 0x2A, 0x86, 0x48, 0x86, 0xF7, 0x0D, 0x01, 0x01, 0x0B, 0x05, 0x00], rfl⟩
  | eccP256 =>
      cases h
      exact ⟨[0x06, 0x08, 0x2A, 0x86, 0x48, 0xCE, 0x3D, 0x04, 0x03, 0x02], rfl⟩
  | eccP384 =>
      cases h
      exact ⟨[0x06, 0x08, 0x2A, 0x86, 0x48, 0xCE, 0x3D, 0x04, 0x03, 0x03], rfl⟩
  | eccP521 =>
      cases h
      exact ⟨[0x06, 0x08, 0x2A, 0x86, 0x48, 0xCE, 0x3D, 0x04, 0x03, 0x04], rfl⟩
  | ed25519 =>
      cases h
      exact ⟨[0x06, 0x03, 0x2B, 0x65, 0x70], rfl⟩
  | x25519 => cases h

theorem afterValidity_flatten {serial a b c : List UInt8} (more : List (List UInt8))
    (hserial : (derUint serial).length < 2 ^ 32) (ha : (derTlv 0x30 a).length < 2 ^ 32)
    (hb : (derTlv 0x30 b).length < 2 ^ 32) (hc : (derTlv 0x30 c).length < 2 ^ 32) :
    afterValidity (derUint serial :: derTlv 0x30 a :: derTlv 0x30 b :: derTlv 0x30 c ::
      more).flatten = .ok more.flatten := by
  have hlt := fun {tag value} (h : (derTlv tag value).length < 2 ^ 32) =>
    Nat.lt_trans (length_lt_derTlv tag value) h
  rw [derUint_eq] at hserial ⊢
  rw [afterValidity, List.flatten_cons, expectTag_derTlv (hlt hserial), Checks.ok_bind]
  dsimp only
  rw [List.flatten_cons, expectTag_derTlv (hlt ha), Checks.ok_bind]
  dsimp only
  rw [List.flatten_cons, expectTag_derTlv (hlt hb), Checks.ok_bind]
  dsimp only
  rw [List.flatten_cons, expectTag_derTlv (hlt hc), Checks.ok_bind]
  rfl

/-- The fields of a certificate that has a version. -/
theorem tbsFields_derSeq {version : List UInt8} {members more : List (List UInt8)}
    (h : (derSeq (derSeq (derTlv 0xA0 version :: members) :: more)).length < 2 ^ 32) :
    tbsFields (derSeq (derSeq (derTlv 0xA0 version :: members) :: more)) =
      .ok members.flatten := by
  have hcert := Nat.lt_trans (length_lt_derTlv _ _) h
  have htbs : (derSeq (derTlv 0xA0 version :: members)).length < 2 ^ 32 :=
    Nat.lt_trans (length_lt_derSeq List.mem_cons_self) h
  have hversion : version.length < 2 ^ 32 := Nat.lt_trans (length_lt_derTlv 0xA0 _)
    (Nat.lt_trans (length_lt_derSeq List.mem_cons_self) htbs)
  rw [tbsFields, derSeq, expectTag_alone hcert, Checks.ok_bind]
  dsimp only
  rw [List.flatten_cons, derSeq, expectTag_derTlv (Nat.lt_trans (length_lt_derTlv _ _) htbs),
    Checks.ok_bind]
  dsimp only
  rw [List.flatten_cons, readTlv_derTlv hversion, Checks.ok_bind]
  rfl

section Built

variable {alg : KeyAlg} {subject : SubjectName} {serial signature content tbs cert : List UInt8}
  {notBefore notAfter : Int} {keyUsage : Option KeyUsageExt}

/-- The fields of a certificate that was built. -/
theorem built_fields
    (htbs : tbsCertificate serial alg subject notBefore notAfter (derTlv 0x30 content) keyUsage =
      .ok tbs) (hcert : assemble tbs alg signature = .ok cert) (h : cert.length < 2 ^ 32) :
    ∃ rest, tbsFields cert >>= afterValidity = .ok (subject.toDer ++ (derTlv 0x30 content ++ rest))
      ∧ subject.toDer.length < 2 ^ 32 ∧ (derTlv 0x30 content).length < 2 ^ 32 := by
  unfold tbsCertificate at htbs
  split at htbs
  · cases htbs
  obtain ⟨sigAlg, hsigAlg, hmembers⟩ := Checks.bind_eq_ok.mp htbs
  obtain ⟨extensions, -, hdone⟩ := Checks.bind_eq_ok.mp hmembers
  obtain ⟨sigAlg', -, hcertEq⟩ := Checks.bind_eq_ok.mp hcert
  cases hcertEq
  cases hdone
  obtain ⟨sig, rfl⟩ := signatureAlgorithm_element hsigAlg
  have hmember : ∀ {member}, member ∈ [derTlv 0xA0 (derUint [0x02]), derUint serial,
      derTlv 0x30 sig, subject.toDer, derSeq [derTime notBefore, derTime notAfter],
      subject.toDer, derTlv 0x30 content] ++ extensions → member.length < 2 ^ 32 :=
    fun hmem => Nat.lt_trans (length_lt_derSeq hmem)
      (Nat.lt_trans (length_lt_derSeq List.mem_cons_self) h)
  refine ⟨extensions.flatten, ?_, hmember (by simp), hmember (by simp)⟩
  refine (congrArg (· >>= afterValidity) (tbsFields_derSeq h)).trans ?_
  exact afterValidity_flatten (subject.toDer :: derTlv 0x30 content :: extensions)
    (hmember (by simp)) (hmember (by simp)) (hmember (by simp [SubjectName.toDer, derSeq]))
    (hmember (by simp [derSeq]))

theorem certificateSpki_built
    (htbs : tbsCertificate serial alg subject notBefore notAfter (derTlv 0x30 content) keyUsage =
      .ok tbs) (hcert : assemble tbs alg signature = .ok cert) (h : cert.length < 2 ^ 32) :
    certificateSpki cert = .ok (derTlv 0x30 content) ∧ content.length < 2 ^ 32 ∧
      parseSubjectDn cert = .ok subject.asDn := by
  obtain ⟨rest, hfields, hsubject, hspki⟩ := built_fields htbs hcert h
  obtain ⟨fields, htbsFields, hvalidity⟩ := Checks.bind_eq_ok.mp hfields
  have hname := Nat.lt_trans (length_lt_derTlv _ _) hsubject
  have hcontent := Nat.lt_trans (length_lt_derTlv _ _) hspki
  have htake : (derTlv 0x30 content ++ rest).take
      ((derTlv 0x30 content ++ rest).length - rest.length) = derTlv 0x30 content := by
    rw [List.length_append, Nat.add_sub_cancel, List.take_left]
  refine ⟨?_, hcontent, ?_⟩
  · rw [certificateSpki, htbsFields, Checks.ok_bind, hvalidity, Checks.ok_bind,
      SubjectName.toDer, derSeq, expectTag_derTlv hname, Checks.ok_bind]
    dsimp only
    rw [expectTag_derTlv hcontent, Checks.ok_bind]
    exact congrArg Except.ok htake
  · rw [parseSubjectDn, htbsFields, Checks.ok_bind, hvalidity, Checks.ok_bind,
      SubjectName.toDer, derSeq, expectTag_derTlv hname, Checks.ok_bind]
    exact parseName_toDer hsubject

end Built

/-- A key that can sign gets its certificate. -/
theorem certificate_built {alg : KeyAlg} (subject : SubjectName)
    (serial signature spki : List UInt8) {notBefore notAfter : Int}
    {keyUsage : Option KeyUsageExt} (halg : alg ≠ .x25519) (hvalidity : notBefore < notAfter)
    (husage : ∀ ku, keyUsage = some ku → ku.usages.isValid = true) :
    ∃ tbs cert, tbsCertificate serial alg subject notBefore notAfter spki keyUsage = .ok tbs ∧
      assemble tbs alg signature = .ok cert := by
  obtain ⟨sigAlg, hsigAlg⟩ : ∃ sigAlg, signatureAlgorithm alg = .ok sigAlg := by
    cases alg <;> first | exact ⟨_, rfl⟩ | exact absurd rfl halg
  obtain ⟨extensions, hextensions⟩ : ∃ extensions, extensionsMember keyUsage = .ok extensions := by
    cases keyUsage with
    | none => exact ⟨[], rfl⟩
    | some ku =>
        have hder : ∃ der, ku.usages.extensionDer ku.critical = .ok der := by
          rw [KeyUsage.extensionDer, husage ku rfl]
          exact ⟨_, rfl⟩
        obtain ⟨der, hder⟩ := hder
        rw [extensionsMember, extensionsDer, hder]
        exact ⟨_, rfl⟩
  rw [tbsCertificate, if_neg (Int.not_le.mpr hvalidity), hsigAlg, Checks.ok_bind]
  dsimp only
  rw [hextensions, Checks.ok_bind]
  exact ⟨_, _, rfl, by rw [assemble, hsigAlg, Checks.ok_bind]; rfl⟩

/-- **The builder and the reader agree.** A key's `SubjectPublicKeyInfo` and a certificate built
around it read back, below `2^32` bytes: the key, its algorithm, and the subject. A certificate is
built for every subject that can be read, every key that can sign, every period that is not empty
and every valid key usage; and an exponent without a zero in front reads back as it was given. -/
theorem builder_and_reader_agree :
    (∀ (key : PublicKey) (alg : KeyAlg), key.Fits alg →
      ∃ spki, subjectPublicKeyInfo key alg = .ok spki ∧
        (spki.length < 2 ^ 32 → parseSubjectPublicKeyInfo spki = .ok (alg, key.asRead)) ∧
        ∀ text subject serial signature notBefore notAfter keyUsage,
          SubjectName.parse text = .ok subject →
          (alg ≠ .x25519 → notBefore < notAfter →
            (∀ ku, keyUsage = some ku → ku.usages.isValid = true) → ∃ tbs cert,
              tbsCertificate serial alg subject notBefore notAfter spki keyUsage = .ok tbs ∧
              assemble tbs alg signature = .ok cert) ∧
          ∀ tbs cert,
            tbsCertificate serial alg subject notBefore notAfter spki keyUsage = .ok tbs →
            assemble tbs alg signature = .ok cert → cert.length < 2 ^ 32 →
            parseCertificatePublicKey cert = .ok (alg, key.asRead) ∧
            parseKeyAlgorithm cert = .ok (some alg) ∧
            parseSubjectDn cert = .ok subject.asDn) ∧
    ∀ modulus exponent, exponent ≠ [] → exponent.head? ≠ some 0 →
      (PublicKey.rsa modulus exponent).asRead = .rsa modulus exponent := by
  constructor
  · intro key alg hfits
    obtain ⟨content, hspki, hreads⟩ := subjectPublicKeyInfo_reads hfits
    refine ⟨_, hspki, fun hsize => ?_, ?_⟩
    · have hcontent := Nat.lt_trans (length_lt_derTlv _ _) hsize
      rw [parseSubjectPublicKeyInfo, expectTag_alone hcontent, Checks.ok_bind]
      exact (hreads hcontent).1
    · intro text subject serial signature notBefore notAfter keyUsage _
      refine ⟨certificate_built subject serial signature _, fun tbs cert htbs hcert hsize => ?_⟩
      obtain ⟨hcertSpki, hcontent, hsubject⟩ := certificateSpki_built htbs hcert hsize
      obtain ⟨hkey, halgorithm⟩ := hreads hcontent
      refine ⟨?_, ?_, hsubject⟩
      · rw [parseCertificatePublicKey, hcertSpki, Checks.ok_bind, parseSubjectPublicKeyInfo,
          expectTag_alone hcontent, Checks.ok_bind]
        exact hkey
      · rw [parseKeyAlgorithm, hcertSpki, Checks.ok_bind, expectTag_alone hcontent,
          Checks.ok_bind]
        exact halgorithm
  · intro modulus exponent hne hhead
    rw [PublicKey.asRead, magnitude_of_head hne hhead]

/-! ### A small certificate -/

def SWISS : SubjectName := ⟨[(.country, "CH".toList)]⟩

def ED25519_SPKI : List UInt8 := eddsaSpki OID_ED25519 [0x01]

def SWISS_TBS : List UInt8 :=
  (tbsCertificate [0x05] .ed25519 SWISS 0 86400 ED25519_SPKI none).toOption.getD []

def SWISS_CERTIFICATE : List UInt8 := (assemble SWISS_TBS .ed25519 []).toOption.getD []

theorem builder_and_reader_agree_swiss :
    parseCertificatePublicKey SWISS_CERTIFICATE = .ok (.ed25519, .ecc [0x01]) ∧
      parseKeyAlgorithm SWISS_CERTIFICATE = .ok (some .ed25519) ∧
      parseSubjectDn SWISS_CERTIFICATE = .ok SWISS.asDn := by
  obtain ⟨spki, hspki, -, hcerts⟩ := builder_and_reader_agree.1 (.ecc [0x01]) .ed25519 rfl
  cases hspki
  exact (hcerts "C=CH".toList SWISS [0x05] [] 0 86400 none (by decide)).2 SWISS_TBS
    SWISS_CERTIFICATE rfl rfl (by decide)

/-! ### What does not read back -/

/-- An element of five length octets is refused. -/
theorem readTlv_oversized {value : List UInt8} (hge : 2 ^ 32 ≤ value.length)
    (hlt : value.length < 256 ^ 5) (tag : UInt8) :
    readTlv (derTlv tag value) = .error .lengthTooLarge := by
  have hle : (Bytes.minimal value.length).length ≤ 5 := Bytes.length_minimal_le hlt
  have hfive : (Bytes.minimal value.length).length = 5 := by
    refine Nat.le_antisymm hle (Nat.lt_of_not_le fun hfour => ?_)
    have hbound := Bytes.lt_of_length_minimal_le hfour
    omega
  rw [derTlv, derLen, if_neg (by omega), hfive]
  rfl

theorem length_derLen_le {len width : Nat} (h : len < 256 ^ width) :
    (derLen len).length ≤ width + 1 := by
  unfold derLen
  split
  · exact Nat.le_add_left 1 width
  · exact Nat.succ_le_succ (Bytes.length_minimal_le h)

/-- A certificate around a signature of `2^32` bytes. -/
def hugeCertificate (signature : List UInt8) : List UInt8 :=
  derSeq [SWISS_TBS, [0x30, 0x05, 0x06, 0x03, 0x2B, 0x65, 0x70], derBitstring signature]

theorem parse_hugeCertificate {signature : List UInt8} (h : signature.length = 2 ^ 32) :
    parseCertificatePublicKey (hugeCertificate signature) = .error .lengthTooLarge := by
  have htbs : SWISS_TBS.length < 256 := by decide
  have hbits : 2 ^ 32 ≤ (derBitstring signature).length ∧
      (derBitstring signature).length < 2 ^ 33 := by
    have hvalue : (0x00 :: signature).length = 2 ^ 32 + 1 := congrArg (· + 1) h
    have hlen : (derLen (0x00 :: signature).length).length ≤ 6 :=
      length_derLen_le (by rw [hvalue]; decide)
    rw [derBitstring, derTlv, List.length_cons, List.length_append]
    generalize (derLen (0x00 :: signature).length).length = octets at hlen ⊢
    omega
  have hsize : 2 ^ 32 ≤ [SWISS_TBS, [0x30, 0x05, 0x06, 0x03, 0x2B, 0x65, 0x70],
      derBitstring signature].flatten.length ∧ [SWISS_TBS, [0x30, 0x05, 0x06, 0x03, 0x2B, 0x65,
      0x70], derBitstring signature].flatten.length < 256 ^ 5 := by
    simp only [List.flatten_cons, List.flatten_nil, List.length_append, List.length_cons,
      List.length_nil]
    generalize SWISS_TBS.length = tbs at htbs ⊢
    generalize (derBitstring signature).length = bits at hbits ⊢
    omega
  rw [parseCertificatePublicKey, certificateSpki, tbsFields, hugeCertificate, derSeq,
    expectTag, readTlv_oversized hsize.1 hsize.2]
  rfl

/-- An RSA key whose exponent has a leading zero byte. -/
def PADDED_KEY : PublicKey := .rsa (0x81 :: List.replicate 127 0x00) [0x00, 0x03]

/-- **A padded exponent loses its padding, and nothing of four gigabytes is read.** -/
theorem padding_and_huge_certificates_are_lost :
    (PADDED_KEY.Fits .rsa1024 ∧ ∃ spki, subjectPublicKeyInfo PADDED_KEY .rsa1024 = .ok spki ∧
      parseSubjectPublicKeyInfo spki ≠ .ok (.rsa1024, PADDED_KEY)) ∧
    tbsCertificate [0x05] .ed25519 SWISS 0 86400 ED25519_SPKI none = .ok SWISS_TBS ∧
    assemble SWISS_TBS .ed25519 (List.replicate (2 ^ 32) 0x00) =
      .ok (hugeCertificate (List.replicate (2 ^ 32) 0x00)) ∧
    parseCertificatePublicKey (hugeCertificate (List.replicate (2 ^ 32) 0x00)) =
      .error .lengthTooLarge := by
  have hfits : PADDED_KEY.Fits .rsa1024 := by
    refine ⟨?_, fun h => absurd (Option.some.inj h) (by decide)⟩
    rw [List.length_cons, List.length_replicate]
    rfl
  refine ⟨⟨hfits, ?_⟩, rfl, ?_, parse_hugeCertificate List.length_replicate⟩
  · obtain ⟨content, hspki, hreads⟩ := subjectPublicKeyInfo_reads hfits
    refine ⟨_, hspki, ?_⟩
    have hsize : (derTlv 0x30 content).length < 2 ^ 32 := by
      rw [← Except.ok.inj hspki]
      decide +kernel
    have hcontent := Nat.lt_trans (length_lt_derTlv _ _) hsize
    rw [parseSubjectPublicKeyInfo, expectTag_alone hcontent, Checks.ok_bind]
    dsimp only
    rw [(hreads hcontent).1]
    exact nofun
  · generalize List.replicate (2 ^ 32) 0x00 = signature
    rfl

end Keyroost.Piv
