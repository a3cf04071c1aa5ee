import Keyroost.PgpKey.Packet

/-!
# One fingerprint for a key, on the card and in the file

The card's key (`keyroost-openpgp/src/lib.rs`) and the file's (`keyroost-pgpkey/src/keys.rs`) are
hashed over the same bytes, and keys that differ over different ones.

Both sides are compared with what the bytes tell: `Written` relates the fields of a packet to the
integers of a public key, and it is injective (`Written.inj`), so equal bytes mean equal keys,
times and algorithms. `Shows` relates a card's key to the file's, up to zeros in front and the
coding of a point, and `v4Hashed_shown` is the agreement. The one difference is a key agreement
with a hash and a cipher of its own in the file, which a card does not know;
`own_kdf_differs` is such a key.
-/

namespace Keyroost.PgpKey

open OpenPgp

/-! ### What a packet's body tells -/

def packetBody (created : UInt32) (algo : UInt8) (fields : List UInt8) : List UInt8 :=
  [0x04] ++ Bytes.be 4 created.toNat ++ [algo] ++ fields

theorem toNat_lt (n : UInt32) : n.toNat < 256 ^ 4 := n.toNat_lt

theorem packetBody_inj {created created' : UInt32} {algo algo' : UInt8}
    {fields fields' : List UInt8}
    (h : packetBody created algo fields = packetBody created' algo' fields') :
    created = created' ∧ algo = algo' ∧ fields = fields' := by
  obtain ⟨hhead, hfields⟩ := List.append_inj h (by
    simp only [List.length_append, Bytes.length_be, List.length_singleton])
  obtain ⟨hstart, halgo⟩ := List.append_inj' hhead rfl
  obtain ⟨-, htime⟩ := List.append_inj hstart rfl
  refine ⟨?_, List.singleton_inj.mp halgo, hfields⟩
  have hvalue := congrArg Bytes.ofBe htime
  rw [Bytes.ofBe_be (toNat_lt _), Bytes.ofBe_be (toNat_lt _)] at hvalue
  exact UInt32.toNat_inj.mp hvalue

theorem pushMpi_append_inj {a b s t : List UInt8} (ha : MpiFits a) (hb : MpiFits b)
    (h : pushMpi a ++ s = pushMpi b ++ t) : Bytes.ofBe a = Bytes.ofBe b ∧ s = t := by
  have hread := reads_pushMpi ha s
  rw [h, reads_pushMpi hb t] at hread
  obtain ⟨hstrip, hrest⟩ := Prod.mk.inj (Except.ok.inj hread)
  exact ⟨(Bytes.strip_eq_strip.mp hstrip).symm, hrest.symm⟩

/-- The bytes after the count are the integer's, whatever the count. -/
theorem pushMpi_inj {a b : List UInt8} (h : pushMpi a = pushMpi b) :
    Bytes.ofBe a = Bytes.ofBe b := by
  obtain ⟨-, hstrip⟩ := List.append_inj h (by rw [Bytes.length_be, Bytes.length_be])
  exact Bytes.strip_eq_strip.mp hstrip

/-- A curve, a point and what follows the point. -/
def eccFields (curve : Curve) (packet tail : List UInt8) : List UInt8 :=
  [curve.oid.length.toUInt8] ++ curve.oid ++ pushMpi packet ++ tail

theorem eccFields_inj {curve curve' : Curve} {packet packet' tail tail' : List UInt8}
    (htail : tail.length = tail'.length)
    (h : eccFields curve packet tail = eccFields curve' packet' tail') :
    curve = curve' ∧ Bytes.ofBe packet = Bytes.ofBe packet' := by
  obtain ⟨hbody, -⟩ := List.append_inj' h htail
  rw [List.append_assoc, List.append_assoc] at hbody
  obtain ⟨hlen, hrest⟩ := List.append_inj hbody rfl
  have hoidLen : curve.oid.length = curve'.oid.length := by
    have hnat := congrArg UInt8.toNat (List.singleton_inj.mp hlen)
    rwa [Nat.toUInt8, UInt8.toNat_ofNat_of_lt' curve.length_oid_lt,
      UInt8.toNat_ofNat_of_lt' curve'.length_oid_lt] at hnat
  obtain ⟨hoid, hpoint⟩ := List.append_inj hrest hoidLen
  exact ⟨Curve.oid_injective hoid, pushMpi_inj hpoint⟩

/-! ### The public key as integers -/

inductive PublicValue where
  | rsa (n e : Nat)
  | ecc (kind : EccKind) (curve : Curve) (point : Nat)
deriving DecidableEq

def Material.value : Material → PublicValue
  | .rsa n e .. => .rsa (Bytes.ofBe n) (Bytes.ofBe e)
  | .ecdsa curve _ point => .ecc .ecdsa curve (Bytes.ofBe (filePoint curve point))
  | .ecdh curve _ point _ => .ecc .ecdh curve (Bytes.ofBe (filePoint curve point))
  | .edDsa _ point => .ecc .edDsa .ed25519 (Bytes.ofBe (filePoint .ed25519 point.val))

def cardValue : PublicKey → AlgorithmAttributes → Option PublicValue
  | .rsa modulus exponent, .rsa _ => some (.rsa (Bytes.ofBe modulus) (Bytes.ofBe exponent))
  | .ecc point, .ecc kind curve _ =>
      some (.ecc kind curve (Bytes.ofBe (packetPoint curve point)))
  | _, _ => none

/-- An RSA modulus of at most 65535 bits. -/
def Material.ModulusFits : Material → Prop
  | .rsa n .. => MpiFits n
  | _ => True

def KeyFits : PublicKey → Prop
  | .rsa modulus _ => MpiFits modulus
  | .ecc _ => True

/-- The fields that a key with this value is written as, under its algorithm byte. Numbers are
compared as numbers, so that leading zeros make no difference. -/
inductive Written : UInt8 → List UInt8 → PublicValue → Prop
  | rsa (n e : List UInt8) : MpiFits n →
      Written ALGO_RSA (pushMpi n ++ pushMpi e) (.rsa (Bytes.ofBe n) (Bytes.ofBe e))
  | ecc (kind : EccKind) (curve : Curve) (packet tail : List UInt8) :
      tail.length = (if kind = .ecdh then 4 else 0) →
      Written kind.id (eccFields curve packet tail) (.ecc kind curve (Bytes.ofBe packet))

theorem id_ne_rsa (kind : EccKind) : kind.id ≠ ALGO_RSA := by
  cases kind <;> exact nofun

theorem Written.inj {algo algo' : UInt8} {fields fields' : List UInt8} {v v' : PublicValue}
    (h : Written algo fields v) (h' : Written algo' fields' v') (halgo : algo = algo')
    (hfields : fields = fields') : v = v' := by
  cases h with
  | rsa n e hn =>
      cases h' with
      | rsa n' e' hn' =>
          obtain ⟨hmodulus, hexponent⟩ := pushMpi_append_inj hn hn' hfields
          rw [hmodulus, pushMpi_inj hexponent]
      | ecc kind => exact absurd halgo.symm (id_ne_rsa kind)
  | ecc kind curve packet tail htail =>
      cases h' with
      | rsa => exact absurd halgo (id_ne_rsa kind)
      | ecc kind' curve' packet' tail' htail' =>
          obtain rfl := EccKind.id_injective halgo
          obtain ⟨hcurve, hpoint⟩ := eccFields_inj (htail.trans htail'.symm) hfields
          rw [hcurve, hpoint]

/-! ### The file's keys -/

theorem envelope_inj {len len' : Nat} {body body' : List UInt8}
    (h : [0x99] ++ Bytes.be 2 len ++ body = [0x99] ++ Bytes.be 2 len' ++ body') :
    body = body' := by
  refine (List.append_inj h ?_).2
  rw [List.length_append, List.length_append, Bytes.length_be, Bytes.length_be]

theorem written_material {m : Material} (hfits : m.ModulusFits) :
    Written m.algoId m.publicFields m.value := by
  cases m with
  | rsa n e => exact .rsa n e hfits
  | ecdsa curve d point =>
      have hwritten := Written.ecc .ecdsa curve (filePoint curve point) [] rfl
      rwa [eccFields, List.append_nil] at hwritten
  | ecdh curve d point kdf => exact .ecc .ecdh curve (filePoint curve point) kdf.bytes rfl
  | edDsa seed point =>
      have hwritten := Written.ecc .edDsa .ed25519 (filePoint .ed25519 point.val) [] rfl
      rwa [eccFields, List.append_nil] at hwritten

theorem hashed_separates {k k' : KeyPart} (hfits : k.material.ModulusFits)
    (hfits' : k'.material.ModulusFits) (h : k.hashed = k'.hashed) :
    k.created = k'.created ∧ k.material.value = k'.material.value := by
  obtain ⟨hcreated, halgo, hfields⟩ := packetBody_inj (envelope_inj h)
  exact ⟨hcreated, (written_material hfits).inj (written_material hfits') halgo hfields⟩

/-! ### The card's keys -/

theorem envelope_eq (body : List UInt8) : v4FingerprintEnvelope body =
    [0x99] ++ Bytes.be 2 (body.length % 2 ^ 16) ++ body := by
  rw [Bytes.be_two_toUInt16]
  rfl

theorem rsaV4Hashed_eq (modulus exponent : List UInt8) (created : UInt32) :
    rsaV4Hashed modulus exponent created = v4FingerprintEnvelope
      (packetBody created ALGO_RSA (pushMpi modulus ++ pushMpi exponent)) := by
  rw [rsaV4Hashed, mpi_eq_pushMpi, mpi_eq_pushMpi, packetBody, List.append_assoc]
  rfl

theorem eccV4Hashed_eq (kind : EccKind) (curve : Curve) (point : List UInt8)
    (created : UInt32) : eccV4Hashed kind curve point created = v4FingerprintEnvelope
      (packetBody created kind.id (eccFields curve (packetPoint curve point)
        (if kind = .ecdh then ecdhKdfParams curve else []))) := by
  rw [eccV4Hashed, mpi_eq_pushMpi, packetBody, eccFields]
  simp only [List.append_assoc]

theorem length_ecdhKdfParams (curve : Curve) : (ecdhKdfParams curve).length = 4 := by
  cases curve <;> rfl

/-- What a card's key is hashed as. -/
theorem written_card {key : PublicKey} {attrs : AlgorithmAttributes} {created : UInt32}
    {bytes : List UInt8} (hfits : KeyFits key) (h : v4Hashed key attrs created = .ok bytes) :
    ∃ algo fields value, bytes = v4FingerprintEnvelope (packetBody created algo fields) ∧
      cardValue key attrs = some value ∧ Written algo fields value := by
  cases key with
  | rsa modulus exponent =>
      cases attrs with
      | rsa =>
          cases h
          exact ⟨_, _, _, rsaV4Hashed_eq modulus exponent created, rfl, .rsa _ _ hfits⟩
      | ecc => cases h
  | ecc point =>
      cases attrs with
      | rsa => cases h
      | ecc kind curve =>
          cases h
          refine ⟨_, _, _, eccV4Hashed_eq kind curve point created, rfl, .ecc _ _ _ _ ?_⟩
          split
          · exact length_ecdhKdfParams curve
          · rfl

theorem v4Hashed_separates {key key' : PublicKey} {attrs attrs' : AlgorithmAttributes}
    {created created' : UInt32} {bytes : List UInt8} (hfits : KeyFits key) (hfits' : KeyFits key')
    (h : v4Hashed key attrs created = .ok bytes) (h' : v4Hashed key' attrs' created' = .ok bytes) :
    created = created' ∧ cardValue key attrs = cardValue key' attrs' := by
  obtain ⟨algo, fields, value, rfl, hvalue, hwritten⟩ := written_card hfits h
  obtain ⟨algo', fields', value', hbytes, hvalue', hwritten'⟩ := written_card hfits' h'
  rw [envelope_eq, envelope_eq] at hbytes
  obtain ⟨hcreated, halgo, hfields⟩ := packetBody_inj (envelope_inj hbytes)
  exact ⟨hcreated, by rw [hvalue, hvalue', hwritten.inj hwritten' halgo hfields]⟩

/-! ### The same key on both sides -/

/-- The bare point of a 25519 curve or OpenPGP's form of it; on the other curves the point. -/
def PointShown (curve : Curve) (got point : List UInt8) : Prop :=
  if curve.is25519 then point.length = 32 ∧ (got = point ∨ got = 0x40 :: point) else got = point

/-- A card shows the public part of a key under attributes for it. Zeros in front of an RSA
integer do not count. -/
inductive Shows : PublicKey → AlgorithmAttributes → Material → Prop
  | rsa (modulus exponent n e d p q uPgp uCard dp dq : List UInt8) (attributes : RsaAttributes) :
      Bytes.ofBe modulus = Bytes.ofBe n → Bytes.ofBe exponent = Bytes.ofBe e →
      Shows (.rsa modulus exponent) (.rsa attributes) (.rsa n e d p q uPgp uCard dp dq)
  | ecdsa (got d point : List UInt8) (curve : Curve) (withPublic : Bool) :
      PointShown curve got point →
      Shows (.ecc got) (.ecc .ecdsa curve withPublic) (.ecdsa curve d point)
  | ecdh (got d point : List UInt8) (curve : Curve) (kdf : Kdf) (withPublic : Bool) :
      PointShown curve got point →
      Shows (.ecc got) (.ecc .ecdh curve withPublic) (.ecdh curve d point kdf)
  | edDsa (got : List UInt8) (seed point : Bytes32) (withPublic : Bool) :
      PointShown .ed25519 got point.val →
      Shows (.ecc got) (.ecc .edDsa .ed25519 withPublic) (.edDsa seed point)

/-- A key agreement under the hash and the cipher that go with its curve. -/
def Material.StandardKdf : Material → Prop
  | .ecdh curve _ _ kdf => kdf.bytes = ecdhKdfParams curve
  | _ => True

theorem packetPoint_shown {curve : Curve} {got point : List UInt8}
    (h : PointShown curve got point) : packetPoint curve got = filePoint curve point := by
  rw [PointShown] at h
  rw [packetPoint, filePoint]
  split at h
  · next hcurve =>
      obtain ⟨hlen, rfl | rfl⟩ := h
      · simp only [hcurve, hlen, decide_true, Bool.and_self, if_true]
      · have hlong : ¬ (0x40 :: point : List UInt8).length = 32 := by
          rw [List.length_cons, hlen]
          decide
        simp only [hcurve, hlong, decide_false, Bool.and_false, Bool.false_eq_true, if_false,
          if_true]
  · next hcurve =>
      simp only [Bool.not_eq_true] at hcurve
      simp only [h, hcurve, Bool.false_and, Bool.false_eq_true, if_false]

theorem pushMpi_congr {a b : List UInt8} (h : Bytes.ofBe a = Bytes.ofBe b) :
    pushMpi a = pushMpi b := by
  rw [pushMpi, pushMpi, Bytes.strip_eq_strip.mpr h]

/-- **The card's key and the file's are hashed over the same bytes.** -/
theorem v4Hashed_shown {key : PublicKey} {attrs : AlgorithmAttributes} {k : KeyPart}
    (hshows : Shows key attrs k.material) (hkdf : k.material.StandardKdf) :
    v4Hashed key attrs k.created = .ok k.hashed := by
  have hhashed : k.hashed = v4FingerprintEnvelope
      (packetBody k.created k.material.algoId k.material.publicFields) := (envelope_eq _).symm
  obtain ⟨material, created⟩ := k
  cases hshows with
  | rsa modulus exponent n e _ _ _ _ _ _ _ _ hn he =>
      rw [hhashed, v4Hashed, rsaV4Hashed_eq, pushMpi_congr hn, pushMpi_congr he]
      rfl
  | ecdsa got d point curve withPublic hpoint =>
      rw [hhashed, v4Hashed, eccV4Hashed_eq, packetPoint_shown hpoint, if_neg nofun, eccFields,
        List.append_nil]
      rfl
  | ecdh got d point curve kdf withPublic hpoint =>
      have hparams : kdf.bytes = ecdhKdfParams curve := hkdf
      rw [hhashed, v4Hashed, eccV4Hashed_eq, packetPoint_shown hpoint, if_pos rfl, ← hparams]
      rfl
  | edDsa got seed point withPublic hpoint =>
      rw [hhashed, v4Hashed, eccV4Hashed_eq, packetPoint_shown hpoint, if_neg nofun, eccFields,
        List.append_nil]
      rfl

/-- **One fingerprint for a key, and one key for what is hashed.** In each of the three roles,
given by the algorithm that the material is of, the card's key and the file's have the same
fingerprint, a key agreement's if it has the hash and the cipher of its curve; and what is
hashed, of a file's key or of a card's, tells the creation time, the algorithm, the curve and
the integers. -/
theorem fingerprints_agree :
    (∀ (sha1 : List UInt8 → List UInt8) (key : PublicKey) (attrs : AlgorithmAttributes)
      (k : KeyPart), Shows key attrs k.material → k.material.StandardKdf →
        v4Fingerprint sha1 key attrs k.created = .ok (k.fingerprint sha1)) ∧
    (∀ k k' : KeyPart, k.material.ModulusFits → k'.material.ModulusFits → k.hashed = k'.hashed →
      k.created = k'.created ∧ k.material.value = k'.material.value) ∧
    ∀ (key key' : PublicKey) (attrs attrs' : AlgorithmAttributes) (created created' : UInt32)
      (bytes : List UInt8), KeyFits key → KeyFits key' →
        v4Hashed key attrs created = .ok bytes → v4Hashed key' attrs' created' = .ok bytes →
          created = created' ∧ cardValue key attrs = cardValue key' attrs' := by
  refine ⟨fun sha1 key attrs k hshows hkdf => ?_, fun k k' => hashed_separates,
    fun key key' attrs attrs' created created' bytes => v4Hashed_separates⟩
  rw [v4Fingerprint, v4Hashed_shown hshows hkdf, KeyPart.fingerprint]
  rfl

/-! ### A key agreement with a cipher of its own -/

def samplePoint : List UInt8 := 0x04 :: List.replicate 96 0x01

/-- A P-384 key whose file names SHA-384 with AES-256. -/
def ownKdfPart : KeyPart :=
  { material := .ecdh .nistP384 (List.replicate 48 0x01) samplePoint ⟨0x09, 0x09⟩, created := 0 }

/-- The card has no place for the cipher, and the file's is hashed. -/
theorem own_kdf_differs :
    ¬ ∀ (sha1 : List UInt8 → List UInt8) (key : PublicKey) (attrs : AlgorithmAttributes)
      (k : KeyPart), Shows key attrs k.material →
        v4Fingerprint sha1 key attrs k.created = .ok (k.fingerprint sha1) := by
  intro h
  have hsame := h id (.ecc samplePoint) (.ecc .ecdh .nistP384 false) ownKdfPart
    (.ecdh _ _ _ _ _ _ rfl)
  revert hsame
  decide +kernel

def standardKdfPart : KeyPart :=
  { material := .ecdh .nistP384 (List.replicate 48 0x01) samplePoint ⟨0x09, 0x08⟩, created := 0 }

theorem standard_kdf_agrees :
    v4Fingerprint id (.ecc samplePoint) (.ecc .ecdh .nistP384 false) 0 =
        .ok (standardKdfPart.fingerprint id) ∧
      standardKdfPart.hashed ≠ { standardKdfPart with created := 1 }.hashed ∧
      eccV4Hashed .ecdh .nistP384 samplePoint 0 ≠ eccV4Hashed .ecdh .secp256k1 samplePoint 0 := by
  obtain ⟨hagree, hfile, hcard⟩ := fingerprints_agree
  refine ⟨hagree id _ _ standardKdfPart (.ecdh _ _ _ _ _ _ rfl) rfl, fun h => ?_, fun h => ?_⟩
  · cases (hfile standardKdfPart { standardKdfPart with created := 1 } trivial trivial h).1
  · cases (hcard (.ecc samplePoint) (.ecc samplePoint) (.ecc .ecdh .nistP384 false)
      (.ecc .ecdh .secp256k1 false) 0 0 _ trivial trivial rfl (congrArg Except.ok h.symm)).2

end Keyroost.PgpKey
