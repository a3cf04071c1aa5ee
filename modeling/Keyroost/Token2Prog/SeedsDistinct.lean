import Keyroost.Proto.Commands

/-!
# The seed a token can read from its command

The command of `keyroost-token2prog/src/commands.rs` that gives a single-profile token its seed, and
what a token can make of it. Decrypting a command gives the seed and its padding. A seed that fills
its blocks goes without padding, so one that ends as padding ends is taken for a shorter one.

The command is built as in `Commands`, under a key that is given. `seedCommand_injective` says that
the command determines what was encrypted, since the cipher can be undone, and `pads_paddedSeed`
puts the padding under `Pads` of the library, which tells when two padded seeds are the same.
`seeds_recovered` is the result, and `marked_seed_same_command` two seeds with one command.
-/

/-! ### The seed of a single-profile token -/

namespace Keyroost.Token2Prog

open Proto

def DEVICE_SM4_KEY : Bytes16 :=
  ⟨[0x8A, 0xD2, 0x06, 0x88, 0x3C, 0xA3, 0x69, 0x48, 0x2A, 0xB2, 0x71, 0x82, 0xB6, 0xE8, 0x32,
    0x24], rfl⟩

/-- A length that is not of 1 to 63 bytes. -/
inductive SeedError where
  | length (n : Nat)
deriving DecidableEq, Repr

/-- A seed of 32 bytes gets a whole block of padding, the others what they need. -/
def paddedSeed (seed : List UInt8) : List UInt8 :=
  if seed.length = 32 then seed ++ [0x80] ++ List.replicate 15 0x00
  else padIso7816Minimal seed

def setSeed (seed : List UInt8) : Except SeedError Command :=
  if seed = [] ∨ 63 < seed.length then .error (.length seed.length)
  else .ok (seedCommand DEVICE_SM4_KEY 0x00 (paddedSeed seed))

end Keyroost.Token2Prog

/-! ### The seed a token can read from its command -/

namespace Keyroost.Token2Prog

open Proto

/-! ### What a token reads -/

/-- The encrypted part: the data without the MAC's four bytes. -/
def encrypted (apdu : List UInt8) : List UInt8 :=
  (apdu.drop 5).take ((apdu.getD 4 0).toNat - 4)

/-- A command carries a seed, padded: what its encrypted part decrypts to, and what its
lengths and its MAC are of. -/
structure Carries (key : Bytes16) (profile : UInt8) (seed : List UInt8)
    (p : List UInt8 → List UInt8) (c : Command) : Prop where
  decrypts : (Sm4.new key).decryptEcb (encrypted c.apdu) = p seed
  padded : p seed = seed ∨ ∃ zeros < 16, p seed = Padding.pad 0x80 0x00 zeros seed
  bytes : c.apdu = [CLA_SECURE, 0xC5, 0x01, profile, ((encrypted c.apdu).length + 4).toUInt8] ++
    encrypted c.apdu ++ mac key
      [CLA_PLAIN, 0xC5, 0x01, profile, (encrypted c.apdu).length.toUInt8] (encrypted c.apdu)
  lengthByte : ((encrypted c.apdu).length + 4).toUInt8.toNat = (encrypted c.apdu).length + 4
  macByte : (encrypted c.apdu).length.toUInt8.toNat = (encrypted c.apdu).length
  macLen : c.apdu.length = 5 + (encrypted c.apdu).length + 4

/-! ### Lengths -/

theorem dvd_length_padIso7816Minimal (data : List UInt8) :
    16 ∣ (padIso7816Minimal data).length := by
  unfold padIso7816Minimal
  split
  · next h => exact Nat.dvd_of_mod_eq_zero h
  · rw [Padding.length_pad, zerosTo16]
    omega

theorem length_padIso7816Minimal_le (data : List UInt8) :
    data.length ≤ (padIso7816Minimal data).length ∧
      (padIso7816Minimal data).length ≤ data.length + 15 := by
  unfold padIso7816Minimal
  split
  · exact ⟨Nat.le_refl _, Nat.le_add_right _ _⟩
  · rw [Padding.length_pad, zerosTo16]
    omega

theorem padIso7816Minimal_cases (data : List UInt8) :
    padIso7816Minimal data = data ∨
      ∃ zeros < 16, padIso7816Minimal data = Padding.pad 0x80 0x00 zeros data := by
  unfold padIso7816Minimal
  split
  · exact .inl rfl
  · exact .inr ⟨_, Nat.mod_lt _ (by decide), rfl⟩

theorem paddedSeed_cases (seed : List UInt8) :
    paddedSeed seed = seed ∨
      ∃ zeros < 16, paddedSeed seed = Padding.pad 0x80 0x00 zeros seed := by
  unfold paddedSeed
  split
  · refine .inr ⟨15, by decide, ?_⟩
    rw [List.append_assoc]
    rfl
  · exact padIso7816Minimal_cases seed

theorem dvd_length_paddedSeed (seed : List UInt8) : 16 ∣ (paddedSeed seed).length := by
  unfold paddedSeed
  split
  · next h =>
      rw [List.length_append, List.length_append, h, List.length_replicate]
      exact ⟨3, rfl⟩
  · exact dvd_length_padIso7816Minimal seed

theorem length_padded_le {seed padded : List UInt8} (hseed : seed.length ≤ 63)
    (h : padded = seed ∨ ∃ zeros < 16, padded = Padding.pad 0x80 0x00 zeros seed) :
    padded.length ≤ 79 := by
  rcases h with rfl | ⟨zeros, hzeros, rfl⟩
  · omega
  · rw [Padding.length_pad]
    omega

theorem length_encryptCbcFrom (cipher : Sm4) (n : Nat) (prev data : List UInt8) :
    (cipher.encryptCbcFrom n prev data).length = 16 * n := by
  induction n generalizing prev data with
  | zero => rfl
  | succ n ih =>
      rw [Sm4.encryptCbcFrom, List.length_append, Sm4.length_encryptBlock, ih]
      omega

theorem length_mac (key : Bytes16) {header : List UInt8} (hheader : header.length = 5)
    (payload : List UInt8) : (mac key header payload).length = 4 := by
  have hlow := (length_padIso7816Minimal_le (header ++ payload)).1
  rw [List.length_append, hheader] at hlow
  have hdvd := dvd_length_padIso7816Minimal (header ++ payload)
  rw [mac, List.length_take, List.length_drop, Sm4.encryptCbc, length_encryptCbcFrom]
  omega

/-! ### A command of a padded seed -/

theorem toNat_toUInt8 {n : Nat} (h : n < 256) : n.toUInt8.toNat = n := by
  rw [Nat.toUInt8, UInt8.toNat_ofNat', Nat.mod_eq_of_lt h]

theorem seedCommand_apdu (key : Bytes16) (profile : UInt8) (padded : List UInt8) :
    (seedCommand key profile padded).apdu =
      [CLA_SECURE, 0xC5, 0x01, profile, (((Sm4.new key).encryptEcb padded).length + 4).toUInt8] ++
        (Sm4.new key).encryptEcb padded ++
          mac key [CLA_PLAIN, 0xC5, 0x01, profile,
            ((Sm4.new key).encryptEcb padded).length.toUInt8] ((Sm4.new key).encryptEcb padded) := by
  rw [seedCommand]
  simp only [buildApdu, List.length_append, length_mac key (show List.length
    [CLA_PLAIN, 0xC5, 0x01, profile, ((Sm4.new key).encryptEcb padded).length.toUInt8] = 5 from
      rfl), List.append_assoc]

theorem encrypted_seedCommand (key : Bytes16) (profile : UInt8) {padded : List UInt8}
    (hdvd : 16 ∣ padded.length) (hlen : padded.length ≤ 79) :
    encrypted (seedCommand key profile padded).apdu = (Sm4.new key).encryptEcb padded := by
  have henc := Sm4.length_encryptEcb (Sm4.new key) hdvd
  rw [seedCommand_apdu]
  generalize hmac : mac key _ _ = tag
  rw [List.append_assoc]
  show ((Sm4.new key).encryptEcb padded ++ tag).take
    ((((Sm4.new key).encryptEcb padded).length + 4).toUInt8.toNat - 4) = _
  rw [toNat_toUInt8 (by omega), Nat.add_sub_cancel, List.take_left]

theorem carries_seedCommand (key : Bytes16) (profile : UInt8) {seed : List UInt8}
    {p : List UInt8 → List UInt8} (hseed : seed.length ≤ 63) (hdvd : 16 ∣ (p seed).length)
    (hp : p seed = seed ∨ ∃ zeros < 16, p seed = Padding.pad 0x80 0x00 zeros seed) :
    Carries key profile seed p (seedCommand key profile (p seed)) := by
  have hlen := length_padded_le hseed hp
  have henc := Sm4.length_encryptEcb (Sm4.new key) hdvd
  have hpart := encrypted_seedCommand key profile hdvd hlen
  have hbytes := seedCommand_apdu key profile (p seed)
  refine ⟨?_, hp, ?_, ?_, ?_, ?_⟩
  · rw [hpart, Sm4.decryptEcb_encryptEcb _ hdvd]
  · rw [hpart, hbytes]
  · exact toNat_toUInt8 (by rw [hpart]; omega)
  · exact toNat_toUInt8 (by rw [hpart]; omega)
  · rw [hpart, hbytes, List.length_append, List.length_append, length_mac key rfl]
    rfl

theorem seedCommand_injective (key : Bytes16) (profile : UInt8) {a b : List UInt8}
    (ha : 16 ∣ a.length) (hb : 16 ∣ b.length) (halen : a.length ≤ 79) (hblen : b.length ≤ 79)
    (h : seedCommand key profile a = seedCommand key profile b) : a = b := by
  have hpart := congrArg (fun c => (Sm4.new key).decryptEcb (encrypted c.apdu)) h
  simp only [encrypted_seedCommand key profile ha halen, encrypted_seedCommand key profile hb hblen,
    Sm4.decryptEcb_encryptEcb _ ha, Sm4.decryptEcb_encryptEcb _ hb] at hpart
  exact hpart

/-! ### Seeds -/

/-- A seed of 1 to 63 bytes. -/
abbrev Seed : Type := { bytes : List UInt8 // bytes ≠ [] ∧ bytes.length ≤ 63 }

theorem proto_setSeed_eq (key : Bytes16) (profile : UInt8) (seed : Seed) :
    Proto.setSeed key profile seed.val =
      some (seedCommand key profile (padIso7816Minimal seed.val)) := if_pos seed.property

theorem setSeed_eq (seed : Seed) :
    setSeed seed.val = .ok (seedCommand DEVICE_SM4_KEY 0x00 (paddedSeed seed.val)) := by
  refine if_neg ?_
  rintro (hnil | hlong)
  · exact seed.property.1 hnil
  · exact absurd seed.property.2 (Nat.not_le.mpr hlong)

theorem pads_padIso7816Minimal : Padding.Pads 0x80 0x00 padIso7816Minimal := by
  intro data
  rcases padIso7816Minimal_cases data with h | ⟨zeros, -, h⟩
  · exact .inl h
  · exact .inr ⟨zeros, h⟩

theorem pads_paddedSeed : Padding.Pads 0x80 0x00 paddedSeed := by
  intro seed
  rcases paddedSeed_cases seed with h | ⟨zeros, -, h⟩
  · exact .inl h
  · exact .inr ⟨zeros, h⟩

theorem seedCommand_eq_iff (key : Bytes16) (profile : UInt8) {p : List UInt8 → List UInt8}
    (hdvd : ∀ seed, 16 ∣ (p seed).length)
    (hp : ∀ seed, p seed = seed ∨ ∃ zeros < 16, p seed = Padding.pad 0x80 0x00 zeros seed)
    (a b : Seed) :
    seedCommand key profile (p a.val) = seedCommand key profile (p b.val) ↔ p a.val = p b.val :=
  ⟨seedCommand_injective key profile (hdvd _) (hdvd _)
      (length_padded_le a.property.2 (hp _)) (length_padded_le b.property.2 (hp _)),
    congrArg (seedCommand key profile)⟩

/-- **The seed that was given**: every command decrypts to its seed and padding, and two seeds
build one command only where one, without padding of its own, is the other's padded form. This is
proved for the profiles of a Molto2 under any key, and for the single-profile token. -/
theorem seeds_recovered (key : Bytes16) (profile : UInt8) :
    (∀ seed : Seed, ∃ c, Proto.setSeed key profile seed.val = some c ∧
      Carries key profile seed.val padIso7816Minimal c) ∧
    (∀ a b : Seed, Proto.setSeed key profile a.val = Proto.setSeed key profile b.val ↔
      a = b ∨ Padding.Confused padIso7816Minimal a.val b.val ∨
        Padding.Confused padIso7816Minimal b.val a.val) ∧
    (∀ seed : Seed, ∃ c, setSeed seed.val = .ok c ∧
      Carries DEVICE_SM4_KEY 0x00 seed.val paddedSeed c) ∧
    ∀ a b : Seed, setSeed a.val = setSeed b.val ↔
      a = b ∨ Padding.Confused paddedSeed a.val b.val ∨
        Padding.Confused paddedSeed b.val a.val := by
  have hmark : (0x80 : UInt8) ≠ 0x00 := by decide
  refine ⟨fun seed => ?_, fun a b => ?_, fun seed => ?_, fun a b => ?_⟩
  · exact ⟨_, proto_setSeed_eq key profile seed, carries_seedCommand key profile
      seed.property.2 (dvd_length_padIso7816Minimal _) (padIso7816Minimal_cases _)⟩
  · rw [proto_setSeed_eq, proto_setSeed_eq, Option.some.injEq, seedCommand_eq_iff key profile
      dvd_length_padIso7816Minimal padIso7816Minimal_cases, Subtype.ext_iff]
    exact pads_padIso7816Minimal.eq_iff hmark a.val b.val
  · exact ⟨_, setSeed_eq seed, carries_seedCommand DEVICE_SM4_KEY 0x00
      seed.property.2 (dvd_length_paddedSeed _) (paddedSeed_cases _)⟩
  · rw [setSeed_eq, setSeed_eq, Except.ok.injEq, seedCommand_eq_iff DEVICE_SM4_KEY 0x00
      dvd_length_paddedSeed paddedSeed_cases, Subtype.ext_iff]
    exact pads_paddedSeed.eq_iff hmark a.val b.val

/-- Fifteen bytes, and the same with the mark behind them, build one command. -/
theorem marked_seed_same_command :
    List.replicate 15 0x01 ≠ List.replicate 15 0x01 ++ [0x80] ∧
    Proto.setSeed DEVICE_SM4_KEY 0x00 (List.replicate 15 0x01) ≠ none ∧
    Proto.setSeed DEVICE_SM4_KEY 0x00 (List.replicate 15 0x01) =
      Proto.setSeed DEVICE_SM4_KEY 0x00 (List.replicate 15 0x01 ++ [0x80]) ∧
    setSeed (List.replicate 15 0x01) = setSeed (List.replicate 15 0x01 ++ [0x80]) := by
  have hfifteen := proto_setSeed_eq DEVICE_SM4_KEY 0x00 ⟨List.replicate 15 0x01, by decide⟩
  have hsixteen := proto_setSeed_eq DEVICE_SM4_KEY 0x00
    ⟨List.replicate 15 0x01 ++ [0x80], by decide⟩
  have htoken := setSeed_eq ⟨List.replicate 15 0x01, by decide⟩
  have htoken' := setSeed_eq ⟨List.replicate 15 0x01 ++ [0x80], by decide⟩
  have hproto : padIso7816Minimal (List.replicate 15 0x01) =
      padIso7816Minimal (List.replicate 15 0x01 ++ [0x80]) := by decide
  have hpadded : paddedSeed (List.replicate 15 0x01) =
      paddedSeed (List.replicate 15 0x01 ++ [0x80]) := by decide
  simp only [hproto] at hfifteen hsixteen
  simp only [hpadded] at htoken htoken'
  refine ⟨by decide, ?_, hfifteen.trans hsixteen.symm, htoken.trans htoken'.symm⟩
  rw [hfifteen]
  exact Option.some_ne_none _

end Keyroost.Token2Prog
