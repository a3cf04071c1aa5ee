import Mathlib.Algebra.Order.Group.Nat
import Mathlib.Logic.Function.Iterate
import Keyroost.Library.Cycle
import Keyroost.Library.LeadingZeros
import Keyroost.P12.Kdf
import Keyroost.Piv.LongApdu
import Keyroost.Proto.Sha

/-!
# The key derivation of PKCS#12

The loop of `keyroost-p12/src/kdf.rs` that derives a key, and the derivation of RFC 7292 B.2 in
terms of the numbers that the blocks of its input stand for.

The source adds a block into another byte by byte, from the right and with a carry that is dropped
at the left end; the definition adds numbers modulo a power of two. `addBlock_eq` is the step
between them, an induction on the bytes. `rounds_eq` compares the blocks of the key one by one, and
`pkcs12Kdf_eq` is the result for every hash and every length asked for.
-/

namespace Keyroost.P12

/-- The two hashes as given functions. -/
structure Digests where
  digest : Hash → List UInt8 → List UInt8
  length_digest : ∀ hash data, (digest hash data).length = hash.outputLen

def Hash.blockLen (_ : Hash) : Nat := 64

/-! ### The loop -/

/-- `data` repeated to the next multiple of `v` bytes; empty stays empty. -/
def fill (data : List UInt8) (v : Nat) : List UInt8 :=
  if data = [] then [] else Cycle.take data (v * ((data.length + v - 1) / v))

/-- One block plus `B` plus one, byte by byte from the end, with the carry out of the front. -/
def addBlock : List UInt8 → List UInt8 → List UInt8 × UInt16
  | x :: block, y :: b =>
      let (out, carry) := addBlock block b
      let sum := x.toUInt16 + y.toUInt16 + carry
      (sum.toUInt8 :: out, sum >>> 8)
  | block, _ => (block, 1)

def addToBlocks (v : Nat) (iBuf b : List UInt8) : List UInt8 :=
  ((Piv.chunks v iBuf).map fun block => (addBlock block b).1).flatten

def hashRounds (d : Digests) (hash : Hash) (iterations : Nat) (input : List UInt8) :
    List UInt8 :=
  (List.range (iterations - 1)).foldl (fun a _ => d.digest hash a) (d.digest hash input)

section

variable (d : Digests) (hash : Hash) (id : UInt8) (iterations : Nat)

/-- The loop over the output. Every pass yields some of it, so `outLen` passes are enough. -/
def kdfLoop (outLen : Nat) : Nat → List UInt8 → List UInt8 → List UInt8
  | 0, _, out => out
  | passes + 1, iBuf, out =>
      if outLen ≤ out.length then out
      else
        let a := hashRounds d hash iterations (List.replicate hash.blockLen id ++ iBuf)
        let out := out ++ a
        if outLen ≤ out.length then out
        else
          kdfLoop outLen passes
            (addToBlocks hash.blockLen iBuf (Cycle.take a hash.blockLen)) out

def pkcs12Kdf (password salt : List UInt8) (outLen : Nat) : List UInt8 :=
  (kdfLoop d hash id iterations outLen outLen
    (fill salt hash.blockLen ++ fill password hash.blockLen) []).take outLen

/-! ### The definition -/

/-- Copies of a string, the last one cut so that they are a whole number of blocks. -/
def wholeBlocks (v : Nat) (xs : List UInt8) : List UInt8 :=
  (Cycle.copies (v * xs.length) xs).take (v * ((xs.length + v - 1) / v))

/-- A block as a number, plus `B` plus one, modulo the size of a block. -/
def nextBlock (v : Nat) (b block : List UInt8) : List UInt8 :=
  Bytes.be v ((Bytes.ofBe block + Bytes.ofBe b + 1) % 2 ^ (8 * v))

/-- `A`: as many hashes of the diversifier and the input as there are iterations. -/
def kdfBlock (input : List UInt8) : List UInt8 :=
  (d.digest hash)^[iterations] (List.replicate hash.blockLen id ++ input)

/-- `I` in each round. -/
def kdfInput (start : List UInt8) : Nat → List UInt8
  | 0 => start
  | i + 1 =>
      let b := (Cycle.copies hash.blockLen (kdfBlock d hash id iterations (kdfInput start i))).take
        hash.blockLen
      ((Piv.chunks hash.blockLen (kdfInput start i)).map (nextBlock hash.blockLen b)).flatten

/-- The blocks of so many rounds. -/
def kdfOutput (start : List UInt8) (rounds : Nat) : List UInt8 :=
  (List.range rounds).flatMap fun i =>
    kdfBlock d hash id iterations (kdfInput d hash id iterations start i)

/-- How many blocks make `outLen` bytes. -/
def kdfRounds (outLen : Nat) : Nat := (outLen + hash.outputLen - 1) / hash.outputLen

def referenceKdf (password salt : List UInt8) (outLen : Nat) : List UInt8 :=
  (kdfOutput d hash id iterations
    (wholeBlocks hash.blockLen salt ++ wholeBlocks hash.blockLen password)
    (kdfRounds hash outLen)).take outLen

end

/-! ### Padding -/

theorem Hash.outputLen_pos (hash : Hash) : 0 < hash.outputLen := by
  cases hash
  · decide
  · decide

theorem fill_eq (data : List UInt8) {v : Nat} (hv : 0 < v) : fill data v = wholeBlocks v data := by
  rw [fill, wholeBlocks]
  split
  · rename_i hnil
    rw [hnil, List.length_nil, Nat.mul_zero, Nat.zero_add, Nat.div_eq_of_lt (Nat.sub_lt hv one_pos),
      Nat.mul_zero, List.take_zero]
  · rename_i hne
    have hlen : 0 < data.length := List.length_pos_iff.mpr hne
    have hblocks : (data.length + v - 1) / v ≤ data.length := by
      rw [Nat.div_le_iff_le_mul_add_pred hv]
      have hle : data.length ≤ v * data.length := Nat.le_mul_of_pos_left _ hv
      omega
    refine Cycle.take_eq data ?_
    calc v * ((data.length + v - 1) / v) ≤ v * data.length := Nat.mul_le_mul_left v hblocks
      _ ≤ v * data.length * data.length := Nat.le_mul_of_pos_right _ hlen

theorem dvd_length_fill (data : List UInt8) (v : Nat) : v ∣ (fill data v).length := by
  rw [fill]
  split
  · exact Nat.dvd_zero v
  · rename_i hne
    rw [Cycle.length_take hne]
    exact Nat.dvd_mul_right v _

/-! ### Adding -/

/-- A sum of two bytes and a carry fits in 16 bits. -/
theorem toNat_sum (x y : UInt8) {carry : UInt16} (hcarry : carry.toNat ≤ 1) :
    (x.toUInt16 + y.toUInt16 + carry).toNat = x.toNat + y.toNat + carry.toNat := by
  have hx := x.toNat_lt
  have hy := y.toNat_lt
  rw [UInt16.toNat_add, UInt16.toNat_add, UInt8.toNat_toUInt16, UInt8.toNat_toUInt16]
  omega

theorem ofBe_cons (x : UInt8) (bytes : List UInt8) :
    Bytes.ofBe (x :: bytes) = x.toNat * 256 ^ bytes.length + Bytes.ofBe bytes := by
  rw [Bytes.ofBe, Bytes.ofBe, Bytes.ofLe_eq_ofDigits, Bytes.ofLe_eq_ofDigits, List.reverse_cons,
    List.map_append, Nat.ofDigits_append, List.length_map, List.length_reverse, List.map_cons,
    List.map_nil, Nat.ofDigits_singleton]
  ring

/-- What the carry goes through: the sum with the carry in front is the sum of the numbers. -/
theorem addBlock_spec {block b : List UInt8} (h : block.length = b.length) :
    (addBlock block b).1.length = block.length ∧ (addBlock block b).2.toNat ≤ 1 ∧
      (addBlock block b).2.toNat * 256 ^ block.length + Bytes.ofBe (addBlock block b).1 =
        Bytes.ofBe block + Bytes.ofBe b + 1 := by
  induction block generalizing b with
  | nil =>
      obtain rfl := List.eq_nil_of_length_eq_zero h.symm
      exact ⟨rfl, le_refl 1, rfl⟩
  | cons x block ih =>
      rcases b with _ | ⟨y, b⟩
      · cases h
      have hlen : block.length = b.length := Nat.succ.inj h
      obtain ⟨hlength, hcarry, hvalue⟩ := ih hlen
      have hsum := toNat_sum x y hcarry
      have hx := x.toNat_lt
      have hy := y.toNat_lt
      rw [addBlock]
      refine ⟨congrArg Nat.succ hlength, ?_, ?_⟩
      · rw [UInt16.toNat_shiftRight, hsum, Nat.shiftRight_eq_div_pow]
        have height : (8 : UInt16).toNat % 16 = 8 := rfl
        rw [height]
        omega
      · rw [UInt16.toNat_shiftRight, hsum, Nat.shiftRight_eq_div_pow, ofBe_cons, ofBe_cons,
          ofBe_cons, UInt16.toNat_toUInt8, hsum, hlength, ← hlen, List.length_cons, pow_succ]
        have height : (8 : UInt16).toNat % 16 = 8 := rfl
        rw [height]
        generalize (addBlock block b).2.toNat = carry at *
        generalize 256 ^ block.length = w at *
        have hsplit : (x.toNat + y.toNat + carry) / 2 ^ 8 * 256 +
            (x.toNat + y.toNat + carry) % 2 ^ 8 = x.toNat + y.toNat + carry := by omega
        calc (x.toNat + y.toNat + carry) / 2 ^ 8 * (w * 256) +
              ((x.toNat + y.toNat + carry) % 2 ^ 8 * w + Bytes.ofBe (addBlock block b).1)
            = ((x.toNat + y.toNat + carry) / 2 ^ 8 * 256 +
                (x.toNat + y.toNat + carry) % 2 ^ 8) * w + Bytes.ofBe (addBlock block b).1 := by
              ring
          _ = (x.toNat + y.toNat) * w + (carry * w + Bytes.ofBe (addBlock block b).1) := by
              rw [hsplit]
              ring
          _ = _ := by
              rw [hvalue]
              ring

/-- **Adding byte by byte is adding the numbers.** -/
theorem addBlock_eq {block b : List UInt8} {v : Nat} (hblock : block.length = v)
    (hb : b.length = v) : (addBlock block b).1 = nextBlock v b block := by
  obtain ⟨hlength, -, hvalue⟩ := addBlock_spec (hblock.trans hb.symm)
  have hlt := Bytes.ofBe_lt (addBlock block b).1
  have hpow : 2 ^ (8 * v) = 256 ^ v := pow_mul 2 8 v
  refine Bytes.eq_of_ofBe_eq ?_ ?_
  · rw [hlength, hblock, nextBlock, Bytes.length_be]
  · rw [nextBlock, Bytes.ofBe_be (by rw [hpow]; exact Nat.mod_lt _ (by positivity)), hpow,
      ← hvalue, hblock, Nat.mul_add_mod_self_right, Nat.mod_eq_of_lt]
    rwa [hlength, hblock] at hlt

/-! ### Rounds -/

theorem length_chunks {v : Nat} {iBuf : List UInt8} (h : v ∣ iBuf.length) :
    ∀ block ∈ Piv.chunks v iBuf, block.length = v := by
  suffices hfrom : ∀ left data, v ∣ data.length → ∀ block ∈ Piv.chunksFrom v left data,
      block.length = v from hfrom iBuf.length iBuf h
  intro left
  induction left with
  | zero => exact fun data _ => nofun
  | succ left ih =>
      intro data hdvd block hblock
      rw [Piv.chunksFrom] at hblock
      split at hblock
      · cases hblock
      · rename_i hne
        have hle : v ≤ data.length := Nat.le_of_dvd (List.length_pos_iff.mpr hne) hdvd
        rcases List.mem_cons.mp hblock with rfl | hblock
        · rw [List.length_take, Nat.min_eq_left hle]
        · refine ih (data.drop v) ?_ block hblock
          rw [List.length_drop]
          exact Nat.dvd_sub hdvd (Nat.dvd_refl v)

section

variable {d : Digests} {hash : Hash} {id : UInt8} {iterations : Nat}

theorem hashRounds_eq (hpos : 1 ≤ iterations) (input : List UInt8) :
    hashRounds d hash iterations input = (d.digest hash)^[iterations] input := by
  obtain ⟨n, rfl⟩ := Nat.exists_eq_add_of_le' hpos
  rw [hashRounds, Nat.add_sub_cancel, List.foldl_const, List.length_range,
    Function.iterate_succ_apply]

theorem length_kdfBlock (hpos : 1 ≤ iterations) (input : List UInt8) :
    (kdfBlock d hash id iterations input).length = hash.outputLen := by
  obtain ⟨n, rfl⟩ := Nat.exists_eq_add_of_le' hpos
  rw [kdfBlock, Function.iterate_succ_apply', d.length_digest]

/-- `B` as the source repeats `A` and as copies of it. -/
theorem take_kdfBlock (hpos : 1 ≤ iterations) (v : Nat) (input : List UInt8) :
    Cycle.take (kdfBlock d hash id iterations input) v =
      (Cycle.copies v (kdfBlock d hash id iterations input)).take v := by
  refine Cycle.take_eq _ ?_
  rw [length_kdfBlock hpos]
  exact Nat.le_mul_of_pos_right v hash.outputLen_pos

theorem length_copies_kdfBlock (hpos : 1 ≤ iterations) (v : Nat) (input : List UInt8) :
    ((Cycle.copies v (kdfBlock d hash id iterations input)).take v).length = v := by
  rw [List.length_take, Cycle.length_copies, length_kdfBlock hpos, Nat.min_eq_left]
  exact Nat.le_mul_of_pos_right v hash.outputLen_pos

variable {start : List UInt8}

/-- Every round leaves whole blocks. -/
theorem dvd_length_kdfInput (hstart : hash.blockLen ∣ start.length) (i : Nat) :
    hash.blockLen ∣ (kdfInput d hash id iterations start i).length := by
  induction i with
  | zero => exact hstart
  | succ i ih =>
      rw [kdfInput, List.length_flatten, List.map_map]
      refine List.dvd_sum fun n hn => ?_
      obtain ⟨block, -, rfl⟩ := List.mem_map.mp hn
      rw [Function.comp_apply, nextBlock, Bytes.length_be]

theorem addToBlocks_kdfInput (hpos : 1 ≤ iterations) (hstart : hash.blockLen ∣ start.length)
    (i : Nat) : addToBlocks hash.blockLen (kdfInput d hash id iterations start i)
      (Cycle.take (kdfBlock d hash id iterations (kdfInput d hash id iterations start i))
        hash.blockLen) = kdfInput d hash id iterations start (i + 1) := by
  rw [addToBlocks, kdfInput, take_kdfBlock hpos]
  refine congrArg List.flatten (List.map_congr_left fun block hblock => ?_)
  exact addBlock_eq (length_chunks (dvd_length_kdfInput hstart i) block hblock)
    (length_copies_kdfBlock hpos _ _)

theorem kdfOutput_succ (i : Nat) : kdfOutput d hash id iterations start (i + 1) =
    kdfOutput d hash id iterations start i ++
      kdfBlock d hash id iterations (kdfInput d hash id iterations start i) := by
  rw [kdfOutput, List.range_succ, List.flatMap_append, List.flatMap_singleton, kdfOutput]

theorem length_kdfOutput (hpos : 1 ≤ iterations) (i : Nat) :
    (kdfOutput d hash id iterations start i).length = i * hash.outputLen := by
  induction i with
  | zero => rw [Nat.zero_mul]; rfl
  | succ i ih =>
      rw [kdfOutput_succ, List.length_append, ih, length_kdfBlock hpos, Nat.succ_mul]

theorem kdfRounds_le_iff (outLen i : Nat) : kdfRounds hash outLen ≤ i ↔
    outLen ≤ i * hash.outputLen := by
  have hpos := hash.outputLen_pos
  rw [kdfRounds, Nat.div_le_iff_le_mul_add_pred hpos, Nat.mul_comm]
  omega

/-- The loop from any round on. -/
theorem kdfLoop_eq (hpos : 1 ≤ iterations) (hstart : hash.blockLen ∣ start.length)
    {outLen passes i : Nat} (hi : i ≤ kdfRounds hash outLen)
    (hpasses : kdfRounds hash outLen ≤ i + passes) :
    kdfLoop d hash id iterations outLen passes (kdfInput d hash id iterations start i)
      (kdfOutput d hash id iterations start i) =
        kdfOutput d hash id iterations start (kdfRounds hash outLen) := by
  induction passes generalizing i with
  | zero =>
      obtain rfl := Nat.le_antisymm hi hpasses
      rfl
  | succ passes ih =>
      rw [kdfLoop, length_kdfOutput hpos]
      split
      · rename_i henough
        obtain rfl := Nat.le_antisymm hi ((kdfRounds_le_iff outLen i).mpr henough)
        rfl
      · rename_i hmore
        have hlt : i + 1 ≤ kdfRounds hash outLen := by
          rw [← kdfRounds_le_iff] at hmore
          omega
        simp only [hashRounds_eq hpos]
        rw [← kdfBlock, ← kdfOutput_succ, addToBlocks_kdfInput hpos hstart,
          length_kdfOutput hpos]
        split
        · rename_i henough
          rw [Nat.le_antisymm hlt ((kdfRounds_le_iff outLen (i + 1)).mpr henough)]
        · exact ih hlt (by omega)

end

/-- **The loop computes the derivation of RFC 7292 B.2**, for every hash whose digests have its
length, every purpose, password, salt and length of the key, and from one iteration on. -/
theorem pkcs12Kdf_eq (d : Digests) (hash : Hash) (id : UInt8) {iterations : Nat}
    (hpos : 1 ≤ iterations) (password salt : List UInt8) (outLen : Nat) :
    pkcs12Kdf d hash id iterations password salt outLen =
      referenceKdf d hash id iterations password salt outLen := by
  have hv : 0 < hash.blockLen := Nat.succ_pos 63
  have hstart :
      hash.blockLen ∣ (fill salt hash.blockLen ++ fill password hash.blockLen).length := by
    rw [List.length_append]
    exact Nat.dvd_add (dvd_length_fill salt _) (dvd_length_fill password _)
  have hpasses : kdfRounds hash outLen ≤ 0 + outLen := by
    rw [Nat.zero_add, kdfRounds_le_iff]
    exact Nat.le_mul_of_pos_right outLen hash.outputLen_pos
  have hloop := @kdfLoop_eq d hash id _ _ hpos hstart outLen outLen 0 (Nat.zero_le _) hpasses
  rw [pkcs12Kdf, referenceKdf, ← fill_eq salt hv, ← fill_eq password hv]
  exact congrArg (List.take outLen) hloop

/-- The hashes of the protocol crate in the place of the two that this crate takes from others. -/
def protoDigest (hash : Hash) (data : List UInt8) : List UInt8 :=
  match hash with
  | .sha1 => Proto.Sha1.finalize (Proto.Sha1.update Proto.Sha1.new data)
  | .sha256 => Proto.Sha256.digest data

theorem length_protoDigest (hash : Hash) (data : List UInt8) :
    (protoDigest hash data).length = hash.outputLen := by
  cases hash <;> rfl

def protoDigests : Digests where
  digest := protoDigest
  length_digest := length_protoDigest

/-- `smeg` as a BMPString. -/
def samplePassword : List UInt8 := bmpPassword (some ['s', 'm', 'e', 'g'])

def sampleSalt : List UInt8 := [0x0a, 0x58, 0xcf, 0x64, 0x53, 0x0d, 0x82, 0x3f]

/-- A key for triple DES takes two blocks of SHA-1. -/
theorem pkcs12Kdf_eq_two_blocks :
    kdfRounds .sha1 24 = 2 ∧
    pkcs12Kdf protoDigests .sha1 1 2048 samplePassword sampleSalt 24 =
      referenceKdf protoDigests .sha1 1 2048 samplePassword sampleSalt 24 :=
  ⟨by decide, pkcs12Kdf_eq protoDigests .sha1 1 (by decide) samplePassword sampleSalt 24⟩

end Keyroost.P12
