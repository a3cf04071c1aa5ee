import Keyroost.Proto.Sha

/-!
# The hashes and the standard

Block functions and constants of `Sha` are those of FIPS 180-4, and so is the hash of every message
fed in any pieces.

The standard is in the library (`Fips180`), stated with its own functions on bits and with its
constants as roots of primes. So three things are compared: the functions, the tables
(`Sha256.K_frac`, `Sha256.iv_eq` and their like), and the block functions round by round. The pieces
are dealt with by `BlockHash` for all four at once. `sha_standard` is the result.
-/

namespace Keyroost.Proto

open Fips180

/-! ### Functions on bits -/

theorem or_eq_ch (x y z : UInt32) : (x &&& y) ||| (~~~x &&& z) = ch x y z := by
  rw [ch]
  refine UInt32.eq_of_toBitVec_eq (BitVec.eq_of_getLsbD_eq fun i hi => ?_)
  simp only [UInt32.toBitVec_or, UInt32.toBitVec_and, UInt32.toBitVec_not, UInt32.toBitVec_xor,
    BitVec.getLsbD_or, BitVec.getLsbD_and, BitVec.getLsbD_not, BitVec.getLsbD_xor]
  cases x.toBitVec.getLsbD i <;> simp

theorem or_eq_maj (x y z : UInt32) : (x &&& y) ||| (x &&& z) ||| (y &&& z) = maj x y z := by
  rw [maj]
  refine UInt32.eq_of_toBitVec_eq (BitVec.eq_of_getLsbD_eq fun i hi => ?_)
  simp only [UInt32.toBitVec_or, UInt32.toBitVec_and, UInt32.toBitVec_xor, BitVec.getLsbD_or,
    BitVec.getLsbD_and, BitVec.getLsbD_xor]
  cases x.toBitVec.getLsbD i <;> cases y.toBitVec.getLsbD i <;> simp

/-! ### SHA-1 -/

theorem Sha1.schedule_eq (block : List UInt8) :
    Sha1.schedule block = (List.range 80).map (Fips180.Sha1.w block) := by
  refine grow_eq (fun i hi => ?_) (fun i hi => ?_) (by decide)
  · rw [Fips180.Sha1.w, dif_pos hi]
  · rw [Sha1.nextWord, getD_map_range _ (by omega), getD_map_range _ (by omega),
      getD_map_range _ (by omega), getD_map_range _ (by omega), Fips180.Sha1.w.eq_def block i,
      dif_neg (Nat.not_lt.mpr hi)]

theorem Sha1.rounds_eq (block : List UInt8) (h : Five) {n : Nat} (hn : n ≤ 80) :
    (List.range n).foldl (Sha1.round (Sha1.schedule block)) h =
      Fips180.Sha1.working block h n := by
  induction n with
  | zero => rfl
  | succ n ih =>
      rw [List.range_succ, List.foldl_append, ih (Nat.le_of_succ_le hn), List.foldl_cons,
        List.foldl_nil, Fips180.Sha1.working, Sha1.round, Sha1.schedule_eq,
        getD_map_range _ (Nat.lt_of_succ_le hn), or_eq_ch, or_eq_maj, Fips180.Sha1.f,
        Fips180.Sha1.k]
      by_cases hfirst : n < 20
      · rw [if_pos (Nat.le_of_lt_succ hfirst), if_pos hfirst, if_pos hfirst]
      · rw [if_neg (by omega), if_neg hfirst, if_neg hfirst]
        by_cases hsecond : n < 40
        · rw [if_pos (Nat.le_of_lt_succ hsecond), if_pos hsecond, if_pos hsecond]
          rfl
        · rw [if_neg (by omega), if_neg hsecond, if_neg hsecond]
          by_cases hthird : n < 60
          · rw [if_pos (Nat.le_of_lt_succ hthird), if_pos hthird, if_pos hthird]
          · rw [if_neg (by omega), if_neg hthird, if_neg hthird]
            rfl

theorem Sha1.processBlock_eq : Sha1.processBlock = Fips180.Sha1.compress := by
  funext h block
  rw [Sha1.processBlock, Fips180.Sha1.compress, Sha1.rounds_eq block h (Nat.le_refl 80)]
  simp only [UInt32.add_comm]

/-! ### The SHA-2 family -/

section

variable {W : Type} [Add W] [AndOp W] [XorOp W] [Complement W]

/-- The block function is the standard's when its constants are, in words whose addition may be
put in any order. -/
theorem sha2Block_eq (p : Sha2 W) (zero : W) {table : List W}
    (hcomm : ∀ x y : W, x + y = y + x) (hassoc : ∀ x y z : W, x + y + z = x + (y + z))
    (hround : 16 ≤ p.rounds) (htable : ∀ t < p.rounds, table.getD t zero = p.k t) :
    sha2Block p.bigSigma0 p.bigSigma1 p.smallSigma0 p.smallSigma1 zero table p.word p.rounds =
      p.compress := by
  funext h block
  have hschedule : grow (p.word block) (fun w i => w.getD (i - 16) zero +
      p.smallSigma0 (w.getD (i - 15) zero) + w.getD (i - 7) zero +
      p.smallSigma1 (w.getD (i - 2) zero)) p.rounds = (List.range p.rounds).map (p.w block) := by
    refine grow_eq (fun i hi => ?_) (fun i hi => ?_) hround
    · rw [Sha2.w, dif_pos hi]
    · rw [getD_map_range _ (by omega), getD_map_range _ (by omega), getD_map_range _ (by omega),
        getD_map_range _ (by omega), Sha2.w.eq_def p block i, dif_neg (Nat.not_lt.mpr hi)]
      calc p.w block (i - 16) + p.smallSigma0 (p.w block (i - 15)) + p.w block (i - 7) +
            p.smallSigma1 (p.w block (i - 2))
          = p.smallSigma1 (p.w block (i - 2)) + (p.w block (i - 16) +
            p.smallSigma0 (p.w block (i - 15)) + p.w block (i - 7)) := hcomm _ _
        _ = p.smallSigma1 (p.w block (i - 2)) + (p.w block (i - 7) +
            (p.smallSigma0 (p.w block (i - 15)) + p.w block (i - 16))) := by
          rw [hcomm (p.w block (i - 16)), hcomm _ (p.w block (i - 7))]
        _ = _ := by rw [hassoc, hassoc]
  have hrounds : ∀ n ≤ p.rounds, (List.range n).foldl (fun v i => sha2Round p.bigSigma0
      p.bigSigma1 (table.getD i zero) (((List.range p.rounds).map (p.w block)).getD i zero) v) h =
      p.working block h n := by
    intro n hn
    induction n with
    | zero => rfl
    | succ n ih =>
        rw [List.range_succ, List.foldl_append, ih (Nat.le_of_succ_le hn), List.foldl_cons,
          List.foldl_nil, getD_map_range _ (Nat.lt_of_succ_le hn), htable n (Nat.lt_of_succ_le hn)]
        rfl
  rw [sha2Block, Sha2.compress, hschedule, hrounds p.rounds (Nat.le_refl _)]
  simp only [hcomm]

end

/-! ### Constants -/

theorem primes_eq : primes = [2, 3, 5, 7, 11, 13, 17, 19, 23, 29, 31, 37, 41, 43, 47, 53,
    59, 61, 67, 71, 73, 79, 83, 89, 97, 101, 103, 107, 109, 113, 127, 131,
    137, 139, 149, 151, 157, 163, 167, 173, 179, 181, 191, 193, 197, 199, 211, 223,
    227, 229, 233, 239, 241, 251, 257, 263, 269, 271, 277, 281, 283, 293, 307, 311,
    313, 317, 331, 337, 347, 349, 353, 359, 367, 373, 379, 383, 389, 397, 401, 409] := by
  have hsmall : ∀ n ∈ List.range 410, n < 21 * 21 := fun n hn =>
    (List.mem_range.mp hn).trans (by decide)
  rw [primes, List.filter_congr fun n hn => isPrime_lt_sq (hsmall n hn)]
  decide +kernel

theorem Sha256.K_frac : ∀ t < 64,
    IsFrac 3 32 (primes.getD t 0) (Sha256.K.getD t 0).toNat := by
  rw [primes_eq]
  decide

theorem Core.K_frac : ∀ t < 80, IsFrac 3 64 (primes.getD t 0) (Core.K.getD t 0).toNat := by
  rw [primes_eq]
  decide

theorem Sha256.processBlock_eq : Sha256.processBlock = sha2_32.compress := by
  refine sha2Block_eq sha2_32 0 UInt32.add_comm UInt32.add_assoc (by decide) fun t ht => ?_
  have hfrac := (Sha256.K_frac t ht).eq (by decide)
  show Sha256.K.getD t 0 = UInt32.ofNat (fracRoot 3 32 (primes.getD t 0))
  rw [hfrac, UInt32.ofNat_toNat]

theorem Core.processBlock_eq : Core.processBlock = sha2_64.compress := by
  refine sha2Block_eq sha2_64 0 UInt64.add_comm UInt64.add_assoc (by decide) fun t ht => ?_
  have hfrac := (Core.K_frac t ht).eq (by decide)
  show Core.K.getD t 0 = UInt64.ofNat (fracRoot 3 64 (primes.getD t 0))
  rw [hfrac, UInt64.ofNat_toNat]

/-- Words whose numbers are the roots' bits. -/
def RootsOf {W : Type} (toNat : W → Nat) (w first : Nat) (h : Eight W) : Prop :=
  ∀ i < 8, IsFrac 2 w (primes.getD (first + i) 0) ((h.words.map toNat).getD i 0)

theorem rootWords_eq {W : Type} {toNat : W → Nat} {ofNat : Nat → W}
    (hback : ∀ x, ofNat (toNat x) = x) {w first : Nat} {h : Eight W}
    (hroots : RootsOf toNat w first h) : rootWords ofNat w first = h := by
  have hword : ∀ i < 8, ∀ word, (h.words.map toNat).getD i 0 = toNat word →
      ofNat (fracRoot 2 w (primes.getD (first + i) 0)) = word := by
    intro i hi word hnumber
    rw [(hroots i hi).eq (by decide), hnumber, hback]
  rw [rootWords]
  dsimp only
  rw [hword 0 (by decide) h.a rfl, hword 1 (by decide) h.b rfl, hword 2 (by decide) h.c rfl,
    hword 3 (by decide) h.d rfl, hword 4 (by decide) h.e rfl, hword 5 (by decide) h.f rfl,
    hword 6 (by decide) h.g rfl, hword 7 (by decide) h.h rfl]

theorem Sha256.iv_eq : rootWords UInt32.ofNat 32 0 = Sha256.new.h := by
  have hroots : RootsOf UInt32.toNat 32 0 Sha256.new.h := by
    rw [RootsOf, primes_eq]
    decide
  exact rootWords_eq (fun _ => UInt32.ofNat_toNat) hroots

theorem Sha384.iv_eq : rootWords UInt64.ofNat 64 8 = Sha384.new.h := by
  have hroots : RootsOf UInt64.toNat 64 8 Sha384.new.h := by
    rw [RootsOf, primes_eq]
    decide
  exact rootWords_eq (fun _ => UInt64.ofNat_toNat) hroots

theorem Sha512.iv_eq : rootWords UInt64.ofNat 64 0 = Sha512.new.h := by
  have hroots : RootsOf UInt64.toNat 64 0 Sha512.new.h := by
    rw [RootsOf, primes_eq]
    decide
  exact rootWords_eq (fun _ => UInt64.ofNat_toNat) hroots

/-! ### The hashes -/

theorem take_words (h : Eight UInt64) :
    (h.words.flatMap fun word => Bytes.be 8 word.toNat).take 48 =
      (h.words.take 6).flatMap fun word => Bytes.be 8 word.toNat := by
  have hsplit : h.words = h.words.take 6 ++ h.words.drop 6 := (List.take_append_drop _ _).symm
  conv_lhs => rw [hsplit, List.flatMap_append]
  refine List.take_left' ?_
  simp only [Eight.words, List.take_succ_cons, List.take_zero, List.flatMap_cons,
    List.flatMap_nil, List.length_append, Bytes.length_be, List.length_nil]

/-- **The crate's hashes are the standard's**: fed in any pieces, every message whose length in bits
fits the length field. On the left are the hashes as they are computed, on the right the definitions
of FIPS 180-4. -/
theorem sha_standard (pieces : List (List UInt8)) :
    (8 * pieces.flatten.length < 2 ^ 64 →
      Sha1.finalize (pieces.foldl Sha1.update Sha1.new) = sha1 pieces.flatten ∧
      Sha256.finalize (pieces.foldl Sha256.update Sha256.new) = sha256 pieces.flatten) ∧
    (8 * pieces.flatten.length < 2 ^ 128 →
      Sha384.finalize (pieces.foldl Sha384.update Sha384.new) = sha384 pieces.flatten ∧
      Sha512.finalize (pieces.foldl Sha512.update Sha512.new) = sha512 pieces.flatten) := by
  constructor
  · intro hfit
    constructor
    · have hstream := @BlockHash.stream_eq_hash _ shape64 Sha1.processBlock
        Fips180.Sha1.iv pieces hfit
      rw [sha1, ← Sha1.processBlock_eq, ← hstream]
      rfl
    · have hstream := @BlockHash.stream_eq_hash _ shape64 Sha256.processBlock
        Sha256.new.h pieces hfit
      rw [sha256, Sha256.iv_eq, ← Sha256.processBlock_eq, ← hstream]
      rfl
  · intro hfit
    constructor
    · have hstream := @BlockHash.stream_eq_hash _ shape128 Core.processBlock
        Sha384.new.h pieces hfit
      rw [sha384, Sha384.iv_eq, ← Core.processBlock_eq, ← hstream, ← take_words]
      rfl
    · have hstream := @BlockHash.stream_eq_hash _ shape128 Core.processBlock
        Sha512.new.h pieces hfit
      rw [sha512, Sha512.iv_eq, ← Core.processBlock_eq, ← hstream]
      rfl

end Keyroost.Proto
