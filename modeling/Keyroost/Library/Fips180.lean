import Keyroost.Library.BlockHash
import Mathlib.Data.Nat.Prime.Basic

/-!
# The Secure Hash Standard

FIPS 180-4: SHA-1, SHA-256, SHA-384 and SHA-512 as the standard defines them, over the padding and
the iteration of `BlockHash`.

The constants of the SHA-2 family are not a table but what the standard says they are: the first
bits of the fractional parts of the square and cube roots of the first primes. `fracRoot_eq`
says when a number is such a part, so that an implementation's table can be checked against roots.
-/

namespace Fips180

/-! ### Constants -/

def isPrime (n : Nat) : Bool :=
  decide (2 ≤ n) && (List.range n).all fun d => decide (d < 2) || decide (n % d ≠ 0)

theorem isPrime_iff (n : Nat) : isPrime n = true ↔ n.Prime := by
  rw [isPrime, Bool.and_eq_true, decide_eq_true_eq, List.all_eq_true, Nat.prime_def_lt']
  refine and_congr_right fun _ => ⟨fun h d hpos hlt hdvd => ?_, fun h d hd => ?_⟩
  · have hd := h d (List.mem_range.mpr hlt)
    rw [Bool.or_eq_true, decide_eq_true_eq, decide_eq_true_eq] at hd
    rcases hd with hsmall | hrest
    · exact absurd hpos (Nat.not_le.mpr hsmall)
    · exact hrest (Nat.mod_eq_zero_of_dvd hdvd)
  · rw [Bool.or_eq_true, decide_eq_true_eq, decide_eq_true_eq]
    rcases Nat.lt_or_ge d 2 with hsmall | hpos
    · exact .inl hsmall
    · exact .inr fun hzero => h d hpos (List.mem_range.mp hd) (Nat.dvd_of_mod_eq_zero hzero)

/-- Below `k * k`, the divisors below `k` are enough. -/
theorem isPrime_lt_sq {n k : Nat} (h : n < k * k) :
    isPrime n = (decide (2 ≤ n) && (List.range k).all fun d =>
      decide (d < 2) || decide (n ≤ d) || decide (n % d ≠ 0)) := by
  rw [Bool.eq_iff_iff, isPrime_iff, Bool.and_eq_true, decide_eq_true_eq, List.all_eq_true]
  simp only [Bool.or_eq_true, decide_eq_true_eq]
  constructor
  · intro hprime
    refine ⟨hprime.two_le, fun d _ => ?_⟩
    by_contra hd
    obtain ⟨hd, hmod⟩ := not_or.mp hd
    obtain ⟨hpos, hlt⟩ := not_or.mp hd
    rcases hprime.eq_one_or_self_of_dvd d (Nat.dvd_of_mod_eq_zero (not_not.mp hmod)) with rfl | rfl
    all_goals omega
  · rintro ⟨hpos, hall⟩
    refine Nat.prime_def_le_sqrt.mpr ⟨hpos, fun d hd hsqrt hdvd => ?_⟩
    have hsq : d * d ≤ n := Nat.le_sqrt.mp hsqrt
    have hk : d < k := Nat.mul_self_lt_mul_self_iff.mp (hsq.trans_lt h)
    rcases hall d (List.mem_range.mpr hk) with (hlt | hle) | hrest
    · exact absurd hd (Nat.not_le.mpr hlt)
    · have hself : d * 2 ≤ d := ((Nat.mul_le_mul_left d hd).trans hsq).trans hle
      omega
    · exact hrest (Nat.mod_eq_zero_of_dvd hdvd)

/-- The first eighty primes. -/
def primes : List Nat := (List.range 410).filter isPrime

/-- The first `w` bits of the fractional part of the `k`-th root of `n`. -/
def fracRoot (k w n : Nat) : Nat :=
  Nat.findGreatest (fun x => x ^ k ≤ n * 2 ^ (k * w)) (n * 2 ^ (k * w)) % 2 ^ w

theorem fracRoot_eq {k w n x : Nat} (hk : k ≠ 0) (hle : x ^ k ≤ n * 2 ^ (k * w))
    (hlt : n * 2 ^ (k * w) < (x + 1) ^ k) : fracRoot k w n = x % 2 ^ w := by
  have hgreatest : Nat.findGreatest (fun x => x ^ k ≤ n * 2 ^ (k * w)) (n * 2 ^ (k * w)) = x := by
    refine Nat.findGreatest_eq_iff.mpr ⟨(Nat.le_self_pow hk x).trans hle, fun _ => hle, ?_⟩
    intro y hxy _ hy
    exact absurd ((Nat.pow_le_pow_left hxy k).trans hy) (Nat.not_le.mpr hlt)
  rw [fracRoot, hgreatest]

/-- Bits that are the fractional part of the root, with some whole part. -/
def IsFrac (k w n v : Nat) : Prop :=
  v < 2 ^ w ∧ ∃ i < 24, (i * 2 ^ w + v) ^ k ≤ n * 2 ^ (k * w) ∧
    n * 2 ^ (k * w) < (i * 2 ^ w + v + 1) ^ k

instance (k w n v : Nat) : Decidable (IsFrac k w n v) := inferInstanceAs (Decidable (_ ∧ _))

theorem IsFrac.eq {k w n v : Nat} (hk : k ≠ 0) (h : IsFrac k w n v) : fracRoot k w n = v := by
  obtain ⟨hv, i, -, hle, hlt⟩ := h
  rw [fracRoot_eq hk hle hlt, Nat.mul_add_mod_self_right, Nat.mod_eq_of_lt hv]

/-! ### Functions on words -/

section

variable {W : Type} [AndOp W] [XorOp W] [Complement W]

def ch (x y z : W) : W := (x &&& y) ^^^ (~~~x &&& z)

def parity (x y z : W) : W := x ^^^ y ^^^ z

def maj (x y z : W) : W := (x &&& y) ^^^ (x &&& z) ^^^ (y &&& z)

end

def rotr32 (n : UInt32) (x : UInt32) : UInt32 := (x >>> n) ||| (x <<< (32 - n))

def rotl32 (n : UInt32) (x : UInt32) : UInt32 := (x <<< n) ||| (x >>> (32 - n))

def rotr64 (n : UInt64) (x : UInt64) : UInt64 := (x >>> n) ||| (x <<< (64 - n))

/-- Word number `t` of a block, of so many bytes, most significant first. -/
def wordAt (width : Nat) (block : List UInt8) (t : Nat) : Nat :=
  Bytes.ofBe ((block.drop (width * t)).take width)

/-! ### SHA-1 -/

structure Five where
  a : UInt32
  b : UInt32
  c : UInt32
  d : UInt32
  e : UInt32
deriving DecidableEq, Repr

namespace Sha1

def f (t : Nat) (x y z : UInt32) : UInt32 :=
  if t < 20 then ch x y z
  else if t < 40 then parity x y z
  else if t < 60 then maj x y z
  else parity x y z

def k (t : Nat) : UInt32 :=
  if t < 20 then 0x5a827999
  else if t < 40 then 0x6ed9eba1
  else if t < 60 then 0x8f1bbcdc
  else 0xca62c1d6

/-- The message schedule. -/
def w (block : List UInt8) (t : Nat) : UInt32 :=
  if _ : t < 16 then UInt32.ofNat (wordAt 4 block t)
  else rotl32 1 (w block (t - 3) ^^^ w block (t - 8) ^^^ w block (t - 14) ^^^ w block (t - 16))
termination_by t

/-- The working variables after so many rounds. -/
def working (block : List UInt8) (h : Five) : Nat → Five
  | 0 => h
  | t + 1 =>
      let v := working block h t
      let temp := rotl32 5 v.a + f t v.b v.c v.d + v.e + k t + w block t
      ⟨temp, v.a, rotl32 30 v.b, v.c, v.d⟩

def compress (h : Five) (block : List UInt8) : Five :=
  let v := working block h 80
  ⟨v.a + h.a, v.b + h.b, v.c + h.c, v.d + h.d, v.e + h.e⟩

def iv : Five := ⟨0x67452301, 0xefcdab89, 0x98badcfe, 0x10325476, 0xc3d2e1f0⟩

def output (h : Five) : List UInt8 :=
  [h.a, h.b, h.c, h.d, h.e].flatMap fun word => Bytes.be 4 word.toNat

end Sha1

/-- Blocks of 64 bytes with a length of 8. -/
def shape64 : BlockHash.Shape := ⟨64, 8, by decide⟩

/-- Blocks of 128 bytes with a length of 16. -/
def shape128 : BlockHash.Shape := ⟨128, 16, by decide⟩

def sha1 (message : List UInt8) : List UInt8 :=
  Sha1.output (BlockHash.hash shape64 Sha1.compress Sha1.iv message)

/-! ### The SHA-2 family -/

structure Eight (W : Type) where
  a : W
  b : W
  c : W
  d : W
  e : W
  f : W
  g : W
  h : W
deriving DecidableEq, Repr

/-- What the members of the family differ in: the functions of the schedule and of the rounds, the
constants, the reading of words, and the number of rounds. -/
structure Sha2 (W : Type) where
  bigSigma0 : W → W
  bigSigma1 : W → W
  smallSigma0 : W → W
  smallSigma1 : W → W
  k : Nat → W
  word : List UInt8 → Nat → W
  rounds : Nat

namespace Sha2

variable {W : Type} [Add W] [AndOp W] [XorOp W] [Complement W] (p : Sha2 W)

/-- The message schedule. -/
def w (block : List UInt8) (t : Nat) : W :=
  if _ : t < 16 then p.word block t
  else p.smallSigma1 (w block (t - 2)) + w block (t - 7) + p.smallSigma0 (w block (t - 15)) +
    w block (t - 16)
termination_by t

/-- The working variables after so many rounds. -/
def working (block : List UInt8) (h : Eight W) : Nat → Eight W
  | 0 => h
  | t + 1 =>
      let v := working block h t
      let t1 := v.h + p.bigSigma1 v.e + ch v.e v.f v.g + p.k t + p.w block t
      let t2 := p.bigSigma0 v.a + maj v.a v.b v.c
      ⟨t1 + t2, v.a, v.b, v.c, v.d + t1, v.e, v.f, v.g⟩

def compress (h : Eight W) (block : List UInt8) : Eight W :=
  let v := p.working block h p.rounds
  ⟨v.a + h.a, v.b + h.b, v.c + h.c, v.d + h.d, v.e + h.e, v.f + h.f, v.g + h.g, v.h + h.h⟩

end Sha2

def Eight.words {W : Type} (h : Eight W) : List W := [h.a, h.b, h.c, h.d, h.e, h.f, h.g, h.h]

def sha2_32 : Sha2 UInt32 where
  bigSigma0 x := rotr32 2 x ^^^ rotr32 13 x ^^^ rotr32 22 x
  bigSigma1 x := rotr32 6 x ^^^ rotr32 11 x ^^^ rotr32 25 x
  smallSigma0 x := rotr32 7 x ^^^ rotr32 18 x ^^^ (x >>> 3)
  smallSigma1 x := rotr32 17 x ^^^ rotr32 19 x ^^^ (x >>> 10)
  k t := UInt32.ofNat (fracRoot 3 32 (primes.getD t 0))
  word block t := UInt32.ofNat (wordAt 4 block t)
  rounds := 64

def sha2_64 : Sha2 UInt64 where
  bigSigma0 x := rotr64 28 x ^^^ rotr64 34 x ^^^ rotr64 39 x
  bigSigma1 x := rotr64 14 x ^^^ rotr64 18 x ^^^ rotr64 41 x
  smallSigma0 x := rotr64 1 x ^^^ rotr64 8 x ^^^ (x >>> 7)
  smallSigma1 x := rotr64 19 x ^^^ rotr64 61 x ^^^ (x >>> 6)
  k t := UInt64.ofNat (fracRoot 3 64 (primes.getD t 0))
  word block t := UInt64.ofNat (wordAt 8 block t)
  rounds := 80

/-- Eight words that begin with the fractional parts of the square roots of the primes from one
on. -/
def rootWords {W : Type} (ofNat : Nat → W) (w first : Nat) : Eight W :=
  let word := fun i => ofNat (fracRoot 2 w (primes.getD (first + i) 0))
  ⟨word 0, word 1, word 2, word 3, word 4, word 5, word 6, word 7⟩

def sha256 (message : List UInt8) : List UInt8 :=
  (BlockHash.hash shape64 sha2_32.compress (rootWords UInt32.ofNat 32 0) message).words.flatMap
    fun word => Bytes.be 4 word.toNat

def sha512 (message : List UInt8) : List UInt8 :=
  (BlockHash.hash shape128 sha2_64.compress (rootWords UInt64.ofNat 64 0) message).words.flatMap
    fun word => Bytes.be 8 word.toNat

/-- The leftmost 384 bits, from other words to begin with. -/
def sha384 (message : List UInt8) : List UInt8 :=
  ((BlockHash.hash shape128 sha2_64.compress (rootWords UInt64.ofNat 64 8) message).words.take
    6).flatMap fun word => Bytes.be 8 word.toNat

end Fips180
