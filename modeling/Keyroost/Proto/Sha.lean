import Keyroost.Library.Fips180

/-!
# The hashes of the protocol crate

SHA-1, SHA-256, SHA-384 and SHA-512 as `keyroost-proto/src/sha1.rs`, `keyroost-proto/src/sha256.rs`
and `keyroost-proto/src/sha512.rs` compute them: the block functions with their schedules and
rounds, and the hashes fed piece by piece over the streams of `BlockHash`.

The schedule of a block grows by one word at a time, as the source's loop fills its array. The two
sizes of SHA-2 share their rounds, with the width of the words and the constants as parameters. That
all of it is the standard is shown in `ShaStandard`. Hashing in one call and HMAC are there for
SHA-256, which other modules take as a hash that runs.
-/

namespace Keyroost.Proto

open Fips180

/-! ### Growing schedules -/

/-- The words of a block: sixteen read from its bytes, the others computed from those before. -/
def grow {W : Type} (word : Nat → W) (next : List W → Nat → W) (rounds : Nat) : List W :=
  (List.range' 16 (rounds - 16)).foldl (fun w i => w ++ [next w i]) ((List.range 16).map word)

theorem getD_map_range {W : Type} (spec : Nat → W) {i j : Nat} (h : j < i) (zero : W) :
    ((List.range i).map spec).getD j zero = spec j := by
  rw [List.getD_eq_getElem?_getD, List.getElem?_map, List.getElem?_range h]
  rfl

theorem grow_eq {W : Type} {word : Nat → W} {next : List W → Nat → W} {spec : Nat → W}
    (hfirst : ∀ i < 16, word i = spec i)
    (hnext : ∀ i, 16 ≤ i → next ((List.range i).map spec) i = spec i) {rounds : Nat}
    (h : 16 ≤ rounds) : grow word next rounds = (List.range rounds).map spec := by
  have hstart : (List.range 16).map word = (List.range 16).map spec :=
    List.map_congr_left fun i hi => hfirst i (List.mem_range.mp hi)
  have hall : ∀ n, (List.range' 16 n).foldl (fun w i => w ++ [next w i])
      ((List.range 16).map spec) = (List.range (16 + n)).map spec := by
    intro n
    induction n with
    | zero => rfl
    | succ n ih =>
        rw [List.range'_concat, List.foldl_append, ih, List.foldl_cons, List.foldl_nil,
          Nat.one_mul, hnext _ (Nat.le_add_right 16 n), ← Nat.add_assoc, List.range_succ,
          List.map_append]
        rfl
  rw [grow, hstart, hall, Nat.add_sub_cancel' h]

/-! ### SHA-1 -/

namespace Sha1

def nextWord (w : List UInt32) (i : Nat) : UInt32 :=
  rotl32 1 (w.getD (i - 3) 0 ^^^ w.getD (i - 8) 0 ^^^ w.getD (i - 14) 0 ^^^ w.getD (i - 16) 0)

def schedule (block : List UInt8) : List UInt32 :=
  grow (fun i => UInt32.ofNat (wordAt 4 block i)) nextWord 80

def round (w : List UInt32) (v : Five) (i : Nat) : Five :=
  let (f, k) : UInt32 × UInt32 :=
    if i ≤ 19 then ((v.b &&& v.c) ||| (~~~v.b &&& v.d), 0x5a827999)
    else if i ≤ 39 then (v.b ^^^ v.c ^^^ v.d, 0x6ed9eba1)
    else if i ≤ 59 then ((v.b &&& v.c) ||| (v.b &&& v.d) ||| (v.c &&& v.d), 0x8f1bbcdc)
    else (v.b ^^^ v.c ^^^ v.d, 0xca62c1d6)
  let temp := rotl32 5 v.a + f + v.e + k + w.getD i 0
  ⟨temp, v.a, rotl32 30 v.b, v.c, v.d⟩

def processBlock (h : Five) (block : List UInt8) : Five :=
  let w := schedule block
  let v := (List.range 80).foldl (round w) h
  ⟨h.a + v.a, h.b + v.b, h.c + v.c, h.d + v.d, h.e + v.e⟩

def new : BlockHash.Stream Five :=
  BlockHash.start shape64 ⟨0x67452301, 0xefcdab89, 0x98badcfe, 0x10325476, 0xc3d2e1f0⟩

def update : BlockHash.Stream Five → List UInt8 → BlockHash.Stream Five :=
  BlockHash.update shape64 processBlock

def finalize (s : BlockHash.Stream Five) : List UInt8 :=
  let h := BlockHash.finalize shape64 processBlock s
  [h.a, h.b, h.c, h.d, h.e].flatMap fun word => Bytes.be 4 word.toNat

end Sha1

/-! ### The SHA-2 family -/

section

variable {W : Type} [Add W] [AndOp W] [XorOp W] [Complement W]

/-- One round, with the constant and the word of its number. -/
def sha2Round (bigS0 bigS1 : W → W) (k w : W) (v : Eight W) : Eight W :=
  let t1 := v.h + bigS1 v.e + ((v.e &&& v.f) ^^^ (~~~v.e &&& v.g)) + k + w
  let t2 := bigS0 v.a + ((v.a &&& v.b) ^^^ (v.a &&& v.c) ^^^ (v.b &&& v.c))
  ⟨t1 + t2, v.a, v.b, v.c, v.d + t1, v.e, v.f, v.g⟩

/-- The block function of both word sizes, by their functions, constants and rounds. -/
def sha2Block (bigS0 bigS1 s0 s1 : W → W) (zero : W) (table : List W)
    (word : List UInt8 → Nat → W) (rounds : Nat) (h : Eight W) (block : List UInt8) : Eight W :=
  let w := grow (word block) (fun w i => w.getD (i - 16) zero + s0 (w.getD (i - 15) zero) +
    w.getD (i - 7) zero + s1 (w.getD (i - 2) zero)) rounds
  let v := (List.range rounds).foldl
    (fun v i => sha2Round bigS0 bigS1 (table.getD i zero) (w.getD i zero) v) h
  ⟨h.a + v.a, h.b + v.b, h.c + v.c, h.d + v.d, h.e + v.e, h.f + v.f, h.g + v.g, h.h + v.h⟩

end

namespace Sha256

def K : List UInt32 := [
    0x428a2f98, 0x71374491, 0xb5c0fbcf, 0xe9b5dba5, 0x3956c25b, 0x59f111f1, 0x923f82a4,
    0xab1c5ed5, 0xd807aa98, 0x12835b01, 0x243185be, 0x550c7dc3, 0x72be5d74, 0x80deb1fe,
    0x9bdc06a7, 0xc19bf174, 0xe49b69c1, 0xefbe4786, 0x0fc19dc6, 0x240ca1cc, 0x2de92c6f,
    0x4a7484aa, 0x5cb0a9dc, 0x76f988da, 0x983e5152, 0xa831c66d, 0xb00327c8, 0xbf597fc7,
    0xc6e00bf3, 0xd5a79147, 0x06ca6351, 0x14292967, 0x27b70a85, 0x2e1b2138, 0x4d2c6dfc,
    0x53380d13, 0x650a7354, 0x766a0abb, 0x81c2c92e, 0x92722c85, 0xa2bfe8a1, 0xa81a664b,
    0xc24b8b70, 0xc76c51a3, 0xd192e819, 0xd6990624, 0xf40e3585, 0x106aa070, 0x19a4c116,
    0x1e376c08, 0x2748774c, 0x34b0bcb5, 0x391c0cb3, 0x4ed8aa4a, 0x5b9cca4f, 0x682e6ff3,
    0x748f82ee, 0x78a5636f, 0x84c87814, 0x8cc70208, 0x90befffa, 0xa4506ceb, 0xbef9a3f7,
    0xc67178f2]

def processBlock : Eight UInt32 → List UInt8 → Eight UInt32 :=
  sha2Block (fun a => rotr32 2 a ^^^ rotr32 13 a ^^^ rotr32 22 a)
    (fun e => rotr32 6 e ^^^ rotr32 11 e ^^^ rotr32 25 e)
    (fun x => rotr32 7 x ^^^ rotr32 18 x ^^^ (x >>> 3))
    (fun x => rotr32 17 x ^^^ rotr32 19 x ^^^ (x >>> 10)) 0 K
    (fun block i => UInt32.ofNat (wordAt 4 block i)) 64

def new : BlockHash.Stream (Eight UInt32) :=
  BlockHash.start shape64 ⟨0x6a09e667, 0xbb67ae85, 0x3c6ef372, 0xa54ff53a, 0x510e527f, 0x9b05688c,
    0x1f83d9ab, 0x5be0cd19⟩

def update : BlockHash.Stream (Eight UInt32) → List UInt8 → BlockHash.Stream (Eight UInt32) :=
  BlockHash.update shape64 processBlock

def finalize (s : BlockHash.Stream (Eight UInt32)) : List UInt8 :=
  (BlockHash.finalize shape64 processBlock s).words.flatMap fun word => Bytes.be 4 word.toNat

/-- `sha256` of a whole message. -/
def digest (data : List UInt8) : List UInt8 := finalize (update new data)

theorem length_digest (data : List UInt8) : (digest data).length = 32 := rfl

/-- HMAC-SHA-256 with keys of a block at most. No crate here computes it: it is what the functions
that other modules are given come to where they are run. -/
def hmac (key data : List UInt8) : List UInt8 :=
  let block := key ++ List.replicate (64 - key.length) 0
  digest (block.map (0x5c ^^^ ·) ++ digest (block.map (0x36 ^^^ ·) ++ data))

theorem length_hmac (key data : List UInt8) : (hmac key data).length = 32 := length_digest _

end Sha256

namespace Core

def K : List UInt64 := [
    0x428a2f98d728ae22, 0x7137449123ef65cd, 0xb5c0fbcfec4d3b2f, 0xe9b5dba58189dbbc,
    0x3956c25bf348b538, 0x59f111f1b605d019, 0x923f82a4af194f9b, 0xab1c5ed5da6d8118,
    0xd807aa98a3030242, 0x12835b0145706fbe, 0x243185be4ee4b28c, 0x550c7dc3d5ffb4e2,
    0x72be5d74f27b896f, 0x80deb1fe3b1696b1, 0x9bdc06a725c71235, 0xc19bf174cf692694,
    0xe49b69c19ef14ad2, 0xefbe4786384f25e3, 0x0fc19dc68b8cd5b5, 0x240ca1cc77ac9c65,
    0x2de92c6f592b0275, 0x4a7484aa6ea6e483, 0x5cb0a9dcbd41fbd4, 0x76f988da831153b5,
    0x983e5152ee66dfab, 0xa831c66d2db43210, 0xb00327c898fb213f, 0xbf597fc7beef0ee4,
    0xc6e00bf33da88fc2, 0xd5a79147930aa725, 0x06ca6351e003826f, 0x142929670a0e6e70,
    0x27b70a8546d22ffc, 0x2e1b21385c26c926, 0x4d2c6dfc5ac42aed, 0x53380d139d95b3df,
    0x650a73548baf63de, 0x766a0abb3c77b2a8, 0x81c2c92e47edaee6, 0x92722c851482353b,
    0xa2bfe8a14cf10364, 0xa81a664bbc423001, 0xc24b8b70d0f89791, 0xc76c51a30654be30,
    0xd192e819d6ef5218, 0xd69906245565a910, 0xf40e35855771202a, 0x106aa07032bbd1b8,
    0x19a4c116b8d2d0c8, 0x1e376c085141ab53, 0x2748774cdf8eeb99, 0x34b0bcb5e19b48a8,
    0x391c0cb3c5c95a63, 0x4ed8aa4ae3418acb, 0x5b9cca4f7763e373, 0x682e6ff3d6b2b8a3,
    0x748f82ee5defb2fc, 0x78a5636f43172f60, 0x84c87814a1f0ab72, 0x8cc702081a6439ec,
    0x90befffa23631e28, 0xa4506cebde82bde9, 0xbef9a3f7b2c67915, 0xc67178f2e372532b,
    0xca273eceea26619c, 0xd186b8c721c0c207, 0xeada7dd6cde0eb1e, 0xf57d4f7fee6ed178,
    0x06f067aa72176fba, 0x0a637dc5a2c898a6, 0x113f9804bef90dae, 0x1b710b35131c471b,
    0x28db77f523047d84, 0x32caab7b40c72493, 0x3c9ebe0a15c9bebc, 0x431d67c49c100d4c,
    0x4cc5d4becb3e42b6, 0x597f299cfc657e2a, 0x5fcb6fab3ad6faec, 0x6c44198c4a475817]

def processBlock : Eight UInt64 → List UInt8 → Eight UInt64 :=
  sha2Block (fun a => rotr64 28 a ^^^ rotr64 34 a ^^^ rotr64 39 a)
    (fun e => rotr64 14 e ^^^ rotr64 18 e ^^^ rotr64 41 e)
    (fun x => rotr64 1 x ^^^ rotr64 8 x ^^^ (x >>> 7))
    (fun x => rotr64 19 x ^^^ rotr64 61 x ^^^ (x >>> 6)) 0 K
    (fun block i => UInt64.ofNat (wordAt 8 block i)) 80

def new : Eight UInt64 → BlockHash.Stream (Eight UInt64) := BlockHash.start shape128

def update : BlockHash.Stream (Eight UInt64) → List UInt8 → BlockHash.Stream (Eight UInt64) :=
  BlockHash.update shape128 processBlock

def finalize (s : BlockHash.Stream (Eight UInt64)) : List UInt8 :=
  (BlockHash.finalize shape128 processBlock s).words.flatMap fun word => Bytes.be 8 word.toNat

end Core

namespace Sha384

def new : BlockHash.Stream (Eight UInt64) :=
  Core.new ⟨0xcbbb9d5dc1059ed8, 0x629a292a367cd507, 0x9159015a3070dd17, 0x152fecd8f70e5939,
    0x67332667ffc00b31, 0x8eb44a8768581511, 0xdb0c2e0d64f98fa7, 0x47b5481dbefa4fa4⟩

def update : BlockHash.Stream (Eight UInt64) → List UInt8 → BlockHash.Stream (Eight UInt64) :=
  Core.update

def finalize (s : BlockHash.Stream (Eight UInt64)) : List UInt8 := (Core.finalize s).take 48

end Sha384

namespace Sha512

def new : BlockHash.Stream (Eight UInt64) :=
  Core.new ⟨0x6a09e667f3bcc908, 0xbb67ae8584caa73b, 0x3c6ef372fe94f82b, 0xa54ff53a5f1d36f1,
    0x510e527fade682d1, 0x9b05688c2b3e6c1f, 0x1f83d9abfb41bd6b, 0x5be0cd19137e2179⟩

def update : BlockHash.Stream (Eight UInt64) → List UInt8 → BlockHash.Stream (Eight UInt64) :=
  Core.update

def finalize : BlockHash.Stream (Eight UInt64) → List UInt8 := Core.finalize

end Sha512

end Keyroost.Proto
