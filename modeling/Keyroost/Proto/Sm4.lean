import Keyroost.Library.LeadingZeros
import Keyroost.Library.BlockModes

/-!
# The SM4 block cipher

The cipher of `keyroost-proto/src/sm4.rs` with its two modes. A block is four words. A round drops
the oldest word and puts in the newest, and the block comes out with its words in reverse.

The rounds are a network of `BlockModes`, so that decryption with the keys in reverse undoes them
whatever the round function is (`decryptBlock_encryptBlock`); only the tables and the linear parts
are particular to the cipher. `decryptEcb_encryptEcb` carries this to texts of whole blocks.
-/

namespace Keyroost.Proto

/-- `[u8; 16]`. -/
abbrev Bytes16 : Type := { bytes : List UInt8 // bytes.length = 16 }

namespace Sm4

/-! ### Tables -/

def SBOX : List UInt8 :=
  [0xD6, 0x90, 0xE9, 0xFE, 0xCC, 0xE1, 0x3D, 0xB7, 0x16, 0xB6, 0x14, 0xC2, 0x28, 0xFB, 0x2C, 0x05,
    0x2B, 0x67, 0x9A, 0x76, 0x2A, 0xBE, 0x04, 0xC3, 0xAA, 0x44, 0x13, 0x26, 0x49, 0x86, 0x06, 0x99,
    0x9C, 0x42, 0x50, 0xF4, 0x91, 0xEF, 0x98, 0x7A, 0x33, 0x54, 0x0B, 0x43, 0xED, 0xCF, 0xAC, 0x62,
    0xE4, 0xB3, 0x1C, 0xA9, 0xC9, 0x08, 0xE8, 0x95, 0x80, 0xDF, 0x94, 0xFA, 0x75, 0x8F, 0x3F, 0xA6,
    0x47, 0x07, 0xA7, 0xFC, 0xF3, 0x73, 0x17, 0xBA, 0x83, 0x59, 0x3C, 0x19, 0xE6, 0x85, 0x4F, 0xA8,
    0x68, 0x6B, 0x81, 0xB2, 0x71, 0x64, 0xDA, 0x8B, 0xF8, 0xEB, 0x0F, 0x4B, 0x70, 0x56, 0x9D, 0x35,
    0x1E, 0x24, 0x0E, 0x5E, 0x63, 0x58, 0xD1, 0xA2, 0x25, 0x22, 0x7C, 0x3B, 0x01, 0x21, 0x78, 0x87,
    0xD4, 0x00, 0x46, 0x57, 0x9F, 0xD3, 0x27, 0x52, 0x4C, 0x36, 0x02, 0xE7, 0xA0, 0xC4, 0xC8, 0x9E,
    0xEA, 0xBF, 0x8A, 0xD2, 0x40, 0xC7, 0x38, 0xB5, 0xA3, 0xF7, 0xF2, 0xCE, 0xF9, 0x61, 0x15, 0xA1,
    0xE0, 0xAE, 0x5D, 0xA4, 0x9B, 0x34, 0x1A, 0x55, 0xAD, 0x93, 0x32, 0x30, 0xF5, 0x8C, 0xB1, 0xE3,
    0x1D, 0xF6, 0xE2, 0x2E, 0x82, 0x66, 0xCA, 0x60, 0xC0, 0x29, 0x23, 0xAB, 0x0D, 0x53, 0x4E, 0x6F,
    0xD5, 0xDB, 0x37, 0x45, 0xDE, 0xFD, 0x8E, 0x2F, 0x03, 0xFF, 0x6A, 0x72, 0x6D, 0x6C, 0x5B, 0x51,
    0x8D, 0x1B, 0xAF, 0x92, 0xBB, 0xDD, 0xBC, 0x7F, 0x11, 0xD9, 0x5C, 0x41, 0x1F, 0x10, 0x5A, 0xD8,
    0x0A, 0xC1, 0x31, 0x88, 0xA5, 0xCD, 0x7B, 0xBD, 0x2D, 0x74, 0xD0, 0x12, 0xB8, 0xE5, 0xB4, 0xB0,
    0x89, 0x69, 0x97, 0x4A, 0x0C, 0x96, 0x77, 0x7E, 0x65, 0xB9, 0xF1, 0x09, 0xC5, 0x6E, 0xC6, 0x84,
    0x18, 0xF0, 0x7D, 0xEC, 0x3A, 0xDC, 0x4D, 0x20, 0x79, 0xEE, 0x5F, 0x3E, 0xD7, 0xCB, 0x39, 0x48]

/-- Four words: a block, or the newest four of the source's array. -/
structure Words where
  a : UInt32
  b : UInt32
  c : UInt32
  d : UInt32
deriving DecidableEq, Repr

def FK : Words := ⟨0xA3B1BAC6, 0x56AA3350, 0x677D9197, 0xB27022DC⟩

def CK : List UInt32 :=
  (List.range 32).map fun i =>
    let b (j : Nat) : UInt32 := (((4 * i + j) * 7) &&& 0xFF).toUInt32
    b 0 <<< 24 ||| b 1 <<< 16 ||| b 2 <<< 8 ||| b 3

/-! ### Rounds -/

def sbox (b : UInt32) : UInt32 := (SBOX.getD b.toNat 0).toUInt32

def tau (a : UInt32) : UInt32 :=
  sbox ((a >>> 24) &&& 0xFF) <<< 24 ||| sbox ((a >>> 16) &&& 0xFF) <<< 16 |||
    sbox ((a >>> 8) &&& 0xFF) <<< 8 ||| sbox (a &&& 0xFF)

def rotateLeft (b n : UInt32) : UInt32 := b <<< n ||| b >>> (32 - n)

def lRound (b : UInt32) : UInt32 :=
  b ^^^ rotateLeft b 2 ^^^ rotateLeft b 10 ^^^ rotateLeft b 18 ^^^ rotateLeft b 24

def lKey (b : UInt32) : UInt32 := b ^^^ rotateLeft b 13 ^^^ rotateLeft b 23

def tRound (x : UInt32) : UInt32 := lRound (tau x)

def tKey (x : UInt32) : UInt32 := lKey (tau x)

/-- One turn of a loop over the array of words. -/
def step (t : UInt32 → UInt32) (x : Words) (k : UInt32) : Words :=
  ⟨x.b, x.c, x.d, x.a ^^^ t (x.b ^^^ x.c ^^^ x.d ^^^ k)⟩

def turn (x : Words) : Words := ⟨x.d, x.c, x.b, x.a⟩

/-! ### Words and bytes -/

/-- `u32::from_be_bytes`. -/
def word (bytes : List UInt8) : UInt32 := (Bytes.ofBe bytes).toUInt32

def Words.ofBytes (block : List UInt8) : Words :=
  ⟨word (block.take 4), word ((block.drop 4).take 4), word ((block.drop 8).take 4),
    word ((block.drop 12).take 4)⟩

def Words.bytes (x : Words) : List UInt8 :=
  Bytes.be 4 x.a.toNat ++ Bytes.be 4 x.b.toNat ++ Bytes.be 4 x.c.toNat ++ Bytes.be 4 x.d.toNat

end Sm4

/-! ### The cipher -/

/-- The round keys. -/
structure Sm4 where
  rk : List UInt32
deriving DecidableEq, Repr

namespace Sm4

/-- The words that a loop over `keys` appends. -/
def appended (t : UInt32 → UInt32) : List UInt32 → Words → List UInt32
  | [], _ => []
  | k :: keys, x => (step t x k).d :: appended t keys (step t x k)

def new (key : Bytes16) : Sm4 :=
  let k := Words.ofBytes key.val
  ⟨appended tKey CK ⟨k.a ^^^ FK.a, k.b ^^^ FK.b, k.c ^^^ FK.c, k.d ^^^ FK.d⟩⟩

def encryptBlock (cipher : Sm4) (block : List UInt8) : List UInt8 :=
  (Network.run (step tRound) turn cipher.rk (.ofBytes block)).bytes

def decryptBlock (cipher : Sm4) (block : List UInt8) : List UInt8 :=
  (Network.run (step tRound) turn cipher.rk.reverse (.ofBytes block)).bytes

/-- A function on each block of sixteen bytes. -/
def onBlocks (f : List UInt8 → List UInt8) : Nat → List UInt8 → List UInt8
  | 0, _ => []
  | n + 1, data => f (data.take 16) ++ onBlocks f n (data.drop 16)

/-- Whole blocks: the source panics on others. -/
def encryptEcb (cipher : Sm4) (data : List UInt8) : List UInt8 :=
  onBlocks cipher.encryptBlock (data.length / 16) data

/-- The inverse of ECB, block by block. -/
def decryptEcb (cipher : Sm4) (data : List UInt8) : List UInt8 :=
  onBlocks cipher.decryptBlock (data.length / 16) data

def encryptCbcFrom (cipher : Sm4) : Nat → List UInt8 → List UInt8 → List UInt8
  | 0, _, _ => []
  | n + 1, prev, data =>
      let block := cipher.encryptBlock (List.zipWith (· ^^^ ·) (data.take 16) prev)
      block ++ encryptCbcFrom cipher n block (data.drop 16)

def encryptCbc (cipher : Sm4) (iv data : List UInt8) : List UInt8 :=
  encryptCbcFrom cipher (data.length / 16) iv data

/-! ### Decryption undoes encryption -/

theorem word_be (w : UInt32) : word (Bytes.be 4 w.toNat) = w := by
  rw [word, Bytes.ofBe_be w.toNat_lt]
  exact UInt32.ofNat_toNat

theorem be_word {bytes : List UInt8} (h : bytes.length = 4) :
    Bytes.be 4 (word bytes).toNat = bytes := by
  have hlt : Bytes.ofBe bytes < 2 ^ 32 := by
    have hlt := Bytes.ofBe_lt bytes
    rwa [h] at hlt
  have hword : (word bytes).toNat = Bytes.ofBe bytes := by
    rw [word, Nat.toUInt32, UInt32.toNat_ofNat', Nat.mod_eq_of_lt hlt]
  refine Bytes.eq_of_ofBe_eq ?_ ?_
  · rw [Bytes.length_be, h]
  · rw [hword, Bytes.ofBe_be hlt]

theorem length_bytes (x : Words) : x.bytes.length = 16 := by
  simp only [Words.bytes, List.length_append, Bytes.length_be]

theorem ofBytes_bytes (x : Words) : Words.ofBytes x.bytes = x := by
  have hword : ∀ (front rest : List UInt8) (w : UInt32) (n : Nat), front.length = n →
      word (((front ++ (Bytes.be 4 w.toNat ++ rest)).drop n).take 4) = w := by
    intro front rest w n hn
    rw [List.drop_left' hn, List.take_left' (Bytes.length_be 4 _), word_be]
  have ha := hword [] (Bytes.be 4 x.b.toNat ++ (Bytes.be 4 x.c.toNat ++ Bytes.be 4 x.d.toNat))
    x.a 0 rfl
  have hb := hword (Bytes.be 4 x.a.toNat) (Bytes.be 4 x.c.toNat ++ Bytes.be 4 x.d.toNat) x.b 4
    (Bytes.length_be 4 _)
  have hc := hword (Bytes.be 4 x.a.toNat ++ Bytes.be 4 x.b.toNat) (Bytes.be 4 x.d.toNat) x.c 8
    (by simp only [List.length_append, Bytes.length_be])
  have hd := hword (Bytes.be 4 x.a.toNat ++ Bytes.be 4 x.b.toNat ++ Bytes.be 4 x.c.toNat) [] x.d
    12 (by simp only [List.length_append, Bytes.length_be])
  simp only [List.nil_append, List.append_nil, List.append_assoc, List.drop_zero] at ha hb hc hd
  simp only [Words.ofBytes, Words.bytes, List.append_assoc, ha, hb, hc, hd]

theorem bytes_ofBytes {block : List UInt8} (h : block.length = 16) :
    (Words.ofBytes block).bytes = block := by
  have htake : ∀ n, n + 4 ≤ 16 → ((block.drop n).take 4).length = 4 := by
    intro n hn
    rw [List.length_take, List.length_drop]
    omega
  have hfirst := htake 0 (by decide)
  rw [List.drop_zero] at hfirst
  rw [Words.bytes, Words.ofBytes, be_word hfirst, be_word (htake 4 (by decide)),
    be_word (htake 8 (by decide)), be_word (htake 12 (by decide)), ← List.take_add,
    ← List.take_add, ← List.take_add]
  exact List.take_of_length_le (Nat.le_of_eq h)

/-- A round between two turns takes itself back. -/
theorem step_turn (t : UInt32 → UInt32) (x : Words) (k : UInt32) :
    step t (turn (step t x k)) k = turn x := by
  obtain ⟨a, b, c, d⟩ := x
  have hmix : d ^^^ c ^^^ b ^^^ k = b ^^^ c ^^^ d ^^^ k := by
    rw [UInt32.xor_comm d c, UInt32.xor_comm (c ^^^ d) b, UInt32.xor_assoc b c d]
  have hback : a ^^^ t (b ^^^ c ^^^ d ^^^ k) ^^^ t (d ^^^ c ^^^ b ^^^ k) = a := by
    rw [hmix, UInt32.xor_assoc, UInt32.xor_self, UInt32.xor_zero]
  exact congrArg (Words.mk d c b) hback

theorem decryptBlock_encryptBlock (cipher : Sm4) {block : List UInt8} (h : block.length = 16) :
    cipher.decryptBlock (cipher.encryptBlock block) = block := by
  rw [decryptBlock, encryptBlock, ofBytes_bytes,
    Network.run_reverse (fun _ => rfl) (step_turn tRound), bytes_ofBytes h]

theorem length_encryptBlock (cipher : Sm4) (block : List UInt8) :
    (cipher.encryptBlock block).length = 16 := length_bytes _

theorem onBlocks_onBlocks {f g : List UInt8 → List UInt8} (hlen : ∀ b, (f b).length = 16)
    (hback : ∀ b, b.length = 16 → g (f b) = b) {n : Nat} {data : List UInt8}
    (h : data.length = 16 * n) : onBlocks g n (onBlocks f n data) = data := by
  induction n generalizing data with
  | zero => exact (List.eq_nil_of_length_eq_zero h).symm
  | succ n ih =>
      have htake : (data.take 16).length = 16 := by
        rw [List.length_take]
        omega
      have hdrop : (data.drop 16).length = 16 * n := by
        rw [List.length_drop]
        omega
      rw [onBlocks, onBlocks, List.take_left' (hlen _), List.drop_left' (hlen _), hback _ htake,
        ih hdrop, List.take_append_drop]

theorem length_onBlocks {f : List UInt8 → List UInt8} (hlen : ∀ b, (f b).length = 16) (n : Nat)
    (data : List UInt8) : (onBlocks f n data).length = 16 * n := by
  induction n generalizing data with
  | zero => rfl
  | succ n ih =>
      rw [onBlocks, List.length_append, hlen, ih]
      omega

theorem length_encryptEcb (cipher : Sm4) {data : List UInt8} (h : 16 ∣ data.length) :
    (cipher.encryptEcb data).length = data.length := by
  rw [encryptEcb, length_onBlocks cipher.length_encryptBlock, Nat.mul_div_cancel' h]

/-- **Decryption with the same key** gives the blocks that were encrypted. -/
theorem decryptEcb_encryptEcb (cipher : Sm4) {data : List UInt8} (h : 16 ∣ data.length) :
    cipher.decryptEcb (cipher.encryptEcb data) = data := by
  rw [decryptEcb, length_encryptEcb cipher h, encryptEcb]
  exact onBlocks_onBlocks cipher.length_encryptBlock (fun _ => cipher.decryptBlock_encryptBlock)
    (Nat.mul_div_cancel' h).symm

end Sm4

end Keyroost.Proto
