import Mathlib.Data.List.Basic
import Mathlib.GroupTheory.Perm.List

/-!
# Block ciphers and their modes

Three ways of putting a cipher together, each over functions on blocks that are given:

* a cipher from a network of rounds, which the keys in reverse undo (`run_reverse`);
* chaining: each block is combined with the cipher of the one before it
  (`decryptFrom_encryptFrom`);
* feedback: a text of any length is combined with the cipher of what came before, and the same
  pass with the two sides exchanged takes it back.

`Cycles` makes a permutation of blocks from lists of them, each block going to the one after it.
Known pairs of a real cipher become a block function in this way, one that can be undone and keeps
the length of blocks.
-/

/-! ### Networks of rounds that undo themselves

A round under a key is undone by the same round between two turns of the state, as in a
Feistel network. Then the whole network is undone by the network with its keys in reverse. -/

namespace Network

variable {σ κ : Type} {round : σ → κ → σ} {turn : σ → σ}

/-- The state, turned, of the whole network. -/
def run (round : σ → κ → σ) (turn : σ → σ) (keys : List κ) (s : σ) : σ :=
  turn (keys.foldl round s)

theorem foldl_reverse (hround : ∀ s k, round (turn (round s k)) k = turn s) (keys : List κ) (s : σ) :
    keys.reverse.foldl round (turn (keys.foldl round s)) = turn s := by
  induction keys generalizing s with
  | nil => rfl
  | cons k keys ih =>
      rw [List.foldl_cons, List.reverse_cons, List.foldl_append, ih, List.foldl_cons,
        List.foldl_nil, hround]

/-- **The keys in reverse undo a network.** -/
theorem run_reverse (hturn : ∀ s, turn (turn s) = s)
    (hround : ∀ s k, round (turn (round s k)) k = turn s) (keys : List κ) (s : σ) :
    run round turn keys.reverse (run round turn keys s) = s := by
  rw [run, run, foldl_reverse hround, hturn]

end Network

/-! ### Modes of a block cipher

Chaining and feedback: blocks under a block cipher, each combined with the one before it. -/

/-! ### Block chaining

Whole blocks under a block cipher, each combined with the one before it. Nothing is padded. -/

namespace Cbc

/-- Two blocks, byte by byte. -/
def xor (a b : List UInt8) : List UInt8 := List.zipWith (· ^^^ ·) a b

variable (f g : List UInt8 → List UInt8) (size : Nat)

/-- So many blocks of `data`, the first combined with `prev`. -/
def encryptFrom : Nat → List UInt8 → List UInt8 → List UInt8
  | 0, _, _ => []
  | n + 1, prev, data =>
      let block := f (xor (data.take size) prev)
      block ++ encryptFrom n block (data.drop size)

def decryptFrom : Nat → List UInt8 → List UInt8 → List UInt8
  | 0, _, _ => []
  | n + 1, prev, data =>
      xor (g (data.take size)) prev ++ decryptFrom n (data.take size) (data.drop size)

variable {f g size}

theorem length_xor {a b : List UInt8} (h : b.length = a.length) : (xor a b).length = a.length := by
  rw [xor, List.length_zipWith, h, Nat.min_self]

/-- What is combined twice with the same block is as it was. -/
theorem xor_xor {a b : List UInt8} (h : b.length = a.length) : xor (xor a b) b = a := by
  induction a generalizing b with
  | nil => rfl
  | cons x a ih =>
      obtain ⟨y, b, rfl⟩ : ∃ y b', b = y :: b' := List.exists_cons_of_length_eq_add_one h
      have hrest := ih (Nat.succ.inj h)
      rw [xor, xor] at hrest
      rw [xor, xor, List.zipWith_cons_cons, List.zipWith_cons_cons, hrest, UInt8.xor_assoc,
        UInt8.xor_self, UInt8.xor_zero]

theorem length_block {n : Nat} {data : List UInt8} (h : data.length = size * (n + 1)) :
    (data.take size).length = size ∧ (data.drop size).length = size * n := by
  rw [Nat.mul_succ] at h
  constructor
  · rw [List.length_take, h, Nat.min_eq_left (Nat.le_add_left _ _)]
  · rw [List.length_drop, h, Nat.add_sub_cancel]

theorem length_encryptFrom (hf : ∀ b, b.length = size → (f b).length = size) {n : Nat}
    {prev data : List UInt8} (hprev : prev.length = size) (h : data.length = size * n) :
    (encryptFrom f size n prev data).length = data.length := by
  induction n generalizing prev data with
  | zero => exact h.symm
  | succ n ih =>
      obtain ⟨htake, hdrop⟩ := length_block h
      have hblock : (f (xor (data.take size) prev)).length = size :=
        hf _ (by rw [length_xor (hprev.trans htake.symm), htake])
      rw [encryptFrom, List.length_append, ih hblock hdrop, hblock, hdrop, h, Nat.mul_succ,
        Nat.add_comm]

/-- **What was encrypted comes back**, from the same block before the first. -/
theorem decryptFrom_encryptFrom (hf : ∀ b, b.length = size → (f b).length = size)
    (hg : ∀ b, b.length = size → g (f b) = b) {n : Nat} {prev data : List UInt8}
    (hprev : prev.length = size) (h : data.length = size * n) :
    decryptFrom g size n prev (encryptFrom f size n prev data) = data := by
  induction n generalizing prev data with
  | zero => exact (List.eq_nil_of_length_eq_zero h).symm
  | succ n ih =>
      obtain ⟨htake, hdrop⟩ := length_block h
      have hsame : prev.length = (data.take size).length := hprev.trans htake.symm
      have hmixed : (xor (data.take size) prev).length = size := by rw [length_xor hsame, htake]
      have hblock := hf _ hmixed
      rw [encryptFrom, decryptFrom, List.take_left' hblock, List.drop_left' hblock, hg _ hmixed,
        xor_xor hsame, ih hblock hdrop, List.take_append_drop]

end Cbc

/-! ### Cipher feedback

Chunks of at most a block under a block cipher, each combined with the cipher of the one before
it. The last may be short. -/

namespace Cfb

variable (f : List UInt8 → List UInt8) (size : Nat)

/-- What is fed back of a chunk, a short one filled up with zero bytes. -/
def feedback (ct : List UInt8) : List UInt8 := ct ++ List.replicate (size - ct.length) 0

def pass (decrypt : Bool) : List UInt8 → List (List UInt8) → List (List UInt8)
  | _, [] => []
  | fb, chunk :: rest =>
      let text := Cbc.xor chunk (f fb)
      text :: pass decrypt (feedback size (if decrypt then chunk else text)) rest

variable {f size}

theorem length_feedback {ct : List UInt8} (h : ct.length ≤ size) :
    (feedback size ct).length = size := by
  rw [feedback, List.length_append, List.length_replicate, Nat.add_sub_cancel' h]

theorem length_xor_of_le {a b : List UInt8} (h : a.length ≤ b.length) :
    (Cbc.xor a b).length = a.length := by
  rw [Cbc.xor, List.length_zipWith, Nat.min_eq_left h]

theorem xor_xor_of_le {a b : List UInt8} (h : a.length ≤ b.length) :
    Cbc.xor (Cbc.xor a b) b = a := by
  induction a generalizing b with
  | nil => rfl
  | cons x a ih =>
      rcases b with _ | ⟨y, b⟩
      · cases h
      have hrest := ih (Nat.le_of_succ_le_succ h)
      rw [Cbc.xor, Cbc.xor] at hrest
      rw [Cbc.xor, Cbc.xor, List.zipWith_cons_cons, List.zipWith_cons_cons, hrest, UInt8.xor_assoc,
        UInt8.xor_self, UInt8.xor_zero]

theorem map_length_pass (hf : ∀ b, b.length = size → (f b).length = size) (decrypt : Bool)
    {fb : List UInt8} {chunks : List (List UInt8)} (hfb : fb.length = size)
    (hchunks : ∀ c ∈ chunks, c.length ≤ size) :
    (pass f size decrypt fb chunks).map List.length = chunks.map List.length := by
  induction chunks generalizing fb with
  | nil => rfl
  | cons c chunks ih =>
      rw [List.forall_mem_cons] at hchunks
      have htext : (Cbc.xor c (f fb)).length = c.length :=
        length_xor_of_le (by rw [hf fb hfb]; exact hchunks.1)
      have hnext : (feedback size (if decrypt then c else Cbc.xor c (f fb))).length = size := by
        refine length_feedback ?_
        split
        · exact hchunks.1
        · rw [htext]
          exact hchunks.1
      rw [pass, List.map_cons, List.map_cons, htext, ih hnext hchunks.2]

/-- Decryption undoes encryption, whatever the length of the last chunk. -/
theorem pass_pass (hf : ∀ b, b.length = size → (f b).length = size) {fb : List UInt8}
    {chunks : List (List UInt8)} (hfb : fb.length = size)
    (hchunks : ∀ c ∈ chunks, c.length ≤ size) :
    pass f size true fb (pass f size false fb chunks) = chunks := by
  induction chunks generalizing fb with
  | nil => rfl
  | cons c chunks ih =>
      rw [List.forall_mem_cons] at hchunks
      have hle : c.length ≤ (f fb).length := by
        rw [hf fb hfb]
        exact hchunks.1
      have hnext : (feedback size (Cbc.xor c (f fb))).length = size := by
        refine length_feedback ?_
        rw [length_xor_of_le hle]
        exact hchunks.1
      have hrest := ih hnext hchunks.2
      rw [pass, pass, xor_xor_of_le hle]
      exact congrArg (c :: ·) hrest

end Cfb

/-! ### Ciphers of which a few values are known

A permutation that takes each block of some lists to the next one of its list. Where no block is
in two places, this is any cipher on the blocks but the last of each list, and it has an inverse
whatever the blocks are. -/

namespace Cycles

variable {α : Type} [DecidableEq α]

/-- Each block to the one after it, and the last of a list to the first. -/
def perm (chains : List (List α)) : Equiv.Perm α :=
  chains.foldr (fun chain rest => chain.formPerm.trans rest) (Equiv.refl α)

/-- What all blocks of the lists have, a block has after if it had it before. -/
theorem perm_keeps {P : α → Prop} {chains : List (List α)} (h : ∀ chain ∈ chains, ∀ b ∈ chain, P b)
    {a : α} (ha : P a) : P (perm chains a) := by
  induction chains generalizing a with
  | nil => exact ha
  | cons chain chains ih =>
      have hrest := fun c hc => h c (List.mem_cons_of_mem chain hc)
      have hnext : P (chain.formPerm a) := by
        by_cases hmem : a ∈ chain
        · exact h chain List.mem_cons_self _ (List.formPerm_apply_mem_of_mem hmem)
        · rwa [List.formPerm_apply_of_notMem hmem]
      exact ih hrest hnext

end Cycles
