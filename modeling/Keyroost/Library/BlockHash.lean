import Keyroost.Library.Bytes
import Mathlib.Data.List.Basic
import Mathlib.Algebra.Order.Group.Nat

/-!
# Hashes over blocks

A message is padded to whole blocks, a mark and zeros and its length in bits, and a compression
function goes over the blocks (`BlockHash.hash`). The size of a block and of the length field and
the compression function are parameters, so one development serves a whole family of hashes.

An implementation is fed piece by piece: a `Stream` keeps the chaining value, the bytes of a block
that is not yet full and the number of bytes so far. `update_feeds` says what one piece does to it,
`foldl_update_feeds` what any pieces do, and `stream_eq_hash` that the hash does not depend on how
the message was cut up, as long as its length in bits fits the field.
-/

namespace BlockHash

/-- The size of a block and of the length field at its end, in bytes. A padded message is a whole
number of blocks because there is room for the field. -/
structure Shape where
  size : Nat
  field : Nat
  room : field < size

/-! ### The hash of a message -/

section

variable {σ : Type} (shape : Shape) (compress : σ → List UInt8 → σ)

/-- The whole blocks of some bytes. -/
def blocksOf (data : List UInt8) : List (List UInt8) :=
  (List.range (data.length / shape.size)).map fun i => (data.drop (shape.size * i)).take shape.size

def overBlocks (h : σ) (data : List UInt8) : σ := (blocksOf shape data).foldl compress h

/-- So many zeros that, with a byte in front and the length behind, the last block is full. -/
def zeros (len : Nat) : Nat :=
  (shape.size - (len + 1 + shape.field) % shape.size) % shape.size

def pad (message : List UInt8) : List UInt8 :=
  message ++ 0x80 :: (List.replicate (zeros shape message.length) 0 ++
    Bytes.be shape.field (8 * message.length))

def hash (iv : σ) (message : List UInt8) : σ := overBlocks shape compress iv (pad shape message)

/-! ### The hash fed piece by piece -/

structure Stream (σ : Type) where
  h : σ
  buf : List UInt8
  bufLen : Nat
  totalBits : Nat

/-- Bytes written over those at an index. -/
def writeAt (buf : List UInt8) (i : Nat) (bytes : List UInt8) : List UInt8 :=
  buf.take i ++ bytes ++ buf.drop (i + bytes.length)

def start (iv : σ) : Stream σ := ⟨iv, List.replicate shape.size 0, 0, 0⟩

/-- Whole blocks from the front of the data, and what is left: so many turns at most. -/
def takeBlocks : Nat → σ → List UInt8 → σ × List UInt8
  | 0, h, data => (h, data)
  | turns + 1, h, data =>
      if shape.size ≤ data.length then
        takeBlocks turns (compress h (data.take shape.size)) (data.drop shape.size)
      else (h, data)

/-- What a buffer that has bytes takes from the data, and the data behind it. -/
def fill (s : Stream σ) (data : List UInt8) : Stream σ × List UInt8 :=
  if 0 < s.bufLen then
    let take := min (shape.size - s.bufLen) data.length
    let buf := writeAt s.buf s.bufLen (data.take take)
    let bufLen := s.bufLen + take
    if bufLen = shape.size then
      ({ s with h := compress s.h buf, buf, bufLen := 0 }, data.drop take)
    else ({ s with buf, bufLen }, data.drop take)
  else (s, data)

def update (s : Stream σ) (data : List UInt8) : Stream σ :=
  let totalBits := (s.totalBits + 8 * data.length) % 256 ^ shape.field
  let (s, data) := fill shape compress s data
  let (h, rest) := takeBlocks shape compress data.length s.h data
  if rest = [] then { s with h, totalBits }
  else ⟨h, writeAt s.buf 0 rest, rest.length, totalBits⟩

def finalize (s : Stream σ) : σ :=
  let buf := writeAt s.buf s.bufLen [0x80]
  let bufLen := s.bufLen + 1
  let (h, buf, bufLen) :=
    if shape.size - shape.field < bufLen then
      let buf := writeAt buf bufLen (List.replicate (shape.size - bufLen) 0)
      (compress s.h buf, buf, 0)
    else (s.h, buf, bufLen)
  let buf := writeAt buf bufLen (List.replicate (shape.size - shape.field - bufLen) 0)
  let buf := writeAt buf (shape.size - shape.field) (Bytes.be shape.field s.totalBits)
  compress h buf

end

/-! ### Blocks -/

section

variable {σ : Type} {shape : Shape} {compress : σ → List UInt8 → σ}

theorem overBlocks_short {data : List UInt8} (h : data.length < shape.size) (iv : σ) :
    overBlocks shape compress iv data = iv := by
  rw [overBlocks, blocksOf, Nat.div_eq_of_lt h]
  rfl

theorem overBlocks_nil (iv : σ) : overBlocks shape compress iv [] = iv := by
  refine overBlocks_short ?_ iv
  exact Nat.zero_lt_of_lt shape.room

theorem overBlocks_block {block : List UInt8} (h : block.length = shape.size) (iv : σ)
    (data : List UInt8) :
    overBlocks shape compress iv (block ++ data) =
      overBlocks shape compress (compress iv block) data := by
  have hpos : 0 < shape.size := Nat.zero_lt_of_lt shape.room
  have hcount : (block ++ data).length / shape.size = data.length / shape.size + 1 := by
    rw [List.length_append, h, Nat.add_div_left _ hpos]
  have hfirst : ((block ++ data).drop (shape.size * 0)).take shape.size = block := by
    rw [Nat.mul_zero, List.drop_zero, ← h, List.take_left]
  have hrest : ∀ i, ((block ++ data).drop (shape.size * (i + 1))).take shape.size =
      (data.drop (shape.size * i)).take shape.size := by
    intro i
    have hdrop : (block ++ data).drop shape.size = data := by
      rw [← h, List.drop_left]
    rw [Nat.mul_succ, Nat.add_comm, ← List.drop_drop, hdrop]
  rw [overBlocks, overBlocks, blocksOf, hcount, List.range_succ_eq_map, List.map_cons, hfirst,
    List.foldl_cons, List.map_map, blocksOf]
  exact congrArg (List.foldl compress _) (List.map_congr_left fun i _ => hrest i)

theorem overBlocks_append {front : List UInt8} {n : Nat} (h : front.length = shape.size * n)
    (iv : σ) (data : List UInt8) :
    overBlocks shape compress iv (front ++ data) =
      overBlocks shape compress (overBlocks shape compress iv front) data := by
  induction n generalizing front iv with
  | zero =>
      obtain rfl := List.eq_nil_of_length_eq_zero h
      rw [List.nil_append, overBlocks_nil]
  | succ n ih =>
      have hblock : (front.take shape.size).length = shape.size := by
        rw [List.length_take, h, Nat.mul_succ]
        omega
      have hrest : (front.drop shape.size).length = shape.size * n := by
        rw [List.length_drop, h, Nat.mul_succ]
        omega
      rw [← List.take_append_drop shape.size front, List.append_assoc, overBlocks_block hblock,
        overBlocks_block hblock, ih hrest]

theorem takeBlocks_eq {turns : Nat} {data : List UInt8} (h : data.length ≤ turns) (iv : σ) :
    ∃ front rest n, data = front ++ rest ∧ front.length = shape.size * n ∧
      rest.length < shape.size ∧
      takeBlocks shape compress turns iv data = (overBlocks shape compress iv front, rest) := by
  have hpos : 0 < shape.size := Nat.zero_lt_of_lt shape.room
  induction turns generalizing data iv with
  | zero =>
      obtain rfl := List.eq_nil_of_length_eq_zero (Nat.le_zero.mp h)
      refine ⟨[], [], 0, rfl, rfl, hpos, ?_⟩
      rw [overBlocks_nil]
      rfl
  | succ turns ih =>
      rw [takeBlocks]
      by_cases hmore : shape.size ≤ data.length
      · have hblock : (data.take shape.size).length = shape.size := by
          rw [List.length_take, min_eq_left hmore]
        have hleft : (data.drop shape.size).length ≤ turns := by
          rw [List.length_drop]
          omega
        obtain ⟨front, rest, n, hsplit, hfront, hrest, htake⟩ :=
          ih hleft (compress iv (data.take shape.size))
        refine ⟨data.take shape.size ++ front, rest, n + 1, ?_, ?_, hrest, ?_⟩
        · rw [List.append_assoc, ← hsplit, List.take_append_drop]
        · rw [List.length_append, hblock, hfront, Nat.mul_succ, Nat.add_comm]
        · rw [if_pos hmore, htake, overBlocks_block hblock]
      · refine ⟨[], data, 0, rfl, rfl, Nat.lt_of_not_le hmore, ?_⟩
        rw [if_neg hmore, overBlocks_nil]

/-! ### The buffer -/

theorem length_writeAt {buf bytes : List UInt8} {i : Nat} (h : i + bytes.length ≤ buf.length) :
    (writeAt buf i bytes).length = buf.length := by
  rw [writeAt, List.length_append, List.length_append, List.length_take, List.length_drop]
  omega

/-- What stands in front of the end of what was written. -/
theorem take_writeAt {buf : List UInt8} (bytes : List UInt8) {i : Nat} (h : i ≤ buf.length) :
    (writeAt buf i bytes).take (i + bytes.length) = buf.take i ++ bytes := by
  have hlength : (buf.take i ++ bytes).length = i + bytes.length := by
    rw [List.length_append, List.length_take, min_eq_left h]
  rw [writeAt, ← hlength, List.take_left]

theorem writeAt_eq {buf bytes : List UInt8} {i : Nat} (h : buf.length = i + bytes.length) :
    writeAt buf i bytes = buf.take i ++ bytes := by
  rw [writeAt, List.drop_eq_nil_of_le h.le, List.append_nil]

/-! ### Every way of feeding -/

/-- The stream has gone over the whole blocks of the message and keeps the rest. -/
def Feeds (shape : Shape) (compress : σ → List UInt8 → σ) (iv : σ) (message : List UInt8)
    (s : Stream σ) : Prop :=
  ∃ front n, message = front ++ s.buf.take s.bufLen ∧ front.length = shape.size * n ∧
    s.h = overBlocks shape compress iv front ∧ s.buf.length = shape.size ∧ s.bufLen < shape.size

theorem feeds_start (iv : σ) : Feeds shape compress iv [] (start shape iv) := by
  refine ⟨[], 0, rfl, rfl, (overBlocks_nil iv).symm, List.length_replicate, ?_⟩
  exact Nat.zero_lt_of_lt shape.room

theorem fill_feeds {iv : σ} {message : List UInt8} {s : Stream σ}
    (h : Feeds shape compress iv message s) (data : List UInt8) :
    ∃ used rest, data = used ++ rest ∧ (fill shape compress s data).2 = rest ∧
      Feeds shape compress iv (message ++ used) (fill shape compress s data).1 ∧
      (rest = [] ∨ (fill shape compress s data).1.bufLen = 0) := by
  rw [fill]
  by_cases hsome : 0 < s.bufLen
  · obtain ⟨front, n, hmessage, hfront, hh, hbuf, hlen⟩ := h
    have hused : (data.take (min (shape.size - s.bufLen) data.length)).length =
        min (shape.size - s.bufLen) data.length := by
      rw [List.length_take]
      omega
    have hroom : s.bufLen + (data.take (min (shape.size - s.bufLen) data.length)).length ≤
        s.buf.length := by
      rw [hused]
      omega
    have hwritten := take_writeAt (data.take (min (shape.size - s.bufLen) data.length))
      (Nat.le_of_add_right_le hroom)
    have hsize := length_writeAt hroom
    rw [hused] at hwritten
    rw [if_pos hsome]
    dsimp only
    refine ⟨data.take (min (shape.size - s.bufLen) data.length),
      data.drop (min (shape.size - s.bufLen) data.length),
      (List.take_append_drop _ _).symm, ?_⟩
    by_cases hfull : s.bufLen + min (shape.size - s.bufLen) data.length = shape.size
    · rw [if_pos hfull]
      rw [hfull, List.take_of_length_le (by omega)] at hwritten
      refine ⟨rfl, ⟨message ++ data.take (min (shape.size - s.bufLen) data.length), n + 1,
        (List.append_nil _).symm, ?_, ?_, hsize.trans hbuf, Nat.zero_lt_of_lt shape.room⟩, .inr rfl⟩
      · rw [hmessage, List.append_assoc, ← hwritten, List.length_append, hsize, hfront, hbuf,
          Nat.mul_succ]
      · have hnil : overBlocks shape compress (overBlocks shape compress iv front)
            (writeAt s.buf s.bufLen (data.take (min (shape.size - s.bufLen) data.length)) ++ []) =
            _ := overBlocks_block (hsize.trans hbuf) _ []
        rw [List.append_nil, overBlocks_nil] at hnil
        rw [hmessage, List.append_assoc, ← hwritten, overBlocks_append hfront, hnil]
        exact congrArg (compress · _) hh
    · rw [if_neg hfull]
      refine ⟨rfl, ⟨front, n, ?_, hfront, hh, hsize.trans hbuf, ?_⟩, .inl ?_⟩
      · dsimp only
        rw [hwritten, hmessage, List.append_assoc]
      · dsimp only
        omega
      · refine List.drop_eq_nil_of_le ?_
        omega
  · rw [if_neg hsome]
    refine ⟨[], data, rfl, rfl, ?_, .inr (Nat.eq_zero_of_not_pos hsome)⟩
    rw [List.append_nil]
    exact h

/-- **A piece** is taken in. -/
theorem update_feeds {iv : σ} {message : List UInt8} {s : Stream σ}
    (h : Feeds shape compress iv message s) (data : List UInt8) :
    Feeds shape compress iv (message ++ data) (update shape compress s data) := by
  obtain ⟨used, rest, hdata, hfill, hfed, hempty⟩ := fill_feeds h data
  rw [update]
  dsimp only
  generalize fill shape compress s data = filled at hfill hfed hempty ⊢
  obtain ⟨s', rest'⟩ := filled
  dsimp only at hfill hfed hempty ⊢
  subst hfill
  obtain ⟨front', n', hmessage, hfront, hh, hbuf, hlen⟩ := hfed
  obtain ⟨front, tail, n, hsplit, hwhole, htail, htake⟩ :=
    takeBlocks_eq (Nat.le_refl rest'.length) s'.h
  rw [htake]
  dsimp only
  rcases hempty with hnil | hzero
  · rw [hnil] at hsplit
    obtain ⟨rfl, rfl⟩ := List.nil_eq_append_iff.mp hsplit
    rw [if_pos rfl, overBlocks_nil, hdata, hnil, List.append_nil]
    exact ⟨front', n', hmessage, hfront, hh, hbuf, hlen⟩
  · rw [hzero, List.take_zero, List.append_nil] at hmessage
    have hover : overBlocks shape compress iv (front' ++ front) = _ :=
      overBlocks_append hfront iv front
    have hmore : (front' ++ front).length = shape.size * (n' + n) := by
      rw [List.length_append, hfront, hwhole, Nat.mul_add]
    rw [hdata, ← List.append_assoc, hmessage, hsplit, hh, ← hover]
    by_cases hend : tail = []
    · rw [if_pos hend, hend, List.append_nil]
      refine ⟨front' ++ front, n' + n, ?_, hmore, rfl, hbuf, hlen⟩
      dsimp only
      rw [hzero, List.take_zero, List.append_nil]
    · have hwrite : (writeAt s'.buf 0 tail).take tail.length = tail := by
        have hfirst := take_writeAt tail (Nat.zero_le s'.buf.length)
        rwa [Nat.zero_add, List.take_zero, List.nil_append] at hfirst
      rw [if_neg hend]
      refine ⟨front' ++ front, n' + n, ?_, hmore, rfl, ?_, htail⟩
      · dsimp only
        rw [hwrite, List.append_assoc]
      · exact (length_writeAt (by omega)).trans hbuf

theorem totalBits_update (s : Stream σ) (data : List UInt8) :
    (update shape compress s data).totalBits =
      (s.totalBits + 8 * data.length) % 256 ^ shape.field := by
  rw [update]
  dsimp only
  split <;> rfl

/-- **Any pieces**, one after the other. -/
theorem foldl_update_feeds {iv : σ} {message : List UInt8} {s : Stream σ}
    (h : Feeds shape compress iv message s)
    (htotal : s.totalBits = 8 * message.length % 256 ^ shape.field) (pieces : List (List UInt8)) :
    Feeds shape compress iv (message ++ pieces.flatten)
        (pieces.foldl (update shape compress) s) ∧
      (pieces.foldl (update shape compress) s).totalBits =
        8 * (message ++ pieces.flatten).length % 256 ^ shape.field := by
  induction pieces generalizing message s with
  | nil =>
      rw [List.flatten_nil, List.append_nil]
      exact ⟨h, htotal⟩
  | cons data pieces ih =>
      rw [List.foldl_cons, List.flatten_cons, ← List.append_assoc]
      refine ih (update_feeds h data) ?_
      rw [totalBits_update, htotal, List.length_append, Nat.mod_add_mod, Nat.mul_add]

/-! ### The end -/

theorem zeros_fit {n t : Nat} (h : t + 1 ≤ shape.size - shape.field) :
    zeros shape (shape.size * n + t) = shape.size - shape.field - (t + 1) := by
  have hroom := shape.room
  rw [zeros, Nat.add_assoc, Nat.add_assoc, Nat.mul_add_mod]
  rcases Nat.lt_or_ge (t + (1 + shape.field)) shape.size with hlt | hge
  · rw [Nat.mod_eq_of_lt hlt, Nat.mod_eq_of_lt (by omega)]
    omega
  · have hfull : t + (1 + shape.field) = shape.size := by omega
    rw [hfull, Nat.mod_self, Nat.sub_zero, Nat.mod_self]
    omega

theorem zeros_spill {n t : Nat} (h : shape.size - shape.field < t + 1) (ht : t < shape.size) :
    zeros shape (shape.size * n + t) =
      shape.size - (t + 1) + (shape.size - shape.field) := by
  have hroom := shape.room
  have hmod : (t + (1 + shape.field)) % shape.size = t + (1 + shape.field) - shape.size := by
    rw [Nat.mod_eq_sub_mod (by omega), Nat.mod_eq_of_lt (by omega)]
  rw [zeros, Nat.add_assoc, Nat.add_assoc, Nat.mul_add_mod, hmod, Nat.mod_eq_of_lt (by omega)]
  omega

/-- A buffer that ends in the length. -/
theorem lengthBlock {buf : List UInt8} (hbuf : buf.length = shape.size) {i : Nat}
    (hi : i ≤ shape.size - shape.field) (total : Nat) :
    writeAt (writeAt buf i (List.replicate (shape.size - shape.field - i) 0))
        (shape.size - shape.field) (Bytes.be shape.field total) =
      buf.take i ++ (List.replicate (shape.size - shape.field - i) 0 ++
        Bytes.be shape.field total) := by
  have hroom := shape.room
  have hzeros : i + (List.replicate (shape.size - shape.field - i) (0 : UInt8)).length =
      shape.size - shape.field := by
    rw [List.length_replicate]
    omega
  have hfilled := take_writeAt (List.replicate (shape.size - shape.field - i) 0)
    (show i ≤ buf.length by omega)
  rw [hzeros] at hfilled
  rw [writeAt_eq, hfilled, List.append_assoc]
  rw [length_writeAt (by omega), Bytes.length_be]
  omega

/-- **The end** gives the hash of the message. -/
theorem finalize_eq {iv : σ} {message : List UInt8} {s : Stream σ}
    (h : Feeds shape compress iv message s) (htotal : s.totalBits = 8 * message.length) :
    finalize shape compress s = hash shape compress iv message := by
  have hroom := shape.room
  obtain ⟨front, n, hmessage, hfront, hh, hbuf, hlen⟩ := h
  have htail : (s.buf.take s.bufLen).length = s.bufLen := by
    rw [List.length_take]
    omega
  have hmarked : (writeAt s.buf s.bufLen [0x80]).take (s.bufLen + 1) =
      s.buf.take s.bufLen ++ [0x80] := take_writeAt [0x80] (by omega)
  have hmarkedLength : (writeAt s.buf s.bufLen [0x80]).length = shape.size :=
    (length_writeAt (by rw [hbuf]; exact hlen)).trans hbuf
  have hcount : message.length = shape.size * n + s.bufLen := by
    rw [hmessage, List.length_append, hfront, htail]
  have hpad : pad shape message = front ++ (s.buf.take s.bufLen ++
      ([0x80] ++ (List.replicate (zeros shape message.length) 0 ++
        Bytes.be shape.field (8 * message.length)))) := by
    conv_lhs => rw [pad]
    conv_lhs => lhs; rw [hmessage]
    rw [List.append_assoc]
    rfl
  have hone : ∀ (iv : σ) {block : List UInt8}, block.length = shape.size →
      overBlocks shape compress iv block = compress iv block := by
    intro iv block hblock
    have hnil : overBlocks shape compress iv (block ++ []) = _ := overBlocks_block hblock iv []
    rwa [List.append_nil, overBlocks_nil] at hnil
  rw [hash, hpad, overBlocks_append hfront, ← hh, finalize, ← htotal]
  dsimp only
  by_cases hspill : shape.size - shape.field < s.bufLen + 1
  · have hzeros : zeros shape message.length =
        shape.size - (s.bufLen + 1) + (shape.size - shape.field) := by
      rw [hcount]
      exact zeros_spill hspill hlen
    have hfull : writeAt (writeAt s.buf s.bufLen [0x80]) (s.bufLen + 1)
        (List.replicate (shape.size - (s.bufLen + 1)) 0) =
        s.buf.take s.bufLen ++ [0x80] ++ List.replicate (shape.size - (s.bufLen + 1)) 0 := by
      rw [writeAt_eq, hmarked]
      rw [hmarkedLength, List.length_replicate]
      omega
    have hfullLength : (s.buf.take s.bufLen ++ [0x80] ++
        List.replicate (shape.size - (s.bufLen + 1)) (0 : UInt8)).length = shape.size := by
      rw [List.length_append, List.length_append, htail, List.length_replicate,
        List.length_singleton]
      omega
    have hlast := lengthBlock hfullLength (Nat.zero_le _) s.totalBits
    rw [Nat.sub_zero, List.take_zero, List.nil_append] at hlast
    rw [if_pos hspill]
    dsimp only
    rw [hfull, Nat.sub_zero, hlast, hzeros, List.replicate_add]
    have hsplit : s.buf.take s.bufLen ++ ([0x80] ++
        (List.replicate (shape.size - (s.bufLen + 1)) 0 ++
          List.replicate (shape.size - shape.field) 0 ++ Bytes.be shape.field s.totalBits)) =
        s.buf.take s.bufLen ++ [0x80] ++ List.replicate (shape.size - (s.bufLen + 1)) 0 ++
          (List.replicate (shape.size - shape.field) 0 ++ Bytes.be shape.field s.totalBits) := by
      simp only [List.append_assoc]
    rw [hsplit, overBlocks_block hfullLength, hone]
    rw [List.length_append, List.length_replicate, Bytes.length_be]
    omega
  · have hfits : s.bufLen + 1 ≤ shape.size - shape.field := Nat.le_of_not_lt hspill
    have hzeros : zeros shape message.length =
        shape.size - shape.field - (s.bufLen + 1) := by
      rw [hcount]
      exact zeros_fit hfits
    rw [if_neg hspill]
    dsimp only
    rw [lengthBlock hmarkedLength hfits, hmarked, hzeros, List.append_assoc, hone]
    rw [List.length_append, htail, List.length_append, List.length_append, List.length_replicate,
      Bytes.length_be, List.length_singleton]
    omega

/-- **A stream hashes the concatenation of its pieces**, for messages whose length in bits fits the
field. -/
theorem stream_eq_hash (iv : σ) (pieces : List (List UInt8))
    (h : 8 * pieces.flatten.length < 256 ^ shape.field) :
    finalize shape compress (pieces.foldl (update shape compress) (start shape iv)) =
      hash shape compress iv pieces.flatten := by
  have hzero : (start shape iv).totalBits = 8 * ([] : List UInt8).length % 256 ^ shape.field :=
    (Nat.zero_mod _).symm
  obtain ⟨hfeeds, htotal⟩ := foldl_update_feeds (feeds_start iv) hzero pieces
  rw [List.nil_append] at hfeeds htotal
  rw [Nat.mod_eq_of_lt h] at htotal
  exact finalize_eq hfeeds htotal

end

end BlockHash
