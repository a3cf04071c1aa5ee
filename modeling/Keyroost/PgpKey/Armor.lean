import Keyroost.Library.Lines
import Keyroost.Library.Utf8
import Keyroost.PgpKey.Packet
import Keyroost.Piv.LongApdu
import Keyroost.Proto.CodecCanonical

/-!
# ASCII armor

Base64 in lines of 64 columns between a header and a footer, with a checksum line that starts like
padding, from `keyroost-pgpkey/src/armor.rs`.

The base64 here is the crate's own: its decoder skips white space, keeps the bits that do not fill a
byte yet, and takes padding at the end alone. It is an instance of `Regroup` of the library, from
which the round trip (`b64Decode_b64Encode`) and what it accepts are proved. A block
is read line by line; `Lines` of the library has what the reader makes of line ends and white
space. `armor_exact` says two things of every header that was written: the block with it is read
back, and whatever text follows it is accepted exactly when its lines stand for the bytes.
-/

namespace Keyroost.PgpKey

open Piv (chunks chunksFrom flatten_chunks mem_chunks)
open Proto.Codec (ALPHABET base64Digit base64Encode base64Chunk)
open Regroup
open RustStr

/-- What an armored block contains. -/
inductive Kind where
  | privateKey
  | publicKey
  | signature
deriving DecidableEq, Repr

def Kind.label : Kind → RustStr
  | .privateKey => "PRIVATE KEY BLOCK".toList
  | .publicKey => "PUBLIC KEY BLOCK".toList
  | .signature => "SIGNATURE".toList

/-! ### The checksum -/

def crcBit (crc : UInt32) : UInt32 :=
  let crc := crc <<< 1
  if crc &&& 0x1000000 ≠ 0 then crc ^^^ 0x1864CFB else crc

def crcByte (crc : UInt32) (b : UInt8) : UInt32 :=
  (List.range 8).foldl (fun crc _ => crcBit crc) (crc ^^^ (b.toUInt32 <<< 16))

def crc24 (data : List UInt8) : UInt32 := data.foldl crcByte 0xB704CE &&& 0xFFFFFF

/-! ### Base64 -/

def b64Chunk (chunk : List UInt8) : RustStr :=
  let n := ((chunk.getD 0 0).toUInt32 <<< 16) ||| ((chunk.getD 1 0).toUInt32 <<< 8) |||
    (chunk.getD 2 0).toUInt32
  (List.range 4).map fun i =>
    if i ≤ chunk.length then
      ALPHABET.getD ((n >>> (18 - 6 * i).toUInt32) &&& 0x3F).toNat '='
    else '='

def b64Encode (data : List UInt8) : RustStr := (chunks 3 data).flatMap b64Chunk

structure B64State where
  out : List UInt8 := []
  acc : Nat := 0
  nbits : Nat := 0
  pad : Nat := 0
deriving DecidableEq, Repr

/-- One turn of the reader's loop. A character that is not ASCII is refused at its first byte, and
anything but white space and padding after a padding character. -/
def b64Step (st : B64State) (c : Char) : Except Error B64State :=
  if isAsciiWhitespace c then .ok st
  else if c = '=' then .ok { st with pad := st.pad + 1 }
  else if 0 < st.pad then .error (.malformed "bad base64")
  else
    match ALPHABET.idxOf? c with
    | none => .error (.malformed "bad base64")
    | some v =>
        let acc := (st.acc <<< 6) % 2 ^ 32 ||| v
        if 8 ≤ st.nbits + 6 then
          let nbits := st.nbits + 6 - 8
          .ok { st with
            out := st.out ++ [(acc >>> nbits).toUInt8]
            acc := acc &&& (2 ^ nbits - 1)
            nbits }
        else .ok { st with acc, nbits := st.nbits + 6 }

def b64Decode (text : RustStr) : Except Error (List UInt8) := do
  let final ← text.foldlM b64Step {}
  if 2 < final.pad ∨ 0 < final.pad ∧ RustStr.len (text.filter (!isAsciiWhitespace ·)) % 4 ≠ 0 then
    throw (.malformed "bad base64")
  return final.out

/-- The characters of base64, one by one. -/
theorem sextet_table : ∀ d < 2 ^ 6, ALPHABET.idxOf? (base64Digit d) = some d ∧
    isWhitespace (base64Digit d) = false ∧ isAsciiWhitespace (base64Digit d) = false ∧
    base64Digit d ≠ '=' ∧ base64Digit d ≠ '-' ∧ (base64Digit d).toNat < 128 := by
  decide +kernel

theorem lt_of_idxOf {c : Char} {d : Nat} (h : ALPHABET.idxOf? c = some d) : d < 2 ^ 6 := by
  obtain ⟨hlt, -⟩ := List.idxOf?_eq_some_iff.mp h
  exact hlt

theorem digit_of_idxOf {c : Char} {d : Nat} (h : ALPHABET.idxOf? c = some d) :
    base64Digit d = c := by
  obtain ⟨hlt, hc, -⟩ := List.idxOf?_eq_some_iff.mp h
  rw [base64Digit, List.getD_eq_getElem?_getD, List.getElem?_eq_getElem hlt, hc]
  rfl

/-- The standard alphabet alone, with any ASCII white space skipped. -/
def armorAlphabet : Alphabet 6 where
  skip := isAsciiWhitespace
  value c := ALPHABET.idxOf? c
  digit := base64Digit
  norm c := c
  value_lt _ _ h := lt_of_idxOf h
  digit_value _ _ h := digit_of_idxOf h
  value_digit d hd := (sextet_table d hd).1
  digit_plain d hd := ⟨(sextet_table d hd).2.2.1, (sextet_table d hd).2.2.2.1⟩

/-- What the loop has read: the digits, as bytes written out and bits kept. -/
structure B64State.Reads (st : B64State) (ds : List Nat) : Prop where
  holds : Holds 6 ds st.out st.nbits st.acc
  room : st.nbits < 8

theorem b64Step_skip {st : B64State} {c : Char} (h : isAsciiWhitespace c = true) :
    b64Step st c = .ok st := by
  rw [b64Step, if_pos h]

theorem b64Step_pad (st : B64State) : b64Step st '=' = .ok { st with pad := st.pad + 1 } := rfl

theorem b64Step_digit {st : B64State} {ds : List Nat} {c : Char} {v : Nat} (hst : st.Reads ds)
    (hpad : st.pad = 0) (hskip : isAsciiWhitespace c = false) (hc : c ≠ '=')
    (hv : ALPHABET.idxOf? c = some v) :
    ∃ st', b64Step st c = .ok st' ∧ st'.pad = 0 ∧ st'.Reads (ds ++ [v]) := by
  obtain ⟨hholds, hroom⟩ := hst
  have hlt := lt_of_idxOf hv
  have hacc : st.acc < 2 ^ 8 :=
    Nat.lt_of_lt_of_le hholds.lt (Nat.pow_le_pow_right (by decide) hroom.le)
  have hpush : (st.acc <<< 6) % 2 ^ 32 ||| v = st.acc * 2 ^ 6 + v := by
    rw [Nat.shiftLeft_eq, Nat.mod_eq_of_lt (by omega), mul_comm, Nat.two_pow_add_eq_or_of_lt hlt]
  have hkept := hholds.keep hlt
  rw [b64Step, hskip, if_neg Bool.false_ne_true, if_neg hc, hpad, if_neg (Nat.lt_irrefl 0), hv]
  dsimp only
  rw [hpush]
  split
  · rename_i hfull
    have hrest : st.nbits + 6 = st.nbits + 6 - 8 + 8 := (Nat.sub_add_cancel hfull).symm
    refine ⟨_, rfl, rfl, ?_, by dsimp only; omega⟩
    dsimp only
    rw [Nat.and_two_pow_sub_one_eq_mod]
    rw [hrest] at hkept
    refine hkept.emit ?_
    rw [Nat.toUInt8, UInt8.toNat_ofNat', byte_eq, Nat.mod_eq_of_lt hkept.lt]
  · rename_i hfull
    exact ⟨_, rfl, rfl, hkept, Nat.lt_of_not_le hfull⟩

theorem b64Step_refuse {st : B64State} {c : Char} (hskip : isAsciiWhitespace c = false)
    (hc : c ≠ '=') (h : decide (0 < st.pad) = true ∨ ALPHABET.idxOf? c = none) :
    ∃ e, b64Step st c = .error e := by
  rw [b64Step, hskip, if_neg Bool.false_ne_true, if_neg hc]
  rcases h with h | h
  · rw [if_pos (of_decide_eq_true h)]
    exact ⟨_, rfl⟩
  · rw [h]
    split
    · exact ⟨_, rfl⟩
    · exact ⟨_, rfl⟩

def b64Loop : armorAlphabet.Loop B64State Error where
  step := b64Step
  padded st := decide (0 < st.pad)
  reads := B64State.Reads
  skip _ _ h := b64Step_skip h
  pad st _ := ⟨_, b64Step_pad st, fun _ h => ⟨h.holds, h.room⟩⟩
  digit _ _ _ _ hst hpadded hskip hc hv := by
    have hpad := Nat.eq_zero_of_not_pos (of_decide_eq_false hpadded)
    obtain ⟨st', hstep, hpad', hreads⟩ := b64Step_digit hst hpad hskip hc hv
    refine ⟨st', hstep, ?_, hreads⟩
    rw [hpad']
    rfl
  refuse _ _ hskip hc h := b64Step_refuse hskip hc h

/-- The loop counts the padding. -/
theorem b64Step_count {st st' : B64State} {c : Char} (h : b64Step st c = .ok st') :
    st'.pad = st.pad + [c].count '=' := by
  rw [b64Step] at h
  split at h
  · rename_i hskip
    cases h
    have hc : c ≠ '=' := fun hc => absurd (hc ▸ hskip) (by decide)
    rw [List.count_eq_zero_of_not_mem (by rintro (_ | ⟨_, ⟨⟩⟩); exact hc rfl)]
    rfl
  · split at h
    · rename_i hc
      cases h
      rw [hc]
      rfl
    · rename_i hc
      have hcount : [c].count '=' = 0 := List.count_eq_zero_of_not_mem (by
        intro hmem
        exact hc (List.mem_singleton.mp hmem).symm)
      rw [hcount]
      split at h
      · cases h
      · split at h
        · cases h
        · dsimp only at h
          split at h
          all_goals
            cases h
            rfl

theorem count_of_fold {st st' : B64State} {s : RustStr} (h : s.foldlM b64Step st = .ok st') :
    st'.pad = st.pad + s.count '=' := by
  induction s generalizing st with
  | nil =>
      cases h
      rfl
  | cons c s ih =>
      rw [List.foldlM_cons] at h
      cases hstep : b64Step st c with
      | error e =>
          rw [hstep] at h
          cases h
      | ok st₁ =>
          rw [hstep] at h
          rw [ih h, b64Step_count hstep, Nat.add_assoc, ← List.count_append]
          rfl

/-- The chunks are those of the other base64 writer. -/
theorem flatMap_chunksFrom (left : Nat) (data : List UInt8) (h : data.length ≤ left) :
    (chunksFrom 3 left data).flatMap b64Chunk = base64Encode data := by
  induction left generalizing data with
  | zero =>
      rw [List.eq_nil_of_length_eq_zero (Nat.le_zero.mp h)]
      rfl
  | succ left ih =>
      rw [chunksFrom]
      rcases data with _ | ⟨b0, _ | ⟨b1, _ | ⟨b2, data⟩⟩⟩
      · rfl
      · rw [if_neg (List.cons_ne_nil _ _), List.flatMap_cons, ih _ (Nat.zero_le _)]
        rfl
      · rw [if_neg (List.cons_ne_nil _ _), List.flatMap_cons, ih _ (Nat.zero_le _)]
        rfl
      · have hdrop : data.length ≤ left := by
          rw [List.length_cons, List.length_cons, List.length_cons] at h
          omega
        rw [if_neg (List.cons_ne_nil _ _), List.flatMap_cons]
        exact congrArg _ (ih data hdrop)

theorem b64Encode_eq (data : List UInt8) : b64Encode data = base64Encode data :=
  flatMap_chunksFrom _ data (Nat.le_refl _)

/-- A written text: digits and at most two characters of padding, in groups of four. The digits hold
the data, with fewer than six bits behind it that are zero. -/
structure Grouped (data : List UInt8) (ds : List Nat) (n : Nat) : Prop where
  text : b64Encode data = ds.map base64Digit ++ List.replicate n '='
  digits : ∀ d ∈ ds, d < 2 ^ 6
  groups : (ds.length + n) % 4 = 0
  padding : n ≤ 2
  holds : ∃ bits < 6, Holds 6 ds data bits 0

theorem exists_grouped (data : List UInt8) : ∃ ds n, Grouped data ds n := by
  obtain ⟨ds, bits, hholds, hbits, hlt, htext⟩ := Proto.Codec.base64Encode_digits data
  have hsize := hholds.size
  rw [Alphabet.padTo, List.length_map] at htext
  refine ⟨ds, (4 - ds.length % 4) % 4, ?_, hlt, ?_, ?_, bits, hbits, hholds⟩
  · rw [b64Encode_eq, htext]
  · omega
  · omega

theorem Grouped.length {data : List UInt8} {ds : List Nat} {n : Nat} (h : Grouped data ds n) :
    (b64Encode data).length % 4 = 0 := by
  rw [h.text, List.length_append, List.length_map, List.length_replicate]
  exact h.groups

theorem Grouped.mem {data : List UInt8} {ds : List Nat} {n : Nat} (h : Grouped data ds n)
    {c : Char} (hc : c ∈ b64Encode data) : (∃ d < 2 ^ 6, base64Digit d = c) ∨ c = '=' := by
  rw [h.text, List.mem_append] at hc
  rcases hc with hc | hc
  · obtain ⟨d, hd, rfl⟩ := List.mem_map.mp hc
    exact .inl ⟨d, h.digits d hd, rfl⟩
  · exact .inr (List.eq_of_mem_replicate hc)

/-- No white space, no hyphen, and ASCII only. -/
theorem b64Encode_plain {data : List UInt8} {c : Char} (hc : c ∈ b64Encode data) :
    isWhitespace c = false ∧ isAsciiWhitespace c = false ∧ c ≠ '-' ∧ c.toNat < 128 := by
  obtain ⟨ds, n, hgrouped⟩ := exists_grouped data
  rcases hgrouped.mem hc with ⟨d, hd, rfl⟩ | rfl
  · obtain ⟨-, hspace, hascii, -, hhyphen, hlt⟩ := sextet_table d hd
    exact ⟨hspace, hascii, hhyphen, hlt⟩
  · decide

/-- **What was written is read back.** -/
theorem b64Decode_b64Encode (data : List UInt8) : b64Decode (b64Encode data) = .ok data := by
  obtain ⟨ds, n, hgrouped⟩ := exists_grouped data
  obtain ⟨bits, hbits, hholds⟩ := hgrouped.holds
  have hstart : ({} : B64State).Reads [] := ⟨Holds.nil 6, by decide⟩
  obtain ⟨st, hfold, hreads⟩ := b64Loop.fold_text rfl hgrouped.digits hstart rfl n
  have hfold' : (b64Encode data).foldlM b64Step {} = .ok st := by
    rw [hgrouped.text]
    exact hfold
  have hcount : st.pad = n := by
    have hdigits : (ds.map base64Digit).count '=' = 0 := by
      refine List.count_eq_zero_of_not_mem ?_
      intro hmem
      obtain ⟨d, hd, heq⟩ := List.mem_map.mp hmem
      exact (sextet_table d (hgrouped.digits d hd)).2.2.2.1 heq
    rw [count_of_fold hfold', hgrouped.text, List.count_append, hdigits, List.count_replicate_self]
    exact (Nat.zero_add _).trans (Nat.zero_add n)
  have hkept : (b64Encode data).filter (!isAsciiWhitespace ·) = b64Encode data := by
    refine List.filter_eq_self.mpr fun c hc => ?_
    rw [(b64Encode_plain hc).2.1]
    rfl
  have hlen : RustStr.len (b64Encode data) = (b64Encode data).length := by
    rw [RustStr.len, asBytes_ascii fun c hc => (b64Encode_plain hc).2.2.2, List.length_map]
  have hpad := hgrouped.padding
  have hfits : ¬ (2 < st.pad ∨ 0 < st.pad ∧
      RustStr.len ((b64Encode data).filter (!isAsciiWhitespace ·)) % 4 ≠ 0) := by
    rw [hkept, hlen, hgrouped.length, hcount]
    omega
  rw [b64Decode, hfold']
  refine (if_neg hfits).trans ?_
  exact congrArg Except.ok (hreads.holds.bytes_eq hholds hreads.room (by omega)).1

/-! ### Writing a block -/

def beginLine (kind : Kind) : RustStr := "-----BEGIN PGP ".toList ++ (kind.label ++ "-----".toList)

def endLine (kind : Kind) : RustStr := "-----END PGP ".toList ++ (kind.label ++ "-----".toList)

/-- What stands before the body. -/
def header (kind : Kind) (comment : Option RustStr) : RustStr :=
  beginLine kind ++ '\n' ::
    ((comment.toList.flatMap fun c => "Comment: ".toList ++ c ++ ['\n']) ++ ['\n'])

/-- The body in lines. -/
def bodyLines (data : List UInt8) : List RustStr :=
  (chunks 64 (b64Encode data).asBytes).map fun line => (Utf8.fromUtf8 line).getD []

/-- `crc.to_be_bytes()[1..]` -/
def crcBytes (data : List UInt8) : List UInt8 := (Bytes.be 4 (crc24 data).toNat).drop 1

def encodeWithComment (kind : Kind) (data : List UInt8) (comment : Option RustStr) : RustStr :=
  header kind comment ++ ((bodyLines data).flatMap (· ++ ['\n']) ++
    ('=' :: b64Encode (crcBytes data) ++ '\n' :: (endLine kind ++ ['\n'])))

def encode (kind : Kind) (data : List UInt8) : RustStr := encodeWithComment kind data none

/-! ### Reading a block -/

def MAX_TEXT : Nat := 2 <<< 20

def kindOf (label : RustStr) : Option Kind :=
  if label = Kind.privateKey.label then some .privateKey
  else if label = Kind.publicKey.label then some .publicKey
  else if label = Kind.signature.label then some .signature
  else none

/-- The kind that the first header line names, and the lines behind it. -/
def findKind : List RustStr → Except Error (Kind × List RustStr)
  | [] => .error (.malformed "no armor header")
  | line :: lines =>
      match stripPrefix "-----BEGIN PGP ".toList line with
      | none => findKind lines
      | some rest =>
          match (stripSuffix rest "-----".toList).bind kindOf with
          | some kind => .ok (kind, lines)
          | none => .error (.unsupported "armor type")

def skipHeaders : List RustStr → Except Error (List RustStr)
  | [] => .ok []
  | line :: lines =>
      if line = [] then .ok lines
      else if ':' ∉ line then .error (.malformed "bad armor header")
      else skipHeaders lines

/-- The loop up to the footer, with the body and the checksum's text so far. A checksum need not be
there; a line behind it is still read as part of the body. -/
def readBody (kind : Kind) : List RustStr → RustStr → Option RustStr →
    Except Error (RustStr × Option RustStr)
  | [], _, _ => .error (.malformed "no armor footer")
  | line :: lines, body, crcText =>
      match stripPrefix "-----END PGP ".toList line with
      | some rest =>
          if stripSuffix rest "-----".toList ≠ some kind.label then
            .error (.malformed "armor footer does not match its header")
          else .ok (body, crcText)
      | none =>
          match stripPrefix ['='] line with
          | some c => readBody kind lines body (some c)
          | none => readBody kind lines (body ++ line) crcText

def checkCrc (data : List UInt8) : Option RustStr → Except Error Unit
  | none => .ok ()
  | some c => do
      let want ← b64Decode c
      if want.length ≠ 3 then throw (.malformed "bad armor checksum")
      if Bytes.ofBe want ≠ (crc24 data).toNat then throw .badChecksum

def decode (text : RustStr) : Except Error (Kind × List UInt8) := do
  if MAX_TEXT < text.len then throw (.malformed "file too large")
  let (kind, lines) ← findKind (trimmedLines text)
  let lines ← skipHeaders lines
  let (body, crcText) ← readBody kind lines [] none
  let data ← b64Decode body
  checkCrc data crcText
  return (kind, data)

/-! ### The lines of a block -/

theorem trimEnd_header : ∀ kind, trimEnd (beginLine kind) = beginLine kind ∧
    trimEnd (endLine kind) = endLine kind ∧ '\n' ∉ beginLine kind ∧ '\n' ∉ endLine kind := by
  rintro (_ | _ | _)
  all_goals decide

/-- Every line of the comment's header has a colon, as it has when the comment is one line. -/
def HeaderComment (comment : Option RustStr) : Prop :=
  ∀ c ∈ comment, ∀ line ∈ ("Comment: ".toList ++ c).splitOn '\n', ':' ∈ line

theorem headerComment_of_line {c : RustStr} (hc : '\n' ∉ c) : HeaderComment (some c) := by
  rintro c' ⟨⟩ line hline
  have hfeed : '\n' ∉ "Comment: ".toList ++ c := by
    rw [List.mem_append]
    exact not_or.mpr ⟨by decide, hc⟩
  rw [List.splitOn_eq_singleton hfeed, List.mem_singleton] at hline
  rw [hline]
  exact List.mem_append_left c (by decide)

/-- The header's lines between the first one and the blank one. -/
def commentLines (comment : Option RustStr) : List RustStr :=
  comment.toList.flatMap fun c => (("Comment: ".toList ++ c).splitOn '\n').map trimEnd

theorem trimmedLines_header (kind : Kind) (comment : Option RustStr) (rest : RustStr) :
    trimmedLines (header kind comment ++ rest) =
      beginLine kind :: (commentLines comment ++ [] :: trimmedLines rest) := by
  obtain ⟨htrim, -, hfeed, -⟩ := trimEnd_header kind
  rw [header, List.append_assoc, List.cons_append, trimmedLines_cons hfeed, htrim,
    List.append_assoc]
  refine congrArg _ ?_
  have hblank : trimmedLines (['\n'] ++ rest) = [] :: trimmedLines rest :=
    trimmedLines_cons List.not_mem_nil rest
  cases comment with
  | none => exact hblank
  | some c =>
      have hcomment := trimmedLines_append ("Comment: ".toList ++ c) (['\n'] ++ rest)
      rw [commentLines, Option.toList_some, List.flatMap_singleton, List.flatMap_singleton,
        List.append_assoc, List.singleton_append, hcomment, hblank]

theorem colon_of_mem_commentLines {comment : Option RustStr} (hcomment : HeaderComment comment)
    {line : RustStr} (hline : line ∈ commentLines comment) : ':' ∈ line := by
  obtain ⟨c, hc, hmem⟩ := List.mem_flatMap.mp hline
  obtain ⟨piece, hpiece, rfl⟩ := List.mem_map.mp hmem
  exact mem_trimEnd (hcomment c (Option.mem_toList.mp hc) piece hpiece) (by decide)

theorem skipHeaders_blank {hs : List RustStr} (hhs : ∀ line ∈ hs, ':' ∈ line) (ls : List RustStr) :
    skipHeaders (hs ++ [] :: ls) = .ok ls := by
  induction hs with
  | nil => rfl
  | cons line hs ih =>
      have hcolon := hhs line List.mem_cons_self
      have hne : line ≠ [] := List.ne_nil_of_mem hcolon
      rw [List.cons_append, skipHeaders, if_neg hne, if_neg (not_not_intro hcolon),
        ih fun l hl => hhs l (List.mem_cons_of_mem line hl)]

theorem kindOf_label (kind : Kind) : kindOf kind.label = some kind := by
  cases kind with
  | privateKey => rfl
  | publicKey => rfl
  | signature => rfl

theorem findKind_beginLine (kind : Kind) (ls : List RustStr) :
    findKind (beginLine kind :: ls) = .ok (kind, ls) := by
  have hprefix : stripPrefix "-----BEGIN PGP ".toList (beginLine kind) =
      some (kind.label ++ "-----".toList) := stripPrefix_append _ _
  rw [findKind, hprefix]
  dsimp only
  rw [stripSuffix_append, Option.bind_some, kindOf_label]

/-! ### The body -/

/-- The lines that are no checksum, together. -/
def bodyOf (middle : List RustStr) : RustStr :=
  (middle.filter fun line => (stripPrefix ['='] line).isNone).flatten

/-- The last checksum line's text. -/
def crcOf (middle : List RustStr) : Option RustStr :=
  (middle.filterMap fun line => stripPrefix ['='] line).getLast?

/-- A line that ends the loop. -/
def isFooter (line : RustStr) : Bool := (stripPrefix "-----END PGP ".toList line).isSome

theorem crcOf_cons (line : RustStr) (middle : List RustStr) :
    crcOf (line :: middle) = (crcOf middle).or (stripPrefix ['='] line) := by
  rw [crcOf, crcOf, List.filterMap_cons]
  cases stripPrefix ['='] line with
  | none => rw [Option.or_none]
  | some c =>
      dsimp only
      rw [List.getLast?_cons]
      cases (middle.filterMap fun line => stripPrefix ['='] line).getLast? with
      | none => rfl
      | some last => rfl

theorem bodyOf_cons (line : RustStr) (middle : List RustStr) : bodyOf (line :: middle) =
    (if (stripPrefix ['='] line).isNone then line else []) ++ bodyOf middle := by
  rw [bodyOf, bodyOf, List.filter_cons]
  split
  · rw [List.flatten_cons]
  · rfl

theorem stripPrefix_endLine (kind : Kind) :
    stripPrefix "-----END PGP ".toList (endLine kind) = some (kind.label ++ "-----".toList) :=
  stripPrefix_append _ _

/-- The lines that the loop takes: any up to the footer of the kind. -/
theorem readBody_ok_iff {kind : Kind} {ls : List RustStr} {body body' : RustStr}
    {crcText crcText' : Option RustStr} :
    readBody kind ls body crcText = .ok (body', crcText') ↔
      ∃ middle after, ls = middle ++ endLine kind :: after ∧
        (∀ line ∈ middle, isFooter line = false) ∧ body' = body ++ bodyOf middle ∧
        crcText' = (crcOf middle).or crcText := by
  induction ls generalizing body crcText with
  | nil =>
      constructor
      · exact nofun
      · rintro ⟨middle, after, hls, -⟩
        exact absurd hls (by simp)
  | cons line ls ih =>
      rw [readBody]
      cases hfooter : stripPrefix "-----END PGP ".toList line with
      | some rest =>
          have hline := stripPrefix_eq_some.mp hfooter
          dsimp only
          constructor
          · intro h
            split at h
            · cases h
            · rename_i hsuffix
              cases h
              have hrest := stripSuffix_eq_some.mp (not_not.mp hsuffix)
              refine ⟨[], ls, ?_, nofun, (List.append_nil _).symm, rfl⟩
              rw [hline, hrest]
              rfl
          · rintro ⟨middle, after, hls, hmiddle, rfl, rfl⟩
            cases middle with
            | nil =>
                obtain ⟨heq, -⟩ := List.cons.inj hls
                have hrest : rest = kind.label ++ "-----".toList :=
                  List.append_cancel_left (hline.symm.trans heq)
                rw [if_neg (not_not_intro (stripSuffix_eq_some.mpr hrest)), bodyOf, crcOf]
                simp
            | cons first middle =>
                obtain ⟨rfl, -⟩ := List.cons.inj hls
                have hno := hmiddle line List.mem_cons_self
                rw [isFooter, hfooter] at hno
                cases hno
      | none =>
          have hno : isFooter line = false := by rw [isFooter, hfooter]; rfl
          have hsplit : ∀ P : List RustStr → Prop,
              (∃ middle after, line :: ls = middle ++ endLine kind :: after ∧
                (∀ l ∈ middle, isFooter l = false) ∧ P middle) ↔
              ∃ middle after, ls = middle ++ endLine kind :: after ∧
                (∀ l ∈ middle, isFooter l = false) ∧ P (line :: middle) := by
            intro P
            constructor
            · rintro ⟨_ | ⟨first, middle⟩, after, hls, hmiddle, hP⟩
              · obtain ⟨rfl, -⟩ := List.cons.inj hls
                cases hfooter.symm.trans (stripPrefix_endLine kind)
              · obtain ⟨rfl, hrest⟩ := List.cons.inj hls
                exact ⟨middle, after, hrest, fun l hl => hmiddle l (List.mem_cons_of_mem _ hl), hP⟩
            · rintro ⟨middle, after, rfl, hmiddle, hP⟩
              refine ⟨line :: middle, after, rfl, ?_, hP⟩
              intro l hl
              rcases List.mem_cons.mp hl with rfl | hl
              · exact hno
              · exact hmiddle l hl
          dsimp only
          rw [hsplit]
          cases hcrc : stripPrefix ['='] line with
          | some c =>
              dsimp only
              rw [ih]
              simp only [bodyOf_cons, crcOf_cons, hcrc, Option.isNone_some, Option.or_assoc]
              simp
          | none =>
              dsimp only
              rw [ih]
              simp only [bodyOf_cons, crcOf_cons, hcrc, Option.isNone_none, if_true, Option.or_none,
                List.append_assoc]

theorem isFooter_of_not_mem {line : RustStr} (h : '-' ∉ line) : isFooter line = false := by
  rw [isFooter, Option.isSome_eq_false_iff, Option.isNone_iff_eq_none]
  cases hprefix : stripPrefix "-----END PGP ".toList line with
  | none => rfl
  | some rest =>
      rw [stripPrefix_eq_some.mp hprefix] at h
      exact absurd (List.mem_append_left rest (by decide)) h

/-! ### The lines that were written -/

def charByte (c : Char) : UInt8 := c.toNat.toUInt8

theorem asBytes_b64Encode (data : List UInt8) :
    (b64Encode data).asBytes = (b64Encode data).map charByte :=
  asBytes_ascii fun _ hc => (b64Encode_plain hc).2.2.2

theorem toNat_charByte {c : Char} (hc : c.toNat < 128) : (charByte c).toNat = c.toNat := by
  rw [charByte, Nat.toUInt8, UInt8.toNat_ofNat']
  exact Nat.mod_eq_of_lt (by omega)

theorem charByte_ne {d : Nat} (hd : d < 2 ^ 6) : charByte (base64Digit d) ≠ 0x3D := by
  obtain ⟨-, -, -, hne, -, hlt⟩ := sextet_table d hd
  intro h
  have hnat := congrArg UInt8.toNat h
  rw [toNat_charByte hlt] at hnat
  exact hne (Char.toNat_inj.mp hnat)

theorem equals_table : ∀ n < 256, Char.ofNat n = '=' → n = 0x3D := by decide +kernel

/-- Padding of less than a group starts no line of whole groups. -/
theorem head_chunksFrom {left : Nat} {bytes xs ps : List UInt8} (hbytes : bytes = xs ++ ps)
    (hxs : ∀ b ∈ xs, b ≠ 0x3D) (hps : ps.length ≤ 2) (hgroups : bytes.length % 4 = 0) :
    ∀ line ∈ chunksFrom 64 left bytes, ∃ b rest, line = b :: rest ∧ b ≠ 0x3D := by
  induction left generalizing bytes xs ps with
  | zero => exact nofun
  | succ left ih =>
      intro line hline
      rw [chunksFrom] at hline
      split at hline
      · cases hline
      · rename_i hne
        have hpos : 0 < bytes.length := List.length_pos_iff.mpr hne
        have hlength : bytes.length = xs.length + ps.length := by
          rw [hbytes, List.length_append]
        rcases List.mem_cons.mp hline with rfl | hline
        · cases xs with
          | nil =>
              rw [List.length_nil] at hlength
              omega
          | cons b xs =>
              rw [hbytes, List.cons_append]
              exact ⟨b, _, List.take_succ_cons, hxs b List.mem_cons_self⟩
        · refine ih (List.drop_append ▸ congrArg (List.drop 64) hbytes) ?_ ?_ ?_ line hline
          · exact fun b hb => hxs b (List.mem_of_mem_drop hb)
          · rw [List.length_drop]
            omega
          · rw [List.length_drop]
            omega

theorem mem_of_mem_chunks {bytes line : List UInt8} (hline : line ∈ chunks 64 bytes) {b : UInt8}
    (hb : b ∈ line) : b ∈ bytes := by
  have hmem := List.mem_flatten.mpr ⟨line, hline, hb⟩
  rwa [flatten_chunks (by decide)] at hmem

theorem bodyLines_eq (data : List UInt8) :
    bodyLines data = (chunks 64 (b64Encode data).asBytes).map ofAscii := by
  refine List.map_congr_left fun line hline => ?_
  have hascii : ∀ b ∈ line, b.toNat < 128 := by
    intro b hb
    have hmem := mem_of_mem_chunks hline hb
    rw [asBytes_b64Encode] at hmem
    obtain ⟨c, hc, rfl⟩ := List.mem_map.mp hmem
    have hlt := (b64Encode_plain hc).2.2.2
    rw [toNat_charByte hlt]
    exact hlt
  have hread := Utf8.fromUtf8_asBytes (ofAscii line)
  rw [asBytes_ofAscii hascii] at hread
  rw [hread]
  rfl

theorem flatten_bodyLines (data : List UInt8) : (bodyLines data).flatten = b64Encode data := by
  have hback : ofAscii ((b64Encode data).map charByte) = b64Encode data := by
    rw [ofAscii, List.map_map]
    refine (List.map_congr_left fun c hc => ?_).trans (List.map_id _)
    exact (congrArg Char.ofNat (toNat_charByte (b64Encode_plain hc).2.2.2)).trans
      (Char.ofNat_toNat (c := c))
  have hflat : ((chunks 64 (b64Encode data).asBytes).map ofAscii).flatten =
      ofAscii (chunks 64 (b64Encode data).asBytes).flatten := List.map_flatten.symm
  rw [bodyLines_eq, hflat, flatten_chunks (by decide), asBytes_b64Encode, hback]

theorem plain_of_mem_bodyLines {data : List UInt8} {line : RustStr}
    (hline : line ∈ bodyLines data) : ∀ c ∈ line, isWhitespace c = false ∧ c ≠ '-' := by
  intro c hc
  have hmem := List.mem_flatten.mpr ⟨line, hline, hc⟩
  rw [flatten_bodyLines] at hmem
  obtain ⟨hspace, -, hhyphen, -⟩ := b64Encode_plain hmem
  exact ⟨hspace, hhyphen⟩

/-- No line of the body looks like the checksum's. -/
theorem stripPrefix_bodyLines {data : List UInt8} {line : RustStr} (hline : line ∈ bodyLines data) :
    stripPrefix ['='] line = none := by
  obtain ⟨ds, n, hgrouped⟩ := exists_grouped data
  have hbytes : (b64Encode data).asBytes =
      ds.map (charByte ∘ base64Digit) ++ List.replicate n 0x3D := by
    rw [asBytes_b64Encode, hgrouped.text, List.map_append, List.map_map, List.map_replicate]
    rfl
  have hlength : (b64Encode data).asBytes.length % 4 = 0 := by
    rw [asBytes_b64Encode, List.length_map]
    exact hgrouped.length
  rw [bodyLines_eq] at hline
  obtain ⟨bytes, hmem, rfl⟩ := List.mem_map.mp hline
  have hdigits : ∀ b ∈ ds.map (charByte ∘ base64Digit), b ≠ 0x3D := by
    intro b hb
    obtain ⟨d, hd, rfl⟩ := List.mem_map.mp hb
    exact charByte_ne (hgrouped.digits d hd)
  have hpadding : (List.replicate n (0x3D : UInt8)).length ≤ 2 := by
    rw [List.length_replicate]
    exact hgrouped.padding
  obtain ⟨b, rest, rfl, hb⟩ := head_chunksFrom hbytes hdigits hpadding hlength bytes hmem
  rw [ofAscii, List.map_cons, stripPrefix, if_neg]
  intro heq
  exact hb (UInt8.toNat_inj.mp (equals_table _ b.toNat_lt heq.symm))

/-! ### Blocks -/

theorem crc24_lt (data : List UInt8) : (crc24 data).toNat < 256 ^ 3 := by
  rw [crc24, UInt32.toNat_and]
  exact Nat.lt_of_le_of_lt Nat.and_le_right (by decide)

theorem crcBytes_eq (data : List UInt8) : crcBytes data = Bytes.be 3 (crc24 data).toNat := rfl

theorem checkCrc_ok_iff {data : List UInt8} {crcText : Option RustStr} :
    checkCrc data crcText = .ok () ↔ ∀ c ∈ crcText, b64Decode c = .ok (crcBytes data) := by
  cases crcText with
  | none => exact ⟨fun _ => nofun, fun _ => rfl⟩
  | some c =>
      have hmem : (∀ c' ∈ some c, b64Decode c' = .ok (crcBytes data)) ↔
          b64Decode c = .ok (crcBytes data) := by
        constructor
        · exact fun h => h c rfl
        · rintro h c' ⟨⟩
          exact h
      rw [hmem, checkCrc]
      cases b64Decode c with
      | error e =>
          constructor
          · exact nofun
          · exact nofun
      | ok want =>
          rw [Checks.ok_bind, Except.ok.injEq, crcBytes_eq]
          constructor
          · intro h
            by_cases hlength : want.length ≠ 3
            · rw [if_pos hlength] at h
              cases h
            · by_cases hvalue : Bytes.ofBe want ≠ (crc24 data).toNat
              · rw [if_neg hlength, if_pos hvalue] at h
                cases h
              · rw [← not_not.mp hvalue, ← not_not.mp hlength, Bytes.be_ofBe]
          · rintro rfl
            rw [if_neg (not_not_intro (Bytes.length_be 3 _)),
              if_neg (not_not_intro (Bytes.ofBe_be (crc24_lt data)))]
            rfl

/-- Lines that stand for bytes: the body says them, and the checksum is theirs where there is
one. -/
def Stands (kind : Kind) (ls : List RustStr) (data : List UInt8) : Prop :=
  ∃ middle after, ls = middle ++ endLine kind :: after ∧ (∀ line ∈ middle, isFooter line = false) ∧
    b64Decode (bodyOf middle) = .ok data ∧
    ∀ c ∈ crcOf middle, b64Decode c = .ok (crcBytes data)

/-- Whatever follows a header is accepted when it stands for bytes. -/
theorem decode_header_iff {kind kind' : Kind} {comment : Option RustStr}
    (hcomment : HeaderComment comment) {rest : RustStr} {data : List UInt8} :
    decode (header kind comment ++ rest) = .ok (kind', data) ↔
      RustStr.len (header kind comment ++ rest) ≤ MAX_TEXT ∧ kind' = kind ∧
        Stands kind (trimmedLines rest) data := by
  rw [decode]
  by_cases hlen : MAX_TEXT < RustStr.len (header kind comment ++ rest)
  · rw [if_pos hlen]
    constructor
    · exact nofun
    · rintro ⟨hle, -⟩
      exact absurd hlen (Nat.not_lt.mpr hle)
  · have hheaders : skipHeaders (commentLines comment ++ [] :: trimmedLines rest) =
        .ok (trimmedLines rest) :=
      skipHeaders_blank (fun line hline => colon_of_mem_commentLines hcomment hline) _
    rw [if_neg hlen, trimmedLines_header, findKind_beginLine]
    rw [Checks.ok_bind]
    dsimp only
    rw [hheaders, Checks.ok_bind]
    simp only [Checks.bind_eq_ok, Prod.exists, readBody_ok_iff, List.nil_append, Option.or_none]
    constructor
    · rintro ⟨-, -, ⟨middle, after, hls, hmiddle, rfl, rfl⟩, bytes, hbytes, ⟨⟩, hcrc, hresult⟩
      obtain ⟨rfl, rfl⟩ := Prod.mk.inj (Except.ok.inj hresult)
      exact ⟨Nat.le_of_not_lt hlen, rfl, middle, after, hls, hmiddle, hbytes,
        checkCrc_ok_iff.mp hcrc⟩
    · rintro ⟨-, rfl, middle, after, hls, hmiddle, hbytes, hcrc⟩
      exact ⟨_, _, ⟨middle, after, hls, hmiddle, rfl, rfl⟩, data, hbytes, (),
        checkCrc_ok_iff.mpr hcrc, rfl⟩

theorem trimmedLines_block (kind : Kind) (data : List UInt8) :
    trimmedLines ((bodyLines data).flatMap (· ++ ['\n']) ++
        ('=' :: b64Encode (crcBytes data) ++ '\n' :: (endLine kind ++ ['\n']))) =
      (bodyLines data ++ ['=' :: b64Encode (crcBytes data)]) ++ endLine kind :: [] := by
  obtain ⟨-, htrim, -, hfeed⟩ := trimEnd_header kind
  have hspace : ∀ c ∈ '=' :: b64Encode (crcBytes data), isWhitespace c = false := by
    intro c hc
    rcases List.mem_cons.mp hc with rfl | hc
    · rfl
    · exact (b64Encode_plain hc).1
  have hcrcFeed : '\n' ∉ '=' :: b64Encode (crcBytes data) :=
    fun h => absurd (hspace _ h) (by decide)
  rw [trimmedLines_flatMap fun line hline c hc => (plain_of_mem_bodyLines hline c hc).1,
    trimmedLines_cons hcrcFeed, trimEnd_eq_self hspace, trimmedLines_cons hfeed, htrim,
    List.append_assoc]
  rfl

theorem stands_block (kind : Kind) (data : List UInt8) :
    Stands kind ((bodyLines data ++ ['=' :: b64Encode (crcBytes data)]) ++ endLine kind :: [])
      data := by
  have hprefix : ∀ c : RustStr, stripPrefix ['='] ('=' :: c) = some c := fun c => rfl
  refine ⟨_, [], rfl, ?_, ?_, ?_⟩
  · intro line hline
    refine isFooter_of_not_mem fun hhyphen => ?_
    rcases List.mem_append.mp hline with hline | hline
    · exact (plain_of_mem_bodyLines hline _ hhyphen).2 rfl
    · rw [List.mem_singleton.mp hline] at hhyphen
      rcases List.mem_cons.mp hhyphen with heq | hhyphen
      · exact absurd heq (by decide)
      · exact (b64Encode_plain hhyphen).2.2.1 rfl
  · have hkept : (bodyLines data).filter (fun line => (stripPrefix ['='] line).isNone) =
        bodyLines data := by
      refine List.filter_eq_self.mpr fun line hline => ?_
      rw [stripPrefix_bodyLines hline]
      rfl
    rw [bodyOf, List.filter_append, hkept, List.filter_cons, hprefix]
    exact (congrArg b64Decode (by rw [Option.isNone_some, if_neg Bool.false_ne_true,
      List.filter_nil, List.append_nil, flatten_bodyLines])).trans (b64Decode_b64Encode data)
  · intro c hc
    have hnone : (bodyLines data).filterMap (stripPrefix ['=']) = [] :=
      List.filterMap_eq_nil_iff.mpr fun line hline => stripPrefix_bodyLines hline
    rw [crcOf, List.filterMap_append, hnone, List.filterMap_cons, hprefix] at hc
    obtain rfl := Option.some.inj hc
    exact b64Decode_b64Encode _

/-- **ASCII armor.** A block that was written is read back; and whatever text follows a header
that was written, it is accepted exactly when its lines stand for the bytes. A comment in the header
is one line, or has a colon in each. -/
theorem armor_exact (kind : Kind) {comment : Option RustStr} (hcomment : HeaderComment comment) :
    (∀ data, RustStr.len (encodeWithComment kind data comment) ≤ MAX_TEXT →
      decode (encodeWithComment kind data comment) = .ok (kind, data)) ∧
    ∀ rest kind' data, decode (header kind comment ++ rest) = .ok (kind', data) ↔
      RustStr.len (header kind comment ++ rest) ≤ MAX_TEXT ∧ kind' = kind ∧
        Stands kind (trimmedLines rest) data := by
  constructor
  · intro data hlen
    refine (decode_header_iff hcomment).mpr ⟨hlen, rfl, ?_⟩
    rw [trimmedLines_block]
    exact stands_block kind data
  · exact fun rest kind' data => decode_header_iff hcomment

theorem armor_exact_sample : decode (encodeWithComment .signature [0x88, 0x75]
    (some "Revocation certificate".toList)) = .ok (.signature, [0x88, 0x75]) :=
  (armor_exact .signature (headerComment_of_line (by decide))).1 _ (by decide +kernel)

/-- A comment of two lines is no header; and other bytes with the same checksum are accepted. -/
theorem armor_not_exact :
    decode (encodeWithComment .signature [] (some "a\nb".toList)) =
      .error (.malformed "bad armor header") ∧
    encode .publicKey [0, 0, 0, 0] = header .publicKey none ++
      ("AAAAAA==\n=9lnz\n".toList ++ (endLine .publicKey ++ ['\n'])) ∧
    decode (header .publicKey none ++
      ("AYZM+w==\n=9lnz\n".toList ++ (endLine .publicKey ++ ['\n']))) =
        .ok (.publicKey, [1, 134, 76, 251]) := by
  decide +kernel

end Keyroost.PgpKey
