import Keyroost.Library.Bytes
import Keyroost.Proto.Apdu

/-!
# Commands whose data may not fit a short APDU

A long command goes out as one extended-length APDU or as a chain of short ones, and either way the
card reads the same command. Lengths of more than two bytes are refused by an assertion of the
source and do not occur here. The builders are those of `keyroost-piv/src/lib.rs`, and of
`keyroost-transport/src/piv.rs` for the chain.

`readApdu` is the card's side: header, length field and data of one APDU, in each of the forms that
ISO 7816-4 has. `readApdu_buildApduExt`, `readApdu_link` and `readApdu_last` say that what was built
is read as it was meant. That a chain as a whole delivers the data is proved of a card, in
`WriteCard`.
-/

namespace Keyroost.Piv

open Proto

/-! ### TLVs -/

def pushBerLen (len : Nat) : List UInt8 :=
  if len < 0x80 then [len.toUInt8]
  else if len ≤ 0xFF then [0x81, len.toUInt8]
  else 0x82 :: Bytes.be 2 len

def pushTlv (tag value : List UInt8) : List UInt8 := tag ++ pushBerLen value.length ++ value

/-! ### One APDU -/

def buildApduExt (cla ins p1 p2 : UInt8) (data : List UInt8) (le : Option UInt16) :
    List UInt8 :=
  if data.length ≤ 255 ∧ le.all (· ≤ 256) then
    [cla, ins, p1, p2] ++ ShortApdu.lcData data ++
      le.toList.map fun v => if v = 256 then 0x00 else v.toUInt8
  else
    [cla, ins, p1, p2, 0x00] ++ (if data = [] then [] else Bytes.be 2 data.length ++ data) ++
      (le.toList.map fun v => Bytes.be 2 v.toNat).flatten

/-- Whether an APDU of a command with data is an extended-length one. -/
def usesExtendedLength (apdu : List UInt8) : Bool := apdu[4]? == some 0x00

/-! ### A chain -/

/-- `data.chunks(n)`. The number counts down the bytes that may be left. -/
def chunksFrom (n : Nat) : Nat → List UInt8 → List (List UInt8)
  | 0, _ => []
  | left + 1, data =>
      if data = [] then [] else data.take n :: chunksFrom n left (data.drop n)

def chunks (n : Nat) (data : List UInt8) : List (List UInt8) := chunksFrom n data.length data

def chainLinks (cla ins p1 p2 : UInt8) (finalLe : Option UInt8) :
    List (List UInt8) → List (List UInt8)
  | [] => []
  | [last] => [[cla, ins, p1, p2, last.length.toUInt8] ++ last ++ finalLe.toList]
  | chunk :: rest =>
      ([cla ||| 0x10, ins, p1, p2, chunk.length.toUInt8] ++ chunk) ::
        chainLinks cla ins p1 p2 finalLe rest

def chainApdu (cla ins p1 p2 : UInt8) (data : List UInt8) (maxChunk : Nat)
    (finalLe : Option UInt8) : List (List UInt8) :=
  if data = [] then [[cla, ins, p1, p2, 0x00] ++ finalLe.toList]
  else chainLinks cla ins p1 p2 finalLe (chunks maxChunk data)

theorem chunksFrom_flatten {n left : Nat} {data : List UInt8} (hn : 0 < n)
    (hleft : data.length ≤ left) : (chunksFrom n left data).flatten = data := by
  induction left generalizing data with
  | zero => exact (List.eq_nil_of_length_eq_zero (Nat.le_zero.mp hleft)).symm
  | succ left ih =>
      rw [chunksFrom]
      split
      · next hnil => exact hnil.symm
      · have hdrop : (data.drop n).length ≤ left := by
          rw [List.length_drop]
          omega
        rw [List.flatten_cons, ih hdrop, List.take_append_drop]

theorem mem_chunksFrom {n left : Nat} {data chunk : List UInt8} (hn : 0 < n)
    (h : chunk ∈ chunksFrom n left data) : chunk ≠ [] ∧ chunk.length ≤ n := by
  induction left generalizing data with
  | zero => cases h
  | succ left ih =>
      rw [chunksFrom] at h
      split at h
      · cases h
      · next hne =>
          rcases List.mem_cons.mp h with rfl | h
          · refine ⟨?_, List.length_take_le n data⟩
            rw [Ne, List.take_eq_nil_iff]
            rintro (rfl | hnil)
            · exact absurd hn (Nat.lt_irrefl 0)
            · exact hne hnil
          · exact ih h

theorem flatten_chunks {n : Nat} (hn : 0 < n) (data : List UInt8) :
    (chunks n data).flatten = data := chunksFrom_flatten hn (Nat.le_refl _)

theorem mem_chunks {n : Nat} {data chunk : List UInt8} (hn : 0 < n)
    (h : chunk ∈ chunks n data) : chunk ≠ [] ∧ chunk.length ≤ n := mem_chunksFrom hn h

theorem chunks_ne_nil {n : Nat} {data : List UInt8} (hn : 0 < n) (hne : data ≠ []) :
    chunks n data ≠ [] := by
  intro hnil
  have hflat := flatten_chunks hn data
  rw [hnil] at hflat
  exact hne hflat.symm

/-! ### What a card reads -/

/-- A complete command: its class without the chaining bit, and its whole data field. It is what a
card has after any number of links, and what an extended command says in one. -/
structure Command where
  cla : UInt8
  ins : UInt8
  p1 : UInt8
  p2 : UInt8
  data : List UInt8
deriving DecidableEq, Repr

/-- The data field behind a header: an extended length starts with a zero byte. -/
def dataField : List UInt8 → List UInt8
  | 0x00 :: hi :: lo :: body => body.take (Bytes.ofBe [hi, lo])
  | lc :: body => body.take lc.toNat
  | [] => []

/-- Whether an APDU is a link with more to come, and the command it is or is part of. -/
def readApdu : List UInt8 → Option (Bool × Command)
  | cla :: ins :: p1 :: p2 :: rest =>
      some (cla &&& 0x10 != 0, ⟨cla &&& 0xEF, ins, p1, p2, dataField rest⟩)
  | _ => none

theorem toNat_length_toUInt8 {data : List UInt8} (h : data.length ≤ 255) :
    data.length.toUInt8.toNat = data.length := by
  rw [Nat.toUInt8, UInt8.toNat_ofNat']
  omega

theorem dataField_short {data : List UInt8} (hne : data ≠ []) (hlen : data.length ≤ 255)
    (le : List UInt8) : dataField (data.length.toUInt8 :: (data ++ le)) = data := by
  have hlc := toNat_length_toUInt8 hlen
  have hpos := List.length_pos_iff.mpr hne
  have hzero : data.length.toUInt8 ≠ 0x00 := by
    intro h
    rw [h] at hlc
    rw [← hlc] at hpos
    exact absurd hpos (by decide)
  have htake : (data ++ le).take data.length.toUInt8.toNat = data := by
    rw [hlc, List.take_left]
  unfold dataField
  split
  · next h => exact absurd (List.cons.inj h).1 hzero
  · next h =>
      obtain ⟨rfl, rfl⟩ := List.cons.inj h
      exact htake
  · next h => cases h

/-- **One APDU**: the card reads the header and the data, whichever of the two lengths. -/
theorem readApdu_buildApduExt (ins p1 p2 : UInt8) {data : List UInt8} (le : Option UInt16)
    (h : data.length ≤ 0xFFFF) :
    readApdu (buildApduExt 0x00 ins p1 p2 data le) =
      some (false, ⟨0x00, ins, p1, p2, data⟩) := by
  unfold buildApduExt
  split
  · next hshort =>
      have hdata : dataField (ShortApdu.lcData data ++
          le.toList.map fun v => if v = 256 then 0x00 else v.toUInt8) = data := by
        rw [ShortApdu.lcData]
        split
        · next hnil =>
            rw [hnil]
            rcases le with _ | v
            · rfl
            · rw [List.nil_append, Option.toList_some, List.map_singleton, dataField,
                List.take_nil]
              intro _ _ _ _ hcontra
              cases hcontra
        · next hne => exact dataField_short hne hshort.1 _
      show some (false, Command.mk 0x00 ins p1 p2 (dataField (ShortApdu.lcData data ++ _))) = _
      rw [hdata]
  · by_cases hnil : data = []
    · rw [if_pos hnil, hnil]
      rcases le with _ | v
      · rfl
      · show some (false, Command.mk 0x00 ins p1 p2 (dataField
          (0x00 :: ((Bytes.be 2 v.toNat) ++ [])))) = _
        obtain ⟨hi, lo, hbe⟩ : ∃ hi lo, Bytes.be 2 v.toNat = [hi, lo] := ⟨_, _, rfl⟩
        rw [hbe]
        show some (false, Command.mk 0x00 ins p1 p2 (List.take _ [])) = _
        rw [List.take_nil]
    · rw [if_neg hnil]
      obtain ⟨hi, lo, hbe⟩ : ∃ hi lo, Bytes.be 2 data.length = [hi, lo] := ⟨_, _, rfl⟩
      rw [hbe]
      show some (false, Command.mk 0x00 ins p1 p2
        ((data ++ _).take (Bytes.ofBe [hi, lo]))) = _
      rw [← hbe, Bytes.ofBe_be (by omega), List.take_left]

theorem readApdu_link (ins p1 p2 : UInt8) {chunk : List UInt8} (hne : chunk ≠ [])
    (hlen : chunk.length ≤ 255) :
    readApdu ([0x00 ||| 0x10, ins, p1, p2, chunk.length.toUInt8] ++ chunk) =
      some (true, ⟨0x00, ins, p1, p2, chunk⟩) := by
  have hdata := dataField_short hne hlen []
  rw [List.append_nil] at hdata
  show some (true, Command.mk 0x00 ins p1 p2 (dataField (chunk.length.toUInt8 :: chunk))) = _
  rw [hdata]

theorem readApdu_last (ins p1 p2 : UInt8) (finalLe : Option UInt8) {chunk : List UInt8}
    (hne : chunk ≠ []) (hlen : chunk.length ≤ 255) :
    readApdu ([0x00, ins, p1, p2, chunk.length.toUInt8] ++ chunk ++ finalLe.toList) =
      some (false, ⟨0x00, ins, p1, p2, chunk⟩) := by
  show some (false, Command.mk 0x00 ins p1 p2
    (dataField (chunk.length.toUInt8 :: (chunk ++ finalLe.toList)))) = _
  rw [dataField_short hne hlen]

theorem usesExtendedLength_buildApduExt (ins p1 p2 : UInt8) (data : List UInt8) :
    usesExtendedLength (buildApduExt 0x00 ins p1 p2 data none) = decide (255 < data.length) := by
  unfold buildApduExt
  split
  · next hshort =>
      rw [decide_eq_false (Nat.not_lt.mpr hshort.1)]
      cases data with
      | nil => rfl
      | cons d data =>
          have hlc := toNat_length_toUInt8 hshort.1
          have hzero : (d :: data).length.toUInt8 ≠ 0x00 := by
            intro h
            rw [h] at hlc
            cases hlc
          show (some (d :: data).length.toUInt8 == some 0x00) = false
          rw [Option.some_beq_some]
          exact beq_eq_false_iff_ne.mpr hzero
  · next hlong =>
      have hlt : 255 < data.length := by
        by_contra hle
        exact hlong ⟨Nat.le_of_not_lt hle, rfl⟩
      rw [decide_eq_true hlt]
      rfl

end Keyroost.Piv
