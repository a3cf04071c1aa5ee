import Keyroost.Piv.LongApdu
import Keyroost.Piv.Types

/-!
# Certificate objects

A slot's certificate object holds the certificate or its gzip form, and says which. Reading one
takes the first TLV of each tag at the top level. Modelled from `keyroost-piv/src/lib.rs`, and the
decoding that a session does with it from `keyroost-transport/src/lib.rs`.

The search for a tag slices the object as the source does (`slice?`), so a length that runs past
the end ends the search and does not panic. What is written here is found again
(`findTlvFrom_pushTlv`, `certObjectParts_encodeCertificate`); what is found in other objects is the
subject of `Gzip`.
-/

namespace Keyroost.Piv

/-! ### Writing -/

inductive CertInfo where
  | uncompressed
  | gzip
deriving DecidableEq, Repr

def CertInfo.byte : CertInfo → UInt8
  | .uncompressed => 0x00
  | .gzip => 0x01

def encodeCertificate (payload : List UInt8) (info : CertInfo) : List UInt8 :=
  pushTlv [0x70] payload ++ pushTlv [0x71] [info.byte] ++ pushTlv [0xFE] []

/-! ### Reading -/

/-- The length and the size of its own field. The callers here drop the error's text. -/
def readBerLen (buf : List UInt8) : Option (Nat × Nat) := do
  let first ← buf.head?
  if first < 0x80 then return (first.toNat, 1)
  let n := (first &&& 0x7F).toNat
  if n = 0 ∨ 2 < n then none
  else
    let bytes := (buf.drop 1).take n
    if bytes.length < n then none
    else return (Bytes.ofBe bytes, 1 + n)

/-- `buf.get(start..start + len)`. -/
def slice? (buf : List UInt8) (start len : Nat) : Option (List UInt8) :=
  if start + len ≤ buf.length then some ((buf.drop start).take len) else none

/-- The loop of `find_tlv`: the number counts down the bytes that may be left. -/
def findTlvFrom (tag : UInt8) : Nat → List UInt8 → Option (List UInt8)
  | 0, _ => none
  | _, [] => none
  | left + 1, t :: rest => do
      let (len, header) ← readBerLen rest
      let value ← slice? rest header len
      if t = tag then return value
      else findTlvFrom tag left (rest.drop (header + len))

def findTlv (buf : List UInt8) (tag : UInt8) : Option (List UInt8) :=
  findTlvFrom tag buf.length buf

def unwrapDataObject : List UInt8 → Option (List UInt8)
  | 0x53 :: rest => do
      let (len, header) ← readBerLen rest
      slice? rest header len
  | _ => none

/-- The certificate and whether it is compressed. -/
def certObjectParts (inner : List UInt8) : Option (List UInt8 × Bool) := do
  let der ← findTlv inner 0x70
  let info := (findTlv inner 0x71).bind List.head?
  return (der, info.any fun b => b &&& 0x01 != 0)

structure StoredCert where
  der : List UInt8
  compressed : Bool
deriving DecidableEq, Repr

/-- `gunzip` inflates a gzip member, up to the cap. -/
def certObjectDecode (gunzip : List UInt8 → Except CertUnreadable (List UInt8))
    (body : List UInt8) : Except CertUnreadable (Option StoredCert) :=
  match (unwrapDataObject body).bind certObjectParts with
  | none => .ok none
  | some (der, false) => .ok (some ⟨der, false⟩)
  | some (gz, true) => (gunzip gz).map fun der => some ⟨der, true⟩

/-! ### What was written reads back -/

theorem readBerLen_pushBerLen {len : Nat} (h : len ≤ 0xFFFF) (tail : List UInt8) :
    readBerLen (pushBerLen len ++ tail) = some (len, (pushBerLen len).length) := by
  unfold pushBerLen
  split
  · next hshort =>
      have hlen : len.toUInt8.toNat = len := by
        rw [Nat.toUInt8, UInt8.toNat_ofNat']
        omega
      have hlt : len.toUInt8 < 0x80 := by
        rw [UInt8.lt_iff_toNat_lt, hlen]
        exact hshort
      simp [readBerLen, hlt, hlen]
  · split
    · next hlong hone =>
        have hlen : len.toUInt8.toNat = len := by
          rw [Nat.toUInt8, UInt8.toNat_ofNat']
          omega
        have hbe : Bytes.ofBe [len.toUInt8] = len := by
          show len.toUInt8.toNat + 256 * 0 = len
          omega
        have hge : ¬ (0x81 : UInt8) < 0x80 := by decide
        simp [readBerLen, hge, hbe]
    · have hge : ¬ (0x82 : UInt8) < 0x80 := by decide
      have htake : (Bytes.be 2 len ++ tail).take 2 = Bytes.be 2 len := by
        rw [List.take_left' (Bytes.length_be 2 len)]
      show (if (0x82 : UInt8) < 0x80 then some (130, 1)
        else if 2 = 0 ∨ 2 < 2 then none
        else if ((Bytes.be 2 len ++ tail).take 2).length < 2 then none
        else some (Bytes.ofBe ((Bytes.be 2 len ++ tail).take 2), 1 + 2)) = _
      rw [if_neg hge, if_neg (by decide), htake, Bytes.length_be, if_neg (Nat.lt_irrefl 2),
        Bytes.ofBe_be (show len < 256 ^ 2 by omega)]
      rfl

theorem slice?_pushTlv (value tail : List UInt8) :
    slice? (pushBerLen value.length ++ value ++ tail) (pushBerLen value.length).length
      value.length = some value := by
  have hle : (pushBerLen value.length).length + value.length ≤
      (pushBerLen value.length ++ value ++ tail).length := by
    rw [List.length_append, List.length_append]
    omega
  rw [slice?, if_pos hle, List.append_assoc, List.drop_left, List.take_left]

theorem findTlvFrom_pushTlv (tag t : UInt8) {value : List UInt8} (h : value.length ≤ 0xFFFF)
    (tail : List UInt8) (left : Nat) :
    findTlvFrom tag (left + 1) (pushTlv [t] value ++ tail) =
      if t = tag then some value else findTlvFrom tag left tail := by
  have hcons : pushTlv [t] value ++ tail =
      t :: (pushBerLen value.length ++ value ++ tail) := by
    rw [pushTlv, List.append_assoc [t], List.append_assoc [t], List.singleton_append]
  have hdrop : (pushBerLen value.length ++ value ++ tail).drop
      ((pushBerLen value.length).length + value.length) = tail := by
    rw [← List.length_append, List.drop_left]
  rw [hcons, findTlvFrom, List.append_assoc, readBerLen_pushBerLen h, ← List.append_assoc]
  show (do
    let v ← slice? _ _ _
    if t = tag then return v else findTlvFrom tag left _) = _
  rw [slice?_pushTlv, hdrop]
  rfl

theorem unwrapDataObject_pushTlv {value : List UInt8} (h : value.length ≤ 0xFFFF) :
    unwrapDataObject (pushTlv [0x53] value) = some value := by
  have hslice := slice?_pushTlv value []
  rw [List.append_nil] at hslice
  show (do
    let (len, header) ← readBerLen (pushBerLen value.length ++ value)
    slice? (pushBerLen value.length ++ value) header len) = _
  rw [readBerLen_pushBerLen h]
  exact hslice

/-- An object as it was encoded gives its payload and its form. -/
theorem certObjectParts_encodeCertificate {payload : List UInt8}
    (h : payload.length ≤ 0xFFFF) (info : CertInfo) :
    certObjectParts (encodeCertificate payload info) =
      some (payload, decide (info = .gzip)) := by
  have hbyte : [info.byte].length ≤ 0xFFFF := Nat.le_of_ble_eq_true rfl
  obtain ⟨left, hleft⟩ : ∃ left, (encodeCertificate payload info).length = left + 2 := by
    refine Nat.exists_eq_add_of_le' ?_
    simp only [encodeCertificate, pushTlv, List.length_append, List.length_cons, List.length_nil]
    omega
  have hder : findTlv (encodeCertificate payload info) 0x70 = some payload := by
    rw [findTlv, hleft, encodeCertificate, List.append_assoc, findTlvFrom_pushTlv _ _ h]
    rfl
  have hinfo : findTlv (encodeCertificate payload info) 0x71 = some [info.byte] := by
    rw [findTlv, hleft, encodeCertificate, List.append_assoc, findTlvFrom_pushTlv _ _ h,
      findTlvFrom_pushTlv _ _ hbyte]
    rfl
  rw [certObjectParts, hder, hinfo]
  cases info <;> rfl

end Keyroost.Piv
