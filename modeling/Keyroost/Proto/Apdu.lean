/-!
# Short command APDUs

A short APDU is a four-byte header, then the data behind its one length byte (if there is any), then
Le (if the command has one). A case-3 APDU has data and no Le. The builders are those of
`keyroost-proto/src/apdu.rs`, which every applet of the repository sends its commands with.

`ShortApdu` is a command in one of the four cases, with its bytes; `resendWithLe` works on the bytes
alone, as the source does, and `resendWithLe_bytes` says that on such a command it puts the Le in
its place and changes nothing else.
-/

namespace Keyroost.Proto

/-- The data did not fit a short APDU. -/
structure ApduBodyTooLong where
  len : Nat
deriving DecidableEq, Repr

def tryBuildApdu (cla ins p1 p2 : UInt8) (data : List UInt8) :
    Except ApduBodyTooLong (List UInt8) :=
  if 255 < data.length then .error { len := data.length }
  else .ok ([cla, ins, p1, p2, data.length.toUInt8] ++ data)

/-- `tryBuildApdu` for data known to fit: the source panics beyond 255 bytes. -/
def buildApdu (cla ins p1 p2 : UInt8) (data : List UInt8) : List UInt8 :=
  [cla, ins, p1, p2, data.length.toUInt8] ++ data

def buildApduGet (cla ins p1 p2 le : UInt8) : List UInt8 := [cla, ins, p1, p2, le]

/-- The APDU to resend after `6C xx`: a trailing Le is replaced, and one that does not
provably end in Le gets it appended. -/
def resendWithLe (original : List UInt8) (le : UInt8) : List UInt8 :=
  let endsInLe :=
    match original.length with
    | 0 | 1 | 2 | 3 | 4 => false
    | 5 => true
    | n =>
        let lc := (original.getD 4 0).toNat
        n == 5 + lc + 1
  if endsInLe then original.set (original.length - 1) le else original ++ [le]

/-! ### The four short cases -/

/-- A short command of any of the four cases of ISO 7816-4. The bound on its data is a field, so
that its length byte is always right. -/
structure ShortApdu where
  cla : UInt8
  ins : UInt8
  p1 : UInt8
  p2 : UInt8
  data : List UInt8
  le : Option UInt8
  dataLen : data.length ≤ 255
deriving DecidableEq, Repr

namespace ShortApdu

def lcData (data : List UInt8) : List UInt8 :=
  if data = [] then [] else data.length.toUInt8 :: data

def bytes (c : ShortApdu) : List UInt8 :=
  [c.cla, c.ins, c.p1, c.p2] ++ lcData c.data ++ c.le.toList

/-- The same command with another Le. -/
def withLe (c : ShortApdu) (le : UInt8) : ShortApdu := { c with le := some le }

@[simp] theorem withLe_withLe (c : ShortApdu) (le le' : UInt8) :
    (c.withLe le).withLe le' = c.withLe le' := rfl

theorem length_bytes (c : ShortApdu) :
    c.bytes.length = 4 + (lcData c.data).length + c.le.toList.length := by
  simp only [bytes, List.length_append, List.length_cons, List.length_nil]

theorem length_bytes_withLe_le (c : ShortApdu) (le : UInt8) :
    (c.withLe le).bytes.length ≤ c.bytes.length + 1 := by
  rw [length_bytes, length_bytes, withLe]
  simp only [Option.toList_some, List.length_cons, List.length_nil]
  omega

/-- Reissuing changes Le and nothing else: no header byte, no data byte. -/
theorem resendWithLe_bytes (c : ShortApdu) (le : UInt8) :
    resendWithLe c.bytes le = (c.withLe le).bytes := by
  obtain ⟨cla, ins, p1, p2, data, old, hdata⟩ := c
  cases data with
  | nil => cases old <;> rfl
  | cons d data =>
      have hlc : (data.length + 1) % 256 = data.length + 1 := by
        rw [List.length_cons] at hdata
        omega
      cases old with
      | none =>
          have hlen : data.length + 5 ≠ 5 + (data.length + 1) := by omega
          simp [resendWithLe, bytes, lcData, withLe, hlc, hlen]
      | some l =>
          have hlen : (data.length + 6 = 5 + (data.length + 1)) = True := eq_true (by omega)
          simp [resendWithLe, bytes, lcData, withLe, hlc, hlen]

end ShortApdu

end Keyroost.Proto
