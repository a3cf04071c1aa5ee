import Keyroost.Ctap.DeviceLabel

/-!
# Integers in the maps that keys send

The algorithm of a credential's public key (`keyroost-ctap/src/cred_mgmt.rs`) and the answer to a
PIN request (`keyroost-ctap/src/client_pin.rs`): maps under integer keys, read through casts to 64
and 32 bits, which wrap.

`integerOf` is the integer that a device stored, without any cast. `AlgorithmRead` and
`PinResponseRead` say that what was read is what was stored under the key asked for, and
`AlgorithmFits` and `PinResponseFits` are conditions on the map alone, that no other key or value
wraps to one that is looked for. `keyMaps_read_iff` shows that these are exactly the maps that are
read as they were stored, and `wrapped_read` goes through four that are not.
-/

namespace Keyroost.Ctap

open Cbor

/-! ### The readers -/

/-- A CBOR integer as an `i64`: `n as i64`, or `-1 - (n as i64)`. -/
def castInt : Value → Option Int64
  | .uInt n => some n.toInt64
  | .nInt n => some (-1 - n.toInt64)
  | _ => none

/-- The loop of `public_key_algorithm`. -/
def algorithmIn : List (Value × Value) → Option Int64
  | [] => none
  | (k, val) :: entries => if castInt k = some 3 then castInt val else algorithmIn entries

def publicKeyAlgorithm (pubkey : Value) : Option Int64 := algorithmIn (pubkey.asMap.getD [])

/-- `[u8; 32]`. -/
abbrev Bytes32 : Type := {b : List UInt8 // b.length = 32}

def asBytes32 (v : Value) : Option Bytes32 :=
  v.asBytes.bind fun b => if h : b.length = 32 then some ⟨b, h⟩ else none

structure PinResponse where
  retries : Option UInt32
  keyAgreement : Option (Bytes32 × Bytes32)
  pinTokenEnc : Option (List UInt8)
deriving DecidableEq, Repr

def PinResponse.empty : PinResponse :=
  { retries := none, keyAgreement := none, pinTokenEnc := none }

inductive Coordinate where
  | x
  | y
deriving DecidableEq, Repr

def COSE_X : Int := -2
def COSE_Y : Int := -3

/-- The integer key that a coordinate is stored under. -/
def Coordinate.key : Coordinate → Int
  | x => COSE_X
  | y => COSE_Y

/-- The coordinate that an entry of a COSE key is read as. -/
def coordinateOf (entry : Value × Value) : Option (Coordinate × Bytes32) :=
  match castInt entry.1 with
  | none => none
  | some kn =>
      if kn = Int64.ofInt COSE_X then (asBytes32 entry.2).map (.x, ·)
      else if kn = Int64.ofInt COSE_Y then (asBytes32 entry.2).map (.y, ·)
      else none

/-- The loop's variables over a COSE key. -/
structure Coordinates where
  x : Option Bytes32
  y : Option Bytes32
deriving DecidableEq, Repr

def Coordinates.turn (c : Coordinates) (entry : Value × Value) : Coordinates :=
  match coordinateOf entry with
  | some (.x, b) => { c with x := some b }
  | some (.y, b) => { c with y := some b }
  | none => c

/-- Both coordinates of a COSE key, where it has both. -/
def agreementOf (m : List (Value × Value)) : Option (Bytes32 × Bytes32) :=
  let c := m.foldl Coordinates.turn { x := none, y := none }
  c.x.bind fun x => c.y.map fun y => (x, y)

/-- `val.as_uint().map(|n| n as u32)`. -/
def retriesOf (val : Value) : Option UInt32 := val.asUInt.map UInt64.toUInt32

/-- One turn over the response map. -/
def PinResponse.turn (out : PinResponse) (entry : Value × Value) : PinResponse :=
  let val := entry.2
  match entry.1.asUInt with
  | none => out
  | some key =>
      if key = 0x01 then
        match val.asMap.bind agreementOf with
        | some agreement => { out with keyAgreement := some agreement }
        | none => out
      else if key = 0x02 then
        match val.asBytes with
        | some b => { out with pinTokenEnc := some b }
        | none => out
      else if key = 0x03 then { out with retries := retriesOf val }
      else out

def parsePinResponse (v : Value) : Except CtapError PinResponse :=
  match v.asMap with
  | none => .error (.invalidResponseShape "expected map")
  | some map => .ok (map.foldl PinResponse.turn .empty)

/-! ### What a device stores -/

/-- The integer that a value is. -/
def integerOf : Value → Option Int
  | .uInt n => some (n.toNat : Int)
  | .nInt n => some (-1 - (n.toNat : Int))
  | _ => none

def Representable (i : Int) : Prop := -2 ^ 63 ≤ i ∧ i < 2 ^ 63

instance (i : Int) : Decidable (Representable i) := inferInstanceAs (Decidable (_ ∧ _))

/-- The integer under key 3, where that is an integer of 64 bits. -/
def storedAlgorithm (entries : List (Value × Value)) : Option Int :=
  (entries.find? fun e => decide (integerOf e.1 = some 3)).bind fun e =>
    (integerOf e.2).filter fun i => decide (Representable i)

/-- The algorithm is read from key 3 alone, as it is stored there. -/
structure AlgorithmRead (pubkey : Value) : Prop where
  own : ∀ e, ((pubkey.asMap.getD []).find? fun e => decide (castInt e.1 = some 3)) = some e →
    integerOf e.1 = some 3
  exact : (publicKeyAlgorithm pubkey).map Int64.toInt = storedAlgorithm (pubkey.asMap.getD [])

/-- The COSE keys of a response. -/
def coseKeys (v : Value) : List (List (Value × Value)) :=
  (v.asMap.getD []).filterMap fun e => if e.1.asUInt = some 0x01 then e.2.asMap else none

/-- What the response has under the key of the retry count. -/
def retryValues (v : Value) : List Value :=
  (v.asMap.getD []).filterMap fun e => if e.1.asUInt = some 0x03 then some e.2 else none

/-- The coordinates and the retry count are read from their own keys, as they are stored there. The
first two say so of each entry that is taken for one, the last two of what the whole answer is read
as. -/
structure PinResponseRead (v : Value) : Prop where
  coordinates : ∀ m ∈ coseKeys v, ∀ e ∈ m, ∀ c b, coordinateOf e = some (c, b) →
    integerOf e.1 = some c.key ∧ e.2 = .bytes b
  counts : ∀ val ∈ retryValues v, ∀ n, retriesOf val = some n → integerOf val = some (n.toNat : Int)
  agreement : ∀ out x y, parsePinResponse v = .ok out → out.keyAgreement = some (x, y) →
    ∃ m ∈ coseKeys v, (∃ e ∈ m, integerOf e.1 = some COSE_X ∧ e.2 = .bytes x) ∧
      ∃ e ∈ m, integerOf e.1 = some COSE_Y ∧ e.2 = .bytes y
  retries : ∀ out n, parsePinResponse v = .ok out → out.retries = some n →
    ∃ val ∈ retryValues v, integerOf val = some (n.toNat : Int)

/-! ### When nothing wraps -/

/-- No entry before the one under key 3 is under the integer that wraps to 3, and what stands
there is no integer beyond 64 bits. -/
def AlgorithmFits (pubkey : Value) : Prop :=
  ∀ e, ((pubkey.asMap.getD []).find? fun e =>
      decide (integerOf e.1 = some 3 ∨ integerOf e.1 = some (3 - 2 ^ 64))) = some e →
    integerOf e.1 = some 3 ∧ ∀ i, integerOf e.2 = some i → Representable i

/-- No COSE key has 32 bytes under an integer that wraps to -2 or -3, and no retry count is
beyond 32 bits. -/
def PinResponseFits (v : Value) : Prop :=
  (∀ m ∈ coseKeys v, ∀ e ∈ m, (asBytes32 e.2).isSome →
    integerOf e.1 ≠ some (2 ^ 64 - 2) ∧ integerOf e.1 ≠ some (2 ^ 64 - 3)) ∧
  ∀ val ∈ retryValues v, ∀ n, val.asUInt = some n → n.toNat < 2 ^ 32

/-! ### Casts -/

theorem toInt_toInt64 (n : UInt64) : n.toInt64.toInt = (n.toNat : Int).bmod (2 ^ 64) :=
  BitVec.toInt_eq_toNat_bmod n.toBitVec

/-- A cast keeps an integer up to multiples of 2^64. -/
theorem castInt_eq_some_iff {v : Value} {w : Int64} :
    castInt v = some w ↔ ∃ i, integerOf v = some i ∧ w.toInt = i.bmod (2 ^ 64) := by
  cases v with
  | uInt n =>
      rw [castInt, integerOf, Option.some.injEq, ← Int64.toInt_inj, toInt_toInt64]
      constructor
      · exact fun h => ⟨_, rfl, h.symm⟩
      · rintro ⟨i, hi, hw⟩
        rw [hw, ← Option.some.inj hi]
  | nInt n =>
      have hcast : (-1 - n.toInt64).toInt = (-1 - (n.toNat : Int)).bmod (2 ^ 64) := by
        rw [Int64.toInt_sub, toInt_toInt64, Int.sub_bmod_bmod]
        rfl
      rw [castInt, integerOf, Option.some.injEq, ← Int64.toInt_inj, hcast]
      constructor
      · exact fun h => ⟨_, rfl, h.symm⟩
      · rintro ⟨i, hi, hw⟩
        rw [hw, ← Option.some.inj hi]
  | bytes b => exact ⟨nofun, fun ⟨_, hi, _⟩ => absurd hi nofun⟩
  | text s => exact ⟨nofun, fun ⟨_, hi, _⟩ => absurd hi nofun⟩
  | array items => exact ⟨nofun, fun ⟨_, hi, _⟩ => absurd hi nofun⟩
  | map entries => exact ⟨nofun, fun ⟨_, hi, _⟩ => absurd hi nofun⟩
  | bool b => exact ⟨nofun, fun ⟨_, hi, _⟩ => absurd hi nofun⟩
  | null => exact ⟨nofun, fun ⟨_, hi, _⟩ => absurd hi nofun⟩

/-- CBOR integers have 64 bits and a sign. -/
theorem integerOf_range {v : Value} {i : Int} (h : integerOf v = some i) :
    -2 ^ 64 ≤ i ∧ i < 2 ^ 64 := by
  cases v with
  | uInt n =>
      obtain rfl := Option.some.inj h
      have := n.toNat_lt
      omega
  | nInt n =>
      obtain rfl := Option.some.inj h
      have := n.toNat_lt
      omega
  | bytes b => cases h
  | text s => cases h
  | array items => cases h
  | map entries => cases h
  | bool b => cases h
  | null => cases h

theorem bmod_eq_iff {i j : Int} (hi : -2 ^ 64 ≤ i ∧ i < 2 ^ 64) (hj : Representable j) :
    j = i.bmod (2 ^ 64) ↔ i = j ∨ i = j - 2 ^ 64 ∨ i = j + 2 ^ 64 := by
  obtain ⟨hlow, hhigh⟩ := hj
  rw [Int.bmod_def]
  split <;> omega

/-- Which integers a cast takes for a small one. -/
theorem castInt_eq_iff {v : Value} {j : Int} (hj : Representable j) :
    castInt v = some (Int64.ofInt j) ↔ integerOf v = some j ∨ integerOf v = some (j - 2 ^ 64) ∨
      integerOf v = some (j + 2 ^ 64) := by
  have hcast : (Int64.ofInt j).toInt = j := Int64.toInt_ofInt_of_le hj.1 hj.2
  rw [castInt_eq_some_iff, hcast]
  constructor
  · rintro ⟨i, hi, hw⟩
    rw [hi, Option.some.injEq, Option.some.injEq, Option.some.injEq]
    exact (bmod_eq_iff (integerOf_range hi) hj).mp hw
  · rintro (h | h | h)
    · exact ⟨j, h, (bmod_eq_iff (integerOf_range h) hj).mpr (.inl rfl)⟩
    · exact ⟨j - 2 ^ 64, h, (bmod_eq_iff (integerOf_range h) hj).mpr (.inr (.inl rfl))⟩
    · exact ⟨j + 2 ^ 64, h, (bmod_eq_iff (integerOf_range h) hj).mpr (.inr (.inr rfl))⟩

/-- A cast keeps what it has room for, and nothing else. -/
theorem castInt_exact_iff {v : Value} :
    (castInt v).map Int64.toInt = (integerOf v).filter (fun i => decide (Representable i)) ↔
      ∀ i, integerOf v = some i → Representable i := by
  cases hinteger : integerOf v with
  | none =>
      have hcast : castInt v = none := by
        cases hcast : castInt v with
        | none => rfl
        | some w =>
            obtain ⟨i, hi, -⟩ := castInt_eq_some_iff.mp hcast
            exact absurd (hinteger.symm.trans hi) nofun
      rw [hcast]
      exact ⟨fun _ => nofun, fun _ => rfl⟩
  | some i =>
      have hcast : castInt v = some (Int64.ofInt i) :=
        castInt_eq_some_iff.mpr ⟨i, hinteger, Int64.toInt_ofInt⟩
      rw [hcast, Option.map_some]
      constructor
      · intro h j hj
        obtain rfl := Option.some.inj hj
        by_contra hno
        rw [Option.filter_some, decide_eq_false hno] at h
        cases h
      · intro h
        have hi := h i rfl
        rw [Option.filter_some, decide_eq_true hi, Int64.toInt_ofInt_of_le hi.1 hi.2]
        rfl

/-! ### The algorithm -/

theorem algorithmIn_eq (entries : List (Value × Value)) : algorithmIn entries =
    (entries.find? fun e => decide (castInt e.1 = some 3)).bind fun e => castInt e.2 := by
  induction entries with
  | nil => rfl
  | cons e entries ih =>
      obtain ⟨k, val⟩ := e
      rw [algorithmIn, List.find?_cons]
      by_cases hk : castInt k = some 3
      · rw [if_pos hk, decide_eq_true hk]
        rfl
      · rw [if_neg hk, decide_eq_false hk, ih]

/-- What reads as key 3. -/
theorem castInt_eq_three {v : Value} : castInt v = some 3 ↔
    integerOf v = some 3 ∨ integerOf v = some (3 - 2 ^ 64) := by
  have hthree : Representable 3 := by decide
  have hno : integerOf v ≠ some (3 + 2 ^ 64) := by
    intro h
    have := integerOf_range h
    omega
  rw [show (3 : Int64) = Int64.ofInt 3 from rfl, castInt_eq_iff hthree, or_iff_left hno]

/-- The first entry with a property has a stronger one: it is the first with that, too. -/
theorem find?_of_imp {α : Type} {p q : α → Bool} (himp : ∀ x, q x = true → p x = true) {l : List α}
    {e : α} (he : l.find? p = some e) (hq : q e = true) : l.find? q = some e := by
  obtain ⟨hp, front, back, rfl, hfront⟩ := List.find?_eq_some_iff_append.mp he
  refine List.find?_eq_some_iff_append.mpr ⟨hq, front, back, rfl, ?_⟩
  intro x hx
  have hno := hfront x hx
  rw [Bool.not_eq_true'] at hno ⊢
  exact eq_false_of_ne_true fun hqx => absurd (himp x hqx) (ne_true_of_eq_false hno)

/-- What is read, and what is stored, of the first entry that reads as key 3. -/
theorem algorithm_of_first {pubkey : Value} {e : Value × Value}
    (he : ((pubkey.asMap.getD []).find? fun e => decide (castInt e.1 = some 3)) = some e)
    (hthree : integerOf e.1 = some 3) :
    (publicKeyAlgorithm pubkey).map Int64.toInt = storedAlgorithm (pubkey.asMap.getD []) ↔
      ∀ i, integerOf e.2 = some i → Representable i := by
  have hstored : ((pubkey.asMap.getD []).find? fun e => decide (integerOf e.1 = some 3)) =
      some e := by
    refine find?_of_imp ?_ he (decide_eq_true hthree)
    intro x hx
    exact decide_eq_true (castInt_eq_three.mpr (.inl (of_decide_eq_true hx)))
  rw [publicKeyAlgorithm, algorithmIn_eq, he, storedAlgorithm, hstored, Option.bind_some,
    Option.bind_some]
  exact castInt_exact_iff

theorem algorithmRead_iff (pubkey : Value) : AlgorithmRead pubkey ↔ AlgorithmFits pubkey := by
  have hsame : (fun e : Value × Value => decide (castInt e.1 = some 3)) =
      fun e => decide (integerOf e.1 = some 3 ∨ integerOf e.1 = some (3 - 2 ^ 64)) :=
    funext fun e => decide_eq_decide.mpr castInt_eq_three
  constructor
  · rintro ⟨hown, hexact⟩ e he
    rw [← hsame] at he
    have hthree := hown e he
    exact ⟨hthree, (algorithm_of_first he hthree).mp hexact⟩
  · intro hfits
    rw [AlgorithmFits, ← hsame] at hfits
    refine ⟨fun e he => (hfits e he).1, ?_⟩
    cases hfirst : (pubkey.asMap.getD []).find? fun e => decide (castInt e.1 = some 3) with
    | some e =>
        obtain ⟨hthree, hvalue⟩ := hfits e hfirst
        exact (algorithm_of_first hfirst hthree).mpr hvalue
    | none =>
        have hnone : ((pubkey.asMap.getD []).find? fun e => decide (integerOf e.1 = some 3)) =
            none := by
          rw [List.find?_eq_none] at hfirst ⊢
          intro e he hthree
          exact hfirst e he
            (decide_eq_true (castInt_eq_three.mpr (.inl (of_decide_eq_true hthree))))
        rw [publicKeyAlgorithm, algorithmIn_eq, hfirst, storedAlgorithm, hnone]
        rfl

/-! ### The answer to a PIN request -/

theorem asBytes32_eq_some {v : Value} {b : Bytes32} (h : asBytes32 v = some b) : v = .bytes b := by
  obtain ⟨b', hb', h⟩ := Option.bind_eq_some_iff.mp h
  split at h
  · obtain rfl := Option.some.inj h
    cases v with
    | bytes b'' => rw [Option.some.inj hb']
    | uInt n => cases hb'
    | nInt n => cases hb'
    | text s => cases hb'
    | array items => cases hb'
    | map entries => cases hb'
    | bool b => cases hb'
    | null => cases hb'
  · cases h

theorem castInt_eq_key {v : Value} (c : Coordinate) : castInt v = some (Int64.ofInt c.key) ↔
    integerOf v = some c.key ∨ integerOf v = some (2 ^ 64 + c.key) := by
  have hsmall : Representable c.key := by cases c <;> decide
  have hno : integerOf v ≠ some (c.key - 2 ^ 64) := by
    intro h
    have := integerOf_range h
    cases c
    · rw [Coordinate.key, COSE_X] at this
      omega
    · rw [Coordinate.key, COSE_Y] at this
      omega
  rw [castInt_eq_iff hsmall, or_iff_right hno, Int.add_comm]

/-- An entry is read as a coordinate when its key reads as one and it has 32 bytes. -/
theorem coordinateOf_eq_some {e : Value × Value} {c : Coordinate} {b : Bytes32} :
    coordinateOf e = some (c, b) ↔
      castInt e.1 = some (Int64.ofInt c.key) ∧ asBytes32 e.2 = some b := by
  rw [coordinateOf]
  cases castInt e.1 with
  | none => exact ⟨nofun, fun h => absurd h.1 nofun⟩
  | some kn =>
      dsimp only
      rw [Option.some.injEq]
      by_cases hx : kn = Int64.ofInt COSE_X
      · rw [if_pos hx, Option.map_eq_some_iff, hx]
        constructor
        · rintro ⟨b', hb', h⟩
          cases h
          exact ⟨rfl, hb'⟩
        · rintro ⟨hkey, hb⟩
          cases c with
          | x => exact ⟨b, hb, rfl⟩
          | y => exact absurd hkey (by decide)
      · rw [if_neg hx]
        by_cases hy : kn = Int64.ofInt COSE_Y
        · rw [if_pos hy, Option.map_eq_some_iff, hy]
          constructor
          · rintro ⟨b', hb', h⟩
            cases h
            exact ⟨rfl, hb'⟩
          · rintro ⟨hkey, hb⟩
            cases c with
            | x => exact absurd hkey (by decide)
            | y => exact ⟨b, hb, rfl⟩
        · rw [if_neg hy]
          refine ⟨nofun, ?_⟩
          rintro ⟨hkey, -⟩
          cases c with
          | x => exact absurd hkey hx
          | y => exact absurd hkey hy

/-- An entry is read as no other key's coordinate when its integer does not wrap to one. -/
theorem coordinate_own_iff (e : Value × Value) :
    (∀ c b, coordinateOf e = some (c, b) → integerOf e.1 = some c.key ∧ e.2 = .bytes b) ↔
      ((asBytes32 e.2).isSome →
        integerOf e.1 ≠ some (2 ^ 64 - 2) ∧ integerOf e.1 ≠ some (2 ^ 64 - 3)) := by
  constructor
  · intro hown hsome
    obtain ⟨b, hb⟩ := Option.isSome_iff_exists.mp hsome
    have hno : ∀ c : Coordinate, integerOf e.1 ≠ some (2 ^ 64 + c.key) := by
      intro c hwraps
      have hread := coordinateOf_eq_some.mpr ⟨(castInt_eq_key c).mpr (.inr hwraps), hb⟩
      have hkey := (hown c b hread).1
      rw [hwraps, Option.some.injEq] at hkey
      omega
    exact ⟨hno .x, hno .y⟩
  · intro hfits c b hread
    obtain ⟨hcast, hb⟩ := coordinateOf_eq_some.mp hread
    refine ⟨?_, asBytes32_eq_some hb⟩
    obtain ⟨hx, hy⟩ := hfits (hb ▸ rfl)
    rcases (castInt_eq_key c).mp hcast with hkey | hwraps
    · exact hkey
    · cases c with
      | x => exact absurd hwraps hx
      | y => exact absurd hwraps hy

/-- A retry count is kept whole when it has 32 bits. -/
theorem retries_own_iff (val : Value) :
    (∀ n, retriesOf val = some n → integerOf val = some (n.toNat : Int)) ↔
      ∀ n, val.asUInt = some n → n.toNat < 2 ^ 32 := by
  cases val with
  | uInt n =>
      have hcut : n.toUInt32.toNat = n.toNat % 2 ^ 32 := UInt64.toNat_toUInt32 n
      constructor
      · intro hown m hm
        obtain rfl := Option.some.inj hm
        have hsame := Option.some.inj (hown n.toUInt32 rfl)
        omega
      · intro hsmall m hm
        obtain rfl := Option.some.inj hm
        have hlt := hsmall n rfl
        rw [integerOf, hcut, Nat.mod_eq_of_lt hlt]
  | nInt n => exact ⟨fun _ => nofun, fun _ => nofun⟩
  | bytes b => exact ⟨fun _ => nofun, fun _ => nofun⟩
  | text s => exact ⟨fun _ => nofun, fun _ => nofun⟩
  | array items => exact ⟨fun _ => nofun, fun _ => nofun⟩
  | map entries => exact ⟨fun _ => nofun, fun _ => nofun⟩
  | bool b => exact ⟨fun _ => nofun, fun _ => nofun⟩
  | null => exact ⟨fun _ => nofun, fun _ => nofun⟩

/-- What the loop's variable for a coordinate holds. -/
def Coordinates.get (c : Coordinates) : Coordinate → Option Bytes32
  | .x => c.x
  | .y => c.y

theorem Coordinates.turn_get {c : Coordinates} {e : Value × Value} {k : Coordinate} {b : Bytes32}
    (h : (c.turn e).get k = some b) : c.get k = some b ∨ coordinateOf e = some (k, b) := by
  rw [Coordinates.turn] at h
  split at h
  · rename_i b' hread
    cases k with
    | x => exact .inr (hread.trans (congrArg (fun b => some (Coordinate.x, b)) (Option.some.inj h)))
    | y => exact .inl h
  · rename_i b' hread
    cases k with
    | x => exact .inl h
    | y => exact .inr (hread.trans (congrArg (fun b => some (Coordinate.y, b)) (Option.some.inj h)))
  · exact .inl h

/-- What the loop over a COSE key has read stands in it. -/
theorem Coordinates.fold_get {m : List (Value × Value)} {c : Coordinates} {k : Coordinate}
    {b : Bytes32} (h : (m.foldl Coordinates.turn c).get k = some b) :
    c.get k = some b ∨ ∃ e ∈ m, coordinateOf e = some (k, b) := by
  induction m generalizing c with
  | nil => exact .inl h
  | cons e m ih =>
      rcases ih h with hturn | ⟨e', he', hread⟩
      · rcases Coordinates.turn_get hturn with hbefore | hread
        · exact .inl hbefore
        · exact .inr ⟨e, List.mem_cons_self, hread⟩
      · exact .inr ⟨e', List.mem_cons_of_mem e he', hread⟩

theorem agreementOf_eq_some {m : List (Value × Value)} {x y : Bytes32}
    (h : agreementOf m = some (x, y)) :
    (∃ e ∈ m, coordinateOf e = some (.x, x)) ∧ ∃ e ∈ m, coordinateOf e = some (.y, y) := by
  obtain ⟨x', hx, h⟩ := Option.bind_eq_some_iff.mp h
  obtain ⟨y', hy, h⟩ := Option.map_eq_some_iff.mp h
  cases h
  refine ⟨?_, ?_⟩
  · exact (Coordinates.fold_get (k := .x) hx).resolve_left nofun
  · exact (Coordinates.fold_get (k := .y) hy).resolve_left nofun

/-- What one turn over the response sets. -/
theorem PinResponse.turn_keyAgreement {out : PinResponse} {e : Value × Value}
    {agreement : Bytes32 × Bytes32} (h : (out.turn e).keyAgreement = some agreement) :
    out.keyAgreement = some agreement ∨
      e.1.asUInt = some 0x01 ∧ e.2.asMap.bind agreementOf = some agreement := by
  rw [PinResponse.turn] at h
  split at h
  · exact .inl h
  · rename_i key hkey
    split at h
    · rename_i hone
      split at h
      · rename_i agreement' hread
        exact .inr ⟨hone ▸ hkey, hread.trans h⟩
      · exact .inl h
    · split at h
      · split at h <;> exact .inl h
      · split at h <;> exact .inl h

theorem PinResponse.turn_retries {out : PinResponse} {e : Value × Value} {n : UInt32}
    (h : (out.turn e).retries = some n) :
    out.retries = some n ∨ e.1.asUInt = some 0x03 ∧ retriesOf e.2 = some n := by
  rw [PinResponse.turn] at h
  split at h
  · exact .inl h
  · rename_i key hkey
    split at h
    · split at h <;> exact .inl h
    · split at h
      · split at h <;> exact .inl h
      · split at h
        · rename_i hthree
          exact .inr ⟨hthree ▸ hkey, h⟩
        · exact .inl h

theorem PinResponse.fold_keyAgreement {entries : List (Value × Value)} {out : PinResponse}
    {agreement : Bytes32 × Bytes32}
    (h : (entries.foldl PinResponse.turn out).keyAgreement = some agreement) :
    out.keyAgreement = some agreement ∨
      ∃ e ∈ entries, e.1.asUInt = some 0x01 ∧ e.2.asMap.bind agreementOf = some agreement := by
  induction entries generalizing out with
  | nil => exact .inl h
  | cons e entries ih =>
      rcases ih h with hturn | ⟨e', he', hread⟩
      · rcases PinResponse.turn_keyAgreement hturn with hbefore | hread
        · exact .inl hbefore
        · exact .inr ⟨e, List.mem_cons_self, hread⟩
      · exact .inr ⟨e', List.mem_cons_of_mem e he', hread⟩

theorem PinResponse.fold_retries {entries : List (Value × Value)} {out : PinResponse} {n : UInt32}
    (h : (entries.foldl PinResponse.turn out).retries = some n) :
    out.retries = some n ∨ ∃ e ∈ entries, e.1.asUInt = some 0x03 ∧ retriesOf e.2 = some n := by
  induction entries generalizing out with
  | nil => exact .inl h
  | cons e entries ih =>
      rcases ih h with hturn | ⟨e', he', hread⟩
      · rcases PinResponse.turn_retries hturn with hbefore | hread
        · exact .inl hbefore
        · exact .inr ⟨e, List.mem_cons_self, hread⟩
      · exact .inr ⟨e', List.mem_cons_of_mem e he', hread⟩

theorem parsePinResponse_ok {v : Value} {out : PinResponse} (h : parsePinResponse v = .ok out) :
    out = (v.asMap.getD []).foldl PinResponse.turn .empty := by
  rw [parsePinResponse] at h
  split at h
  · cases h
  · rename_i map hmap
    rw [hmap]
    exact (Except.ok.inj h).symm

theorem pinResponseRead_iff (v : Value) : PinResponseRead v ↔ PinResponseFits v := by
  have hcoordinates : (∀ m ∈ coseKeys v, ∀ e ∈ m, ∀ c b, coordinateOf e = some (c, b) →
      integerOf e.1 = some c.key ∧ e.2 = .bytes b) ↔ _ :=
    forall_congr' fun m => forall_congr' fun _ => forall_congr' fun e => forall_congr' fun _ =>
      coordinate_own_iff e
  have hcounts : (∀ val ∈ retryValues v, ∀ n, retriesOf val = some n →
      integerOf val = some (n.toNat : Int)) ↔ _ :=
    forall_congr' fun val => forall_congr' fun _ => retries_own_iff val
  constructor
  · intro hread
    exact ⟨hcoordinates.mp hread.coordinates, hcounts.mp hread.counts⟩
  · rintro ⟨hfitsX, hfitsR⟩
    have hown := hcoordinates.mpr hfitsX
    have hwhole := hcounts.mpr hfitsR
    refine ⟨hown, hwhole, ?_, ?_⟩
    · intro out x y hout hagreement
      rw [parsePinResponse_ok hout] at hagreement
      obtain ⟨e, he, hkey, hread⟩ := (PinResponse.fold_keyAgreement hagreement).resolve_left nofun
      obtain ⟨m, hm, hread⟩ := Option.bind_eq_some_iff.mp hread
      have hcose : m ∈ coseKeys v :=
        List.mem_filterMap.mpr ⟨e, he, (if_pos hkey).trans hm⟩
      obtain ⟨⟨ex, hex, hx⟩, ⟨ey, hey, hy⟩⟩ := agreementOf_eq_some hread
      exact ⟨m, hcose, ⟨ex, hex, hown m hcose ex hex _ _ hx⟩, ⟨ey, hey, hown m hcose ey hey _ _ hy⟩⟩
    · intro out n hout hretries
      rw [parsePinResponse_ok hout] at hretries
      obtain ⟨e, he, hkey, hread⟩ := (PinResponse.fold_retries hretries).resolve_left nofun
      have hval : e.2 ∈ retryValues v := List.mem_filterMap.mpr ⟨e, he, if_pos hkey⟩
      exact ⟨e.2, hval, hwhole e.2 hval n hread⟩

/-- **Integers are read as the device stored them exactly when nothing wraps.** This is one
statement for the algorithm of a public key and one for the answer to a PIN request, each over every
value that a device may send, with the condition on the value alone. -/
theorem keyMaps_read_iff (pubkey v : Value) :
    (AlgorithmRead pubkey ↔ AlgorithmFits pubkey) ∧ (PinResponseRead v ↔ PinResponseFits v) :=
  ⟨algorithmRead_iff pubkey, pinResponseRead_iff v⟩

/-! ### Integers that wrap -/

/-- `{-(2^64 - 3): 7}`, `{3: 2^64 - 1}` and `{3: 2^32 + 5}` as devices send them. -/
def wrappedKey : Value := .map [(.nInt 0xfffffffffffffffc, .uInt 7)]

def wrappedAlgorithm : Value := .map [(.uInt 3, .uInt 0xffffffffffffffff)]

def wrappedRetries : Value := .map [(.uInt 3, .uInt 0x100000005)]

/-- A COSE key without keys -2 and -3. -/
def wrappedPoint : Value :=
  .map [(.uInt 1, .map [(.uInt 0xfffffffffffffffe, .bytes (List.replicate 32 1)),
    (.uInt 0xfffffffffffffffd, .bytes (List.replicate 32 2))])]

def ones32 : Bytes32 := ⟨List.replicate 32 1, List.length_replicate⟩

def twos32 : Bytes32 := ⟨List.replicate 32 2, List.length_replicate⟩

/-- Another key is read as 3, an algorithm beyond 64 bits as -1, 2^32 + 5 retries as 5, and other
keys' strings as the point. -/
theorem wrapped_read :
    (decode [0xa1, 0x3b, 0xff, 0xff, 0xff, 0xff, 0xff, 0xff, 0xff, 0xfc, 0x07] =
        .ok (wrappedKey, []) ∧
      publicKeyAlgorithm wrappedKey = some 7 ∧ ¬ AlgorithmRead wrappedKey) ∧
    (publicKeyAlgorithm wrappedAlgorithm = some (-1) ∧ ¬ AlgorithmRead wrappedAlgorithm) ∧
    (parsePinResponse wrappedRetries =
        .ok { retries := some 5, keyAgreement := none, pinTokenEnc := none } ∧
      ¬ PinResponseRead wrappedRetries) ∧
    parsePinResponse wrappedPoint =
        .ok { retries := none, keyAgreement := some (ones32, twos32), pinTokenEnc := none } ∧
      ¬ PinResponseRead wrappedPoint := by
  refine ⟨⟨rfl, by decide, ?_⟩, ⟨by decide, ?_⟩, ⟨by decide, ?_⟩, by decide, ?_⟩
  · rintro ⟨hown, -⟩
    exact absurd (hown (.nInt 0xfffffffffffffffc, .uInt 7) rfl) (by decide)
  · rintro ⟨-, hexact⟩
    exact absurd hexact (by decide)
  · intro hread
    exact absurd (hread.counts (.uInt 0x100000005) (List.mem_cons_self) 5 rfl) (by decide)
  · intro hread
    have hx := hread.coordinates [(.uInt 0xfffffffffffffffe, .bytes (List.replicate 32 1)),
      (.uInt 0xfffffffffffffffd, .bytes (List.replicate 32 2))] List.mem_cons_self
      _ List.mem_cons_self .x ones32 rfl
    exact absurd hx.1 (by decide)

end Keyroost.Ctap
