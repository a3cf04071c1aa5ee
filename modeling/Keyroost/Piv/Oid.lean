import Keyroost.Library.Regroup
import Keyroost.Piv.X509Parse

/-!
# The names of object identifiers

What the text of an identifier in a certificate says about the identifier. Its sub-identifiers are
numbers of any size, those of the reader in `keyroost-piv/src/x509_parse.rs` are words of 64 bits.

`Oid` is an identifier as the standard has it, with its encoding and its dotted text. What the
reader makes of the encoding is found in two steps: the words are the sub-identifiers modulo `2^64`
(`firstArcs_spec`, `restArcs_flatMap`), and the text of words tells them apart (`dotted_inj`). So
two identifiers share a text exactly when they are congruent (`decodeOid_eq_iff`). The second half
carries this to what the readers of certificates report, the algorithm, the curve and the attributes
of the subject. `oid_named_iff` is the result, `oid_named_not_always` an identifier beyond it.
-/

namespace Keyroost.Piv

open RustStr

/-! ### Identifiers and their encoding -/

@[ext]
structure Oid where
  arc1 : Nat
  arc2 : Nat
  arcs : List Nat
  arc1_le : arc1 ≤ 2
  arc2_lt : arc1 < 2 → arc2 < 40
deriving DecidableEq

namespace Oid

/-- The first sub-identifier carries two arcs. -/
def sids (o : Oid) : List Nat := (40 * o.arc1 + o.arc2) :: o.arcs

/-- The bytes in front of the last one of a number, each with its high bit set. -/
def continuing (ds : List Nat) : List UInt8 := ds.map fun d => (d + 128).toUInt8

/-- A number in the fewest base-128 digits. -/
def sidBytes (n : Nat) : List UInt8 :=
  continuing (Nat.digits 128 (n / 128)).reverse ++ [(n % 128).toUInt8]

def bytes (o : Oid) : List UInt8 := o.sids.flatMap sidBytes

theorem sids_inj {o o' : Oid} : o.sids = o'.sids ↔ o = o' := by
  constructor
  · intro h
    obtain ⟨hfirst, harcs⟩ := List.cons.inj h
    have hle := o.arc1_le
    have hle' := o'.arc1_le
    have hlt := o.arc2_lt
    have hlt' := o'.arc2_lt
    have harc1 : o.arc1 = o'.arc1 := by omega
    exact Oid.ext harc1 (by omega) harcs
  · rintro rfl
    rfl

/-- Every sub-identifier fits the reader's word. -/
def Narrow (o : Oid) : Prop := ∀ n ∈ o.sids, n < 2 ^ 64

instance (o : Oid) : Decidable o.Narrow := inferInstanceAs (Decidable (∀ n ∈ o.sids, n < 2 ^ 64))

/-- The sub-identifiers differ by multiples of 2⁶⁴ alone. -/
def Congruent (o o' : Oid) : Prop := o.sids.map (· % 2 ^ 64) = o'.sids.map (· % 2 ^ 64)

theorem eq_of_congruent {o o' : Oid} (ho : o.Narrow) (ho' : o'.Narrow) (h : o.Congruent o') :
    o = o' := by
  have hsame : ∀ p : Oid, p.Narrow → p.sids.map (· % 2 ^ 64) = p.sids := by
    intro p hp
    refine (List.map_congr_left fun n hn => ?_).trans (List.map_id _)
    exact Nat.mod_eq_of_lt (hp n hn)
  rw [Congruent, hsame o ho, hsame o' ho'] at h
  exact sids_inj.mp h

end Oid

/-! ### Dotted text -/

/-- Numbers with dots between them. -/
def dotted (a : Nat) (as : List Nat) : RustStr := decimal a ++ as.flatMap fun n => '.' :: decimal n

theorem dotted_concat (a : Nat) (as : List Nat) (n : Nat) :
    dotted a (as ++ [n]) = dotted a as ++ '.' :: decimal n := by
  rw [dotted, dotted, List.flatMap_append, List.flatMap_singleton, List.append_assoc]

theorem splitOn_dotted (a : Nat) (as : List Nat) :
    (dotted a as).splitOn '.' = (a :: as).map decimal := by
  induction as generalizing a with
  | nil =>
      rw [dotted, List.flatMap_nil, List.append_nil,
        List.splitOn_eq_singleton (not_mem_decimal (by decide) a)]
      rfl
  | cons b as ih =>
      have htail : dotted a (b :: as) = decimal a ++ '.' :: dotted b as := rfl
      rw [htail, List.splitOn_append_cons_of_beq _ _ (by rfl), ih,
        List.splitOn_eq_singleton (not_mem_decimal (by decide) a)]
      rfl

theorem decimal_injective : Function.Injective decimal := by
  intro a b h
  have hvalue := congrArg (fun s => Nat.ofDigitChars 10 s 0) h
  simpa only [decimal, Nat.ofDigitChars_ten_toDigits] using hvalue

theorem dotted_inj {a a' : Nat} {as as' : List Nat} (h : dotted a as = dotted a' as') :
    a :: as = a' :: as' := by
  have hpieces := congrArg (List.splitOn '.') h
  rw [splitOn_dotted, splitOn_dotted] at hpieces
  exact List.map_injective_iff.mpr decimal_injective hpieces

/-! ### The reader's numbers -/

/-- One more digit in a word, which drops what is shifted out. -/
def shiftIn (value : UInt64) (d : Nat) : UInt64 := (value <<< 7) ||| d.toUInt64

theorem toNat_shiftIn (value : UInt64) {d : Nat} (hd : d < 128) :
    (shiftIn value d).toNat = (value.toNat * 128 + d) % 2 ^ 64 := by
  have hdigit : d.toUInt64.toNat = d := by
    rw [Nat.toUInt64, UInt64.toNat_ofNat']
    exact Nat.mod_eq_of_lt (by omega)
  have hpush : ((value.toNat <<< 7) % 2 ^ 64 ||| d) % 2 ^ (57 + 7) =
      value.toNat % 2 ^ 57 * 2 ^ 7 + d := Regroup.push_mod hd (Nat.le_refl 64)
  have hlt := (shiftIn value d).toNat_lt
  have hor : (shiftIn value d).toNat = (value.toNat <<< 7) % 2 ^ 64 ||| d := by
    rw [shiftIn, UInt64.toNat_or, UInt64.toNat_shiftLeft, hdigit]
    rfl
  rw [← Nat.mod_eq_of_lt hlt, hor]
  refine hpush.trans ?_
  omega

/-- A byte that goes on holds its digit and the bit that says so. -/
theorem continuing_byte {d : Nat} (hd : d < 128) :
    (d + 128).toUInt8 &&& 0x80 ≠ 0 ∧
      ((d + 128).toUInt8 &&& 0x7F).toUInt64 = d.toUInt64 := by
  have htable : ∀ d < 128, (d + 128).toUInt8 &&& 0x80 ≠ 0 ∧
      ((d + 128).toUInt8 &&& 0x7F).toUInt64 = d.toUInt64 := by decide
  exact htable d hd

theorem last_byte {d : Nat} (hd : d < 128) :
    d.toUInt8 &&& 0x80 = 0 ∧ (d.toUInt8 &&& 0x7F).toUInt64 = d.toUInt64 := by
  have htable : ∀ d < 128, d.toUInt8 &&& 0x80 = 0 ∧
      (d.toUInt8 &&& 0x7F).toUInt64 = d.toUInt64 := by decide
  exact htable d hd

theorem foldl_mod (ds : List Nat) {v w : Nat} (h : v % 2 ^ 64 = w % 2 ^ 64) :
    ds.foldl (fun v d => v * 128 + d) v % 2 ^ 64 =
      ds.foldl (fun v d => v * 128 + d) w % 2 ^ 64 := by
  induction ds generalizing v w with
  | nil => exact h
  | cons d ds ih =>
      refine ih ?_
      dsimp only
      omega

theorem toNat_foldl_shiftIn {ds : List Nat} (hds : ∀ d ∈ ds, d < 128) (value : UInt64) :
    (ds.foldl shiftIn value).toNat = ds.foldl (fun v d => v * 128 + d) value.toNat % 2 ^ 64 := by
  induction ds generalizing value with
  | nil => exact (Nat.mod_eq_of_lt value.toNat_lt).symm
  | cons d ds ih =>
      rw [List.foldl_cons, List.foldl_cons, ih fun d' hd' => hds d' (List.mem_cons_of_mem d hd'),
        toNat_shiftIn value (hds d List.mem_cons_self)]
      exact foldl_mod ds (Nat.mod_mod _ _)

/-- The digits of a number, read back in a word. -/
theorem toNat_sid (n : Nat) :
    (shiftIn ((Nat.digits 128 (n / 128)).reverse.foldl shiftIn 0) (n % 128)).toNat =
      n % 2 ^ 64 := by
  have hds : ∀ d ∈ (Nat.digits 128 (n / 128)).reverse, d < 128 := by
    intro d hd
    exact Nat.digits_lt_base (by decide) (List.mem_reverse.mp hd)
  have hvalue : (Nat.digits 128 (n / 128)).reverse.foldl (fun v d => v * 128 + d) 0 = n / 128 := by
    have hdigits := Nat.ofDigits_digits 128 (n / 128)
    rw [Nat.ofDigits_eq_foldr] at hdigits
    rw [List.foldl_reverse]
    refine Eq.trans (congrArg₂ (fun f l => List.foldr f 0 l) ?_ rfl) hdigits
    funext d v
    rw [Nat.add_comm, Nat.mul_comm]
    rfl
  have hzero : (0 : UInt64).toNat = 0 := rfl
  rw [toNat_shiftIn _ (Nat.mod_lt _ (by decide)), toNat_foldl_shiftIn hds, hzero, hvalue]
  omega

/-! ### The reader -/

theorem subId_continuing {ds : List Nat} (hds : ∀ d ∈ ds, d < 128) (value : UInt64)
    (tail : List UInt8) :
    subId value (Oid.continuing ds ++ tail) = subId (ds.foldl shiftIn value) tail := by
  induction ds generalizing value with
  | nil => rfl
  | cons d ds ih =>
      obtain ⟨hbit, hdigit⟩ := continuing_byte (hds d List.mem_cons_self)
      rw [Oid.continuing, List.map_cons, List.cons_append, subId, hdigit, if_neg hbit]
      exact ih (fun d' hd' => hds d' (List.mem_cons_of_mem d hd')) _

theorem restArcs_continuing {ds : List Nat} (hds : ∀ d ∈ ds, d < 128) (out : RustStr)
    (value : UInt64) (started : Bool) {b : UInt8} (tail : List UInt8) :
    restArcs out value started (Oid.continuing ds ++ b :: tail) =
      restArcs out (ds.foldl shiftIn value) true (b :: tail) := by
  induction ds generalizing value started with
  | nil => rfl
  | cons d ds ih =>
      obtain ⟨hbit, hdigit⟩ := continuing_byte (hds d List.mem_cons_self)
      rw [Oid.continuing, List.map_cons, List.cons_append, restArcs, hdigit, if_neg hbit]
      exact ih (fun d' hd' => hds d' (List.mem_cons_of_mem d hd')) _ _

theorem digits_lt (n : Nat) : ∀ d ∈ (Nat.digits 128 n).reverse, d < 128 :=
  fun _ hd => Nat.digits_lt_base (by decide) (List.mem_reverse.mp hd)

theorem subId_sidBytes (n : Nat) (tail : List UInt8) :
    ∃ sid : UInt64, sid.toNat = n % 2 ^ 64 ∧
      subId 0 (Oid.sidBytes n ++ tail) = some (sid, tail) := by
  obtain ⟨hbit, hdigit⟩ := last_byte (Nat.mod_lt n (show 0 < 128 by decide))
  refine ⟨_, toNat_sid n, ?_⟩
  rw [Oid.sidBytes, List.append_assoc, subId_continuing (digits_lt _), List.singleton_append, subId,
    hdigit, if_pos hbit]
  rfl

theorem restArcs_sidBytes (n : Nat) (out : RustStr) (tail : List UInt8) :
    restArcs out 0 false (Oid.sidBytes n ++ tail) =
      restArcs (out ++ '.' :: decimal (n % 2 ^ 64)) 0 false tail := by
  obtain ⟨hbit, hdigit⟩ := last_byte (Nat.mod_lt n (show 0 < 128 by decide))
  rw [Oid.sidBytes, List.append_assoc, List.singleton_append, restArcs_continuing (digits_lt _),
    restArcs, hdigit, if_pos hbit, ← toNat_sid n]
  rfl

theorem restArcs_flatMap (ns : List Nat) (a : Nat) (as : List Nat) :
    restArcs (dotted a as) 0 false (ns.flatMap Oid.sidBytes) =
      some (dotted a (as ++ ns.map (· % 2 ^ 64))) := by
  induction ns generalizing as with
  | nil =>
      rw [List.map_nil, List.append_nil]
      rfl
  | cons n ns ih =>
      rw [List.flatMap_cons, restArcs_sidBytes, ← dotted_concat, ih, List.map_cons,
        List.append_assoc]
      rfl

/-- The two arcs that a word carries. -/
theorem firstArcs_spec (sid : UInt64) :
    (firstArcs sid).1.toNat * 40 + (firstArcs sid).2.toNat = sid.toNat := by
  have hless : ∀ c : UInt64, ¬ sid < c → (sid - c).toNat = sid.toNat - c.toNat := by
    intro c hc
    exact UInt64.toNat_sub_of_le _ _ (UInt64.not_lt.mp hc)
  rw [firstArcs]
  split
  · exact Nat.zero_add _
  · rename_i h40
    have hle := UInt64.le_iff_toNat_le.mp (UInt64.not_lt.mp h40)
    split
    · have hsub := hless 40 h40
      have h40' : (40 : UInt64).toNat = 40 := rfl
      have hone : (1 : UInt64).toNat = 1 := rfl
      dsimp only
      omega
    · rename_i h80
      have hle' := UInt64.le_iff_toNat_le.mp (UInt64.not_lt.mp h80)
      have hsub := hless 80 h80
      have h80' : (80 : UInt64).toNat = 80 := rfl
      have htwo : (2 : UInt64).toNat = 2 := rfl
      dsimp only
      omega

/-- The text of an identifier says its sub-identifiers as words. -/
theorem decodeOid_bytes (o : Oid) : ∃ sid : UInt64, sid.toNat = o.sids.headD 0 % 2 ^ 64 ∧
    decodeOid o.bytes = some (dotted (firstArcs sid).1.toNat
      ((firstArcs sid).2.toNat :: o.arcs.map (· % 2 ^ 64))) := by
  obtain ⟨sid, hsid, hread⟩ := subId_sidBytes (40 * o.arc1 + o.arc2) (o.arcs.flatMap Oid.sidBytes)
  refine ⟨sid, hsid, ?_⟩
  have hstart : ∀ a b : Nat, decimal a ++ '.' :: decimal b = dotted a [b] := by
    intro a b
    rw [dotted, List.flatMap_singleton]
  rw [decodeOid, Oid.bytes, Oid.sids, List.flatMap_cons, hread]
  dsimp only [Option.bind_eq_bind, Option.bind_some]
  rw [hstart, restArcs_flatMap]
  rfl

/-- **Two identifiers have one text exactly when they differ by multiples of 2⁶⁴.** -/
theorem decodeOid_eq_iff (o o' : Oid) :
    decodeOid o.bytes = decodeOid o'.bytes ↔ o.Congruent o' := by
  obtain ⟨sid, hsid, htext⟩ := decodeOid_bytes o
  obtain ⟨sid', hsid', htext'⟩ := decodeOid_bytes o'
  rw [htext, htext', Oid.Congruent, Oid.sids, Oid.sids, List.map_cons, List.map_cons]
  rw [Oid.sids, List.headD_cons] at hsid hsid'
  constructor
  · intro h
    obtain ⟨harc1, hrest⟩ := List.cons.inj (dotted_inj (Option.some.inj h))
    obtain ⟨harc2, harcs⟩ := List.cons.inj hrest
    have hspec := firstArcs_spec sid
    rw [harc1, harc2, firstArcs_spec sid'] at hspec
    rw [← hsid, ← hsid', hspec, harcs]
  · intro h
    obtain ⟨hfirst, harcs⟩ := List.cons.inj h
    have heq : sid = sid' := UInt64.toNat_inj.mp (hsid.trans (hfirst.trans hsid'.symm))
    rw [heq, harcs]

/-- The arcs that a first sub-identifier carries. -/
def Oid.ofSids (sid : Nat) (arcs : List Nat) : Oid :=
  if h : sid < 40 then ⟨0, sid, arcs, by decide, fun _ => h⟩
  else if h' : sid < 80 then ⟨1, sid - 40, arcs, by decide, fun _ => by omega⟩
  else ⟨2, sid - 80, arcs, by decide, fun h'' => absurd h'' (by decide)⟩

theorem Oid.sids_ofSids (sid : Nat) (arcs : List Nat) :
    (Oid.ofSids sid arcs).sids = sid :: arcs := by
  rw [Oid.ofSids]
  split
  · exact congrArg (· :: arcs) (Nat.zero_add sid)
  · rename_i h40
    split
    · exact congrArg (· :: arcs) (by omega : 40 * 1 + (sid - 40) = sid)
    · exact congrArg (· :: arcs) (by omega : 40 * 2 + (sid - 80) = sid)

/-- An identifier is narrow exactly when its text is no other narrow one's. -/
theorem Oid.narrow_iff (o : Oid) : o.Narrow ↔
    ∀ o' : Oid, o'.Narrow → decodeOid o.bytes = decodeOid o'.bytes → o = o' := by
  constructor
  · intro ho o' ho' h
    exact Oid.eq_of_congruent ho ho' ((decodeOid_eq_iff o o').mp h)
  · intro h
    let low := Oid.ofSids ((40 * o.arc1 + o.arc2) % 2 ^ 64) (o.arcs.map (· % 2 ^ 64))
    have hsids : low.sids = o.sids.map (· % 2 ^ 64) := Oid.sids_ofSids _ _
    have hnarrow : low.Narrow := by
      intro n hn
      rw [hsids] at hn
      obtain ⟨m, -, rfl⟩ := List.mem_map.mp hn
      exact Nat.mod_lt _ (by decide)
    have hsame : o.Congruent low := by
      rw [Oid.Congruent, hsids, List.map_map]
      exact List.map_congr_left fun n _ => (Nat.mod_mod n _).symm
    rw [h low hnarrow ((decodeOid_eq_iff o low).mpr hsame)]
    exact hnarrow

/-! ### Known identifiers -/

def KeyAlg.oid : KeyAlg → Oid
  | .rsa1024 | .rsa2048 | .rsa3072 | .rsa4096 =>
      ⟨1, 2, [840, 113549, 1, 1, 1], by decide, by decide⟩
  | .eccP256 | .eccP384 | .eccP521 => ⟨1, 2, [840, 10045, 2, 1], by decide, by decide⟩
  | .ed25519 => ⟨1, 3, [101, 112], by decide, by decide⟩
  | .x25519 => ⟨1, 3, [101, 110], by decide, by decide⟩

def KeyAlg.curve : KeyAlg → Option Oid
  | .eccP256 => some ⟨1, 2, [840, 10045, 3, 1, 7], by decide, by decide⟩
  | .eccP384 => some ⟨1, 3, [132, 0, 34], by decide, by decide⟩
  | .eccP521 => some ⟨1, 3, [132, 0, 35], by decide, by decide⟩
  | _ => none

def DnAttr.oid : DnAttr → Option Oid
  | .commonName => some ⟨2, 5, [4, 3], by decide, by decide⟩
  | .organization => some ⟨2, 5, [4, 10], by decide, by decide⟩
  | .organizationalUnit => some ⟨2, 5, [4, 11], by decide, by decide⟩
  | .country => some ⟨2, 5, [4, 6], by decide, by decide⟩
  | .locality => some ⟨2, 5, [4, 7], by decide, by decide⟩
  | .stateOrProvince => some ⟨2, 5, [4, 8], by decide, by decide⟩
  | .serialNumber => some ⟨2, 5, [4, 5], by decide, by decide⟩
  | .emailAddress => some ⟨1, 2, [840, 113549, 1, 9, 1], by decide, by decide⟩
  | .other _ => none

/-- The identifier of the key's algorithm, where the certificate says it. -/
def algorithmOid (certDer : List UInt8) : Except X509ParseError (List UInt8) := do
  let spki ← certificateSpki certDer
  let (spki, _) ← expectTag 0x30 spki
  let (algId, _) ← expectTag 0x30 spki
  let (oid, _) ← expectTag 0x06 algId
  return oid

/-- The identifier of the key's curve. -/
def curveOid (certDer : List UInt8) : Except X509ParseError (List UInt8) := do
  let spki ← certificateSpki certDer
  let (spki, _) ← expectTag 0x30 spki
  let (algId, _) ← expectTag 0x30 spki
  let (_, params) ← expectTag 0x06 algId
  let (curve, _) ← expectTag 0x06 params
  return curve

def attributeOid : Reader X509ParseError (List UInt8) := fun atv => do
  let (seq, afterSeq) ← expectTag 0x30 atv
  let (oid, _) ← expectTag 0x06 seq
  return (oid, afterSeq)

def rdnOids : Reader X509ParseError (List (List UInt8)) := fun input => do
  let (set, afterSet) ← expectTag 0x31 input
  return (← Reader.toEnd .malformed attributeOid set.length set, afterSet)

/-- The identifiers of the subject's attributes, in order. -/
def subjectOids (certDer : List UInt8) : Except X509ParseError (List (List UInt8)) := do
  let fields ← tbsFields certDer
  let rest ← afterValidity fields
  let (subject, _) ← expectTag 0x30 rest
  return (← Reader.toEnd .malformed rdnOids subject.length subject).flatten

/-! ### What the readers report -/

/-- An identifier and the known one that it is reported as. -/
def ReportedAs (o known : Oid) : Prop := o.Congruent known ∧ (o.Narrow → o = known)

theorem reportedAs_of_text {o known : Oid} (hknown : known.Narrow) {text : RustStr}
    (htext : decodeOid known.bytes = some text) (ho : oidOf o.bytes = .ok text) :
    ReportedAs o known := by
  have hread : decodeOid o.bytes = some text := by
    rw [oidOf] at ho
    cases hdecode : decodeOid o.bytes with
    | none =>
        rw [hdecode] at ho
        cases ho
    | some t =>
        rw [hdecode] at ho
        exact congrArg some (Except.ok.inj ho)
  have hcongruent := (decodeOid_eq_iff o known).mp (hread.trans htext.symm)
  exact ⟨hcongruent, fun hnarrow => Oid.eq_of_congruent hnarrow hknown hcongruent⟩

/-- The texts of the known identifiers are those that the readers compare with. -/
theorem decodeOid_known :
    decodeOid KeyAlg.rsa2048.oid.bytes = some DOTTED_RSA_ENCRYPTION ∧
    decodeOid KeyAlg.eccP256.oid.bytes = some DOTTED_EC_PUBLIC_KEY ∧
    decodeOid KeyAlg.ed25519.oid.bytes = some DOTTED_ED25519 ∧
    decodeOid KeyAlg.x25519.oid.bytes = some DOTTED_X25519 ∧
    (∀ k ∈ KeyAlg.eccP256.curve, decodeOid k.bytes = some DOTTED_P256) ∧
    (∀ k ∈ KeyAlg.eccP384.curve, decodeOid k.bytes = some DOTTED_P384) ∧
    ∀ k ∈ KeyAlg.eccP521.curve, decodeOid k.bytes = some DOTTED_P521 := by
  decide

theorem narrow_known : (∀ alg : KeyAlg, alg.oid.Narrow) ∧
    (∀ alg : KeyAlg, ∀ k ∈ alg.curve, k.Narrow) := by
  constructor
  · rintro (_ | _ | _ | _ | _ | _ | _ | _ | _)
    all_goals decide
  · rintro (_ | _ | _ | _ | _ | _ | _ | _ | _)
    all_goals decide

theorem of_rsaKeyAlg {keyBytes : List UInt8} {alg : KeyAlg}
    (h : rsaKeyAlg keyBytes = .ok (some alg)) :
    alg.oid = KeyAlg.rsa2048.oid ∧ alg.curve = none := by
  obtain ⟨⟨rsaPub, rest⟩, -, h⟩ := Checks.bind_eq_ok.mp h
  obtain ⟨⟨modulus, rest'⟩, -, h⟩ := Checks.bind_eq_ok.mp h
  have hsize := Except.ok.inj h
  split at hsize
  all_goals
    cases hsize
    try exact ⟨rfl, rfl⟩

theorem of_curveAlg {params curve rest : List UInt8} {alg : KeyAlg} {c : Oid}
    (hcurve : expectTag 0x06 params = .ok (curve, rest)) (h : curveAlg params = .ok (some alg)) :
    alg.oid = KeyAlg.eccP256.oid ∧ ∀ k ∈ alg.curve, curve = c.bytes → ReportedAs c k := by
  rw [curveAlg, hcurve, Checks.ok_bind] at h
  obtain ⟨text, htext, h⟩ := Checks.bind_eq_ok.mp h
  obtain ⟨-, -, -, -, hp256, hp384, hp521⟩ := decodeOid_known
  have hreported : ∀ a : KeyAlg, ∀ {t : RustStr}, (∀ k ∈ a.curve, decodeOid k.bytes = some t) →
      text = t → ∀ k ∈ a.curve, curve = c.bytes → ReportedAs c k := by
    rintro a t hknown rfl k hk rfl
    exact reportedAs_of_text (narrow_known.2 a k hk) (hknown k hk) htext
  have halg := Except.ok.inj h
  split at halg
  · rename_i heq
    obtain rfl := Option.some.inj halg
    exact ⟨rfl, hreported _ hp256 heq⟩
  · split at halg
    · rename_i heq
      obtain rfl := Option.some.inj halg
      exact ⟨rfl, hreported _ hp384 heq⟩
    · split at halg
      · rename_i heq
        obtain rfl := Option.some.inj halg
        exact ⟨rfl, hreported _ hp521 heq⟩
      · cases halg

/-- A known algorithm and curve are reported for identifiers that stand for them. -/
theorem parseKeyAlgorithm_reports {certDer : List UInt8} {alg : KeyAlg}
    (h : parseKeyAlgorithm certDer = .ok (some alg)) :
    (∀ o : Oid, algorithmOid certDer = .ok o.bytes → ReportedAs o alg.oid) ∧
      ∀ c : Oid, curveOid certDer = .ok c.bytes → ∀ k ∈ alg.curve, ReportedAs c k := by
  obtain ⟨spki, hspki, h⟩ := Checks.bind_eq_ok.mp h
  obtain ⟨⟨content, rest⟩, hcontent, h⟩ := Checks.bind_eq_ok.mp h
  obtain ⟨⟨text, params, keyBytes⟩, hparts, h⟩ := Checks.bind_eq_ok.mp h
  obtain ⟨⟨algId, afterAlgId⟩, halgId, hparts⟩ := Checks.bind_eq_ok.mp hparts
  obtain ⟨⟨spk, rest'⟩, -, hparts⟩ := Checks.bind_eq_ok.mp hparts
  obtain ⟨⟨oid, params'⟩, hoid, hparts⟩ := Checks.bind_eq_ok.mp hparts
  obtain ⟨text', htext, hparts⟩ := Checks.bind_eq_ok.mp hparts
  cases spk with
  | nil => cases hparts
  | cons unused key =>
      obtain ⟨rfl, rfl, rfl⟩ : text' = text ∧ params' = params ∧ key = keyBytes := by
        cases hparts
        exact ⟨rfl, rfl, rfl⟩
      have halgorithm : algorithmOid certDer = .ok oid := by
        simp only [algorithmOid, hspki, hcontent, halgId, hoid, Checks.ok_bind]
        rfl
      have hnamed : ∀ o : Oid, algorithmOid certDer = .ok o.bytes → oidOf o.bytes = .ok text' := by
        intro o ho
        rw [← Except.ok.inj (halgorithm.symm.trans ho)]
        exact htext
      obtain ⟨hrsa, hec, hed, hx, -⟩ := decodeOid_known
      have hone : ∀ {t : RustStr} {a : KeyAlg}, decodeOid a.oid.bytes = some t → text' = t →
          ∀ o : Oid, algorithmOid certDer = .ok o.bytes → ReportedAs o a.oid := by
        rintro t a hknown rfl o ho
        exact reportedAs_of_text (narrow_known.1 a) hknown (hnamed o ho)
      dsimp only at h
      split at h
      · rename_i heq
        obtain ⟨halg, hcurve⟩ := of_rsaKeyAlg h
        rw [halg, hcurve]
        exact ⟨hone hrsa heq, fun c _ k hk => nomatch hk⟩
      · split at h
        · rename_i heq
          obtain ⟨⟨curve, rest''⟩, hcurve, -⟩ := Checks.bind_eq_ok.mp h
          have hplace : curveOid certDer = .ok curve := by
            simp only [curveOid, hspki, hcontent, halgId, hoid, hcurve, Checks.ok_bind]
            rfl
          constructor
          · rw [(of_curveAlg (c := KeyAlg.x25519.oid) hcurve h).1]
            exact hone hec heq
          · intro c hc k hk
            exact (of_curveAlg hcurve h).2 k hk (Except.ok.inj (hplace.symm.trans hc))
        · split at h
          · rename_i heq
            obtain rfl := Option.some.inj (Except.ok.inj h)
            exact ⟨hone hed heq, fun c _ k hk => nomatch hk⟩
          · split at h
            · rename_i heq
              obtain rfl := Option.some.inj (Except.ok.inj h)
              exact ⟨hone hx heq, fun c _ k hk => nomatch hk⟩
            · cases h

/-! ### The subject's attributes -/

/-- What an attribute is reported as, of its identifier. -/
def Labelled (content : List UInt8) (attr : DnAttr × RustStr) : Prop :=
  ∃ text, oidOf content = .ok text ∧ attr.1 = DnAttr.fromOid text

theorem readAttribute_labelled {data rest : List UInt8} {attr : DnAttr × RustStr}
    (h : readAttribute data = .ok (attr, rest)) :
    ∃ content, attributeOid data = .ok (content, rest) ∧ Labelled content attr := by
  obtain ⟨⟨seq, afterSeq⟩, hseq, h⟩ := Checks.bind_eq_ok.mp h
  obtain ⟨⟨content, afterOid⟩, hcontent, h⟩ := Checks.bind_eq_ok.mp h
  obtain ⟨text, htext, h⟩ := Checks.bind_eq_ok.mp h
  obtain ⟨⟨value, rest'⟩, -, h⟩ := Checks.bind_eq_ok.mp h
  cases h
  refine ⟨content, ?_, text, htext, rfl⟩
  simp only [attributeOid, hseq, hcontent, Checks.ok_bind]
  rfl

theorem readRdn_labelled {data rest : List UInt8} {attrs : List (DnAttr × RustStr)}
    (h : readRdn data = .ok (attrs, rest)) :
    ∃ contents, rdnOids data = .ok (contents, rest) ∧ List.Forall₂ Labelled contents attrs := by
  obtain ⟨⟨set, afterSet⟩, hset, h⟩ := Checks.bind_eq_ok.mp h
  obtain ⟨attrs', hattrs, h⟩ := Checks.bind_eq_ok.mp h
  cases h
  obtain ⟨contents, hcontents, hall⟩ :=
    Reader.toEnd_agree (fun _ _ _ => readAttribute_labelled) hattrs
  refine ⟨contents, ?_, hall⟩
  simp only [rdnOids, hset, hcontents, Checks.ok_bind]
  rfl

/-- The subject's attributes are those of its identifiers, in order. -/
theorem parseSubjectDn_labelled {certDer : List UInt8} {dn : SubjectDn}
    (h : parseSubjectDn certDer = .ok dn) :
    ∃ contents, subjectOids certDer = .ok contents ∧ List.Forall₂ Labelled contents dn.rdns := by
  obtain ⟨fields, hfields, h⟩ := Checks.bind_eq_ok.mp h
  obtain ⟨after, hafter, h⟩ := Checks.bind_eq_ok.mp h
  obtain ⟨⟨subject, rest⟩, hsubject, h⟩ := Checks.bind_eq_ok.mp h
  obtain ⟨rdns, hrdns, h⟩ := Checks.bind_eq_ok.mp h
  cases h
  obtain ⟨contents, hcontents, hall⟩ :=
    Reader.toEnd_agree (fun _ _ _ => readRdn_labelled) hrdns
  refine ⟨contents.flatten, ?_, List.rel_flatten hall⟩
  simp only [subjectOids, hfields, hafter, hsubject, hcontents, Checks.ok_bind]
  rfl

/-- A label is given to the text of its identifier alone. -/
theorem decodeOid_fromOid (text : RustStr) :
    ∀ k ∈ (DnAttr.fromOid text).oid, k.Narrow ∧ decodeOid k.bytes = some text := by
  rw [DnAttr.fromOid]
  split_ifs with hcn ho hou hc hl hst hserial hemail
  case neg => exact nofun
  all_goals
    rintro k ⟨⟩
    subst text
    decide

theorem labelled_reportedAs {o : Oid} {attr : DnAttr × RustStr} (h : Labelled o.bytes attr) :
    ∀ k ∈ attr.1.oid, ReportedAs o k := by
  obtain ⟨text, htext, hattr⟩ := h
  rw [hattr]
  intro k hk
  obtain ⟨hnarrow, hknown⟩ := decodeOid_fromOid text k hk
  exact reportedAs_of_text hnarrow hknown htext

/-! ### Identifiers and their names -/

/-- What a certificate's readers report is known of its identifiers, those of the key and those of
the attributes of its subject: each is the identifier that is reported, up to multiples of 2⁶⁴. -/
structure CertificateNamed (certDer : List UInt8) : Prop where
  key : ∀ alg, parseKeyAlgorithm certDer = .ok (some alg) →
    (∀ o : Oid, algorithmOid certDer = .ok o.bytes → ReportedAs o alg.oid) ∧
      ∀ c : Oid, curveOid certDer = .ok c.bytes → ∀ k ∈ alg.curve, ReportedAs c k
  subject : ∀ dn, parseSubjectDn certDer = .ok dn → ∃ contents,
    subjectOids certDer = .ok contents ∧ List.Forall₂ (fun content attr =>
      ∀ o : Oid, content = o.bytes → ∀ k ∈ attr.1.oid, ReportedAs o k) contents dn.rdns

/-- **An identifier is named as itself exactly when its sub-identifiers fit the reader's words:**
two identifiers share a text when they differ by multiples of 2⁶⁴ alone, and a certificate's
readers report a known identifier for such a one. -/
theorem oid_named_iff (o : Oid) (certDer : List UInt8) :
    (∀ o' : Oid, (decodeOid o.bytes = decodeOid o'.bytes → o = o') ↔
      (o.Congruent o' → o = o')) ∧
    ((∀ o' : Oid, o'.Narrow → decodeOid o.bytes = decodeOid o'.bytes → o = o') ↔ o.Narrow) ∧
    CertificateNamed certDer := by
  refine ⟨?_, o.narrow_iff.symm, ?_⟩
  · intro o'
    rw [decodeOid_eq_iff]
  · constructor
    · exact fun alg h => parseKeyAlgorithm_reports h
    · intro dn h
      obtain ⟨contents, hcontents, hall⟩ := parseSubjectDn_labelled h
      refine ⟨contents, hcontents, hall.imp ?_⟩
      rintro content attr hlabelled o rfl
      exact labelled_reportedAs hlabelled

/-- An attribute whose last arc is 2⁶⁴ more than that of the common name. -/
def wideOid : Oid := ⟨2, 5, [4, 2 ^ 64 + 3], by decide, by decide⟩

/-- It has the common name's text, and a subject that has it is read as a common name. -/
theorem oid_named_not_always :
    wideOid ≠ ⟨2, 5, [4, 3], by decide, by decide⟩ ∧
    decodeOid wideOid.bytes =
      decodeOid (Oid.mk 2 5 [4, 3] (by decide) (by decide)).bytes ∧
    parseName ([0x31, 0x14, 0x30, 0x12, 0x06, 0x0C] ++ wideOid.bytes ++ [0x0C, 0x02, 0x43, 0x41]) =
      .ok ⟨[(.commonName, "CA".toList)]⟩ := by
  decide

end Keyroost.Piv
