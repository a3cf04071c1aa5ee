import Keyroost.Library.BlockModes
import Keyroost.Library.Cycle
import Keyroost.PgpKey.Framing
import Keyroost.Piv.LongApdu
import Keyroost.Proto.Sha

/-!
# Passphrases

A key is derived from a passphrase, and the secret part of a key file is protected under it, as
`keyroost-pgpkey/src/s2k.rs` does. The hashes and the block cipher are given functions
(`Primitives`), with the lengths of what they return.

A specifier says what goes into the hash: `context` is that, in one piece, and `derive_eq` says
that a key is made of contexts, each with one zero byte more in front than the last, although the
source feeds each of them in small units. Feedback is compared with the mode of the library
(`cfb_spec`), at any length of the data. A secret that was protected comes back with its passphrase
(`unprotect_protect`). `s2k_exact` states all three.
-/

namespace Keyroost.PgpKey

open Piv (chunks chunksFrom flatten_chunks mem_chunks)

def WRITE_COUNT : UInt8 := 0xE0

inductive Cipher where
  | aes128
  | aes192
  | aes256
deriving DecidableEq, Repr

namespace Cipher

def id : Cipher → UInt8
  | aes128 => 7
  | aes192 => 8
  | aes256 => 9

def keyLen : Cipher → Nat
  | aes128 => 16
  | aes192 => 24
  | aes256 => 32

def fromId (id : UInt8) : Except Error Cipher :=
  if id = 7 then .ok aes128
  else if id = 8 then .ok aes192
  else if id = 9 then .ok aes256
  else .error (.unsupported "secret-key cipher")

end Cipher

inductive Hash where
  | sha1
  | sha256
  | sha384
  | sha512
deriving DecidableEq, Repr

namespace Hash

def id : Hash → UInt8
  | sha1 => 2
  | sha256 => 8
  | sha384 => 9
  | sha512 => 10

def size : Hash → Nat
  | sha1 => 20
  | sha256 => 32
  | sha384 => 48
  | sha512 => 64

def fromId (id : UInt8) : Except Error Hash :=
  if id = 2 then .ok sha1
  else if id = 8 then .ok sha256
  else if id = 9 then .ok sha384
  else if id = 10 then .ok sha512
  else .error (.unsupported "S2K hash")

end Hash

/-- The hash functions and the block cipher under a key, with the sizes of what they give. Nothing
else is assumed: the mode runs the cipher forwards only. -/
structure Primitives where
  digest : Hash → List UInt8 → List UInt8
  encrypt : Cipher → List UInt8 → List UInt8 → List UInt8
  length_digest : ∀ h m, (digest h m).length = h.size
  length_encrypt : ∀ c key block, block.length = 16 → (encrypt c key block).length = 16

/-! ### Specifiers -/

/-- `[u8; n]` -/
abbrev Octets (n : Nat) := { bytes : List UInt8 // bytes.length = n }

inductive Spec where
  | simple (h : Hash)
  | salted (h : Hash) (salt : Octets 8)
  | iterated (h : Hash) (salt : Octets 8) (count : UInt8)
deriving DecidableEq, Repr

def decodeCount (c : UInt8) : Nat := (16 + (c &&& 15).toNat) <<< ((c >>> 4).toNat + 6)

namespace Spec

def write : Spec → List UInt8
  | simple h => [0, h.id]
  | salted h salt => [1, h.id] ++ salt.val
  | iterated h salt c => [3, h.id] ++ salt.val ++ [c]

end Spec

def readSalt : Read (Octets 8) := Reader.andThen (take 8) fun s =>
  if h : s.length = 8 then Reader.done ⟨s, h⟩ else fun _ => .error .truncated

def readHash : Read Hash := Reader.andThen readU8 fun id data =>
  Hash.fromId id >>= fun h => .ok (h, data)

/-- The extension of GnuPG: a secret that was left out or lives on a card. -/
def readGnu : Read Spec := Reader.andThen readU8 fun _ =>
  Reader.andThen (take 3) fun name =>
    if name ≠ "GNU".toUTF8.toList then fun _ => .error (.unsupported "S2K type")
    else Reader.andThen readU8 fun mode _ =>
      if mode = 1 then .error .noSecretPart
      else if mode = 2 then .error .cardStubs
      else .error (.unsupported "GnuPG S2K extension")

def readSpec : Read Spec := Reader.andThen readU8 fun kind =>
  if kind = 0 then Reader.andThen readHash fun h => Reader.done (.simple h)
  else if kind = 1 then Reader.andThen readHash fun h =>
    Reader.andThen readSalt fun salt => Reader.done (.salted h salt)
  else if kind = 3 then Reader.andThen readHash fun h =>
    Reader.andThen readSalt fun salt =>
      Reader.andThen readU8 fun c => Reader.done (.iterated h salt c)
  else if kind = 101 then readGnu
  else fun _ => .error (.unsupported "S2K type")

/-! ### Deriving a key -/

/-- The input goes to the hash in pieces, each as much of `unit` as is still wanted. The first
number is at least the rounds that are left. -/
def feedFrom (unit : List UInt8) : Nat → Nat → List UInt8 → List UInt8
  | 0, _, fed => fed
  | rounds + 1, left, fed =>
      if 0 < left ∧ unit ≠ [] then
        let n := min left unit.length
        feedFrom unit rounds (left - n) (fed ++ unit.take n)
      else fed

namespace Spec

/-- The hash, the salt and how much is hashed. -/
def parts (pass : List UInt8) : Spec → Hash × List UInt8 × Nat
  | simple h => (h, [], pass.length)
  | salted h s => (h, s.val, 8 + pass.length)
  | iterated h s c => (h, s.val, max (decodeCount c) (8 + pass.length))

end Spec

section

variable (P : Primitives)

def deriveFrom (hash : Hash) (unit : List UInt8) (total keyLen : Nat) :
    Nat → List UInt8 → Nat → List UInt8
  | 0, key, _ => key
  | rounds + 1, key, preload =>
      if key.length < keyLen then
        deriveFrom hash unit total keyLen rounds
          (key ++ P.digest hash (feedFrom unit total total (List.replicate preload 0)))
          (preload + 1)
      else key

def Spec.derive (spec : Spec) (pass : List UInt8) (keyLen : Nat) : List UInt8 :=
  let (hash, salt, total) := spec.parts pass
  (deriveFrom P hash (salt ++ pass) total keyLen keyLen [] 0).take keyLen

/-! ### Protection -/

def cfb (cipher : Cipher) (key iv data : List UInt8) (decrypt : Bool) :
    Except Error (List UInt8) :=
  if key.length ≠ cipher.keyLen then .error (.crypto "wrong key length for the cipher")
  else if iv.length ≠ 16 then .error (.crypto "the IV is not one 16-byte block")
  else .ok (Cfb.pass (P.encrypt cipher key) 16 decrypt iv (chunks 16 data)).flatten

def cfbEncrypt (cipher : Cipher) (key iv data : List UInt8) : Except Error (List UInt8) :=
  cfb P cipher key iv data false

def cfbDecrypt (cipher : Cipher) (key iv data : List UInt8) : Except Error (List UInt8) :=
  cfb P cipher key iv data true

def sum16 (d : List UInt8) : UInt16 := d.foldl (fun a b => a + b.toUInt16) 0

def splitSum (d : List UInt8) : Except Error (List UInt8) :=
  if d.length < 2 then .error .truncated
  else
    let data := d.take (d.length - 2)
    if Bytes.be 2 (sum16 data).toNat ≠ d.drop (d.length - 2) then .error .badChecksum
    else .ok data

/-- The two draws may fail for want of randomness. -/
def protect (salt : Except Error (Octets 8)) (iv : Except Error (Octets 16))
    (secretMpis pass : List UInt8) : Except Error (List UInt8) := do
  let salt ← salt
  let iv ← iv
  let spec := Spec.iterated .sha256 salt WRITE_COUNT
  let key := spec.derive P pass Cipher.aes256.keyLen
  let plain := secretMpis ++ P.digest .sha1 secretMpis
  let ct ← cfbEncrypt P .aes256 key iv.val plain
  return [254, Cipher.aes256.id] ++ spec.write ++ iv.val ++ ct

/-- What is left of a decrypted secret when its check is right. -/
def checked (usage : UInt8) (plain : List UInt8) : Except Error (List UInt8) :=
  if usage = 254 then
    if plain.length < 20 then .error .truncated
    else if P.digest .sha1 (plain.take (plain.length - 20)) ≠ plain.drop (plain.length - 20) then
      .error .wrongPassphrase
    else .ok (plain.take (plain.length - 20))
  else
    match splitSum plain with
    | .ok d => .ok d
    | .error .badChecksum => .error .wrongPassphrase
    | .error e => .error e

def unprotect (pass : Option (List UInt8)) : Read (List UInt8) :=
  Reader.andThen readU8 fun usage =>
    if usage = 0 then Reader.andThen readRest fun rest data =>
      splitSum rest >>= fun d => .ok (d, data)
    else if usage = 253 then fun _ => .error (.unsupported "AEAD-protected keys")
    else if usage = 254 ∨ usage = 255 then
      Reader.andThen readU8 fun cipherId =>
      Reader.andThen readSpec fun spec data => do
        let cipher ← Cipher.fromId cipherId
        let pass ← pass.elim (.error .needsPassphrase) .ok
        let (iv, data) ← take 16 data
        let (ct, data) ← readRest data
        let plain ← cfbDecrypt P cipher (spec.derive P pass cipher.keyLen) iv ct
        let secret ← checked P usage plain
        return (secret, data)
    else fun _ => .error (.unsupported "legacy secret-key protection")

end

/-! ### What is hashed -/

theorem feedFrom_eq {unit : List UInt8} (hunit : unit ≠ []) {rounds left : Nat}
    (hrounds : left ≤ rounds) (fed : List UInt8) :
    feedFrom unit rounds left fed = fed ++ Cycle.take unit left := by
  have hpos : 0 < unit.length := List.length_pos_iff.mpr hunit
  induction rounds generalizing left fed with
  | zero =>
      obtain rfl := Nat.le_zero.mp hrounds
      rw [feedFrom, Cycle.take_of_le (Nat.zero_le _), List.take_zero, List.append_nil]
  | succ rounds ih =>
      rw [feedFrom]
      split
      · rename_i hleft
        dsimp only
        rcases Nat.le_total left unit.length with hlast | hmore
        · have hmin : min left unit.length = left := Nat.min_eq_left hlast
          have hrest := ih (Nat.zero_le rounds) (fed ++ unit.take left)
          rw [Cycle.take_of_le (Nat.zero_le _), List.take_zero, List.append_nil] at hrest
          rw [hmin, Nat.sub_self, hrest, Cycle.take_of_le hlast]
        · obtain ⟨more, rfl⟩ := Nat.exists_eq_add_of_le hmore
          have hmin : min (unit.length + more) unit.length = unit.length := Nat.min_eq_right hmore
          rw [hmin, Nat.add_sub_cancel_left, List.take_length, ih (by omega), List.append_assoc,
            Cycle.take_length_add hunit]
      · rename_i hstop
        have hzero : left = 0 := by
          by_contra hne
          exact hstop ⟨Nat.pos_of_ne_zero hne, hunit⟩
        rw [hzero, Cycle.take_of_le (Nat.zero_le _), List.take_zero, List.append_nil]

theorem feedFrom_total (unit : List UInt8) (total : Nat) (fed : List UInt8) :
    feedFrom unit total total fed = fed ++ Cycle.take unit total := by
  rcases eq_or_ne unit [] with rfl | hunit
  · rw [Cycle.take_nil, List.append_nil]
    rcases total with _ | total
    · rfl
    · exact if_neg fun hboth => hboth.2 rfl
  · exact feedFrom_eq hunit (Nat.le_refl total) fed

namespace Spec

def hash : Spec → Hash
  | simple h => h
  | salted h _ => h
  | iterated h _ _ => h

/-- What a specifier says is hashed, before any zero bytes. -/
def input (pass : List UInt8) : Spec → List UInt8
  | simple _ => pass
  | salted _ s => s.val ++ pass
  | iterated _ s c =>
      Cycle.take (s.val ++ pass) (max (decodeCount c) (s.val ++ pass).length)

/-- The hash of a context that was preloaded with `i` zero bytes. -/
def context (P : Primitives) (spec : Spec) (pass : List UInt8) (i : Nat) : List UInt8 :=
  P.digest spec.hash (List.replicate i 0 ++ spec.input pass)

theorem take_parts (spec : Spec) (pass : List UInt8) :
    (spec.parts pass).1 = spec.hash ∧
    Cycle.take ((spec.parts pass).2.1 ++ pass) (spec.parts pass).2.2 = spec.input pass := by
  rcases spec with h | ⟨h, s⟩ | ⟨h, s, c⟩
  · refine ⟨rfl, ?_⟩
    have hwhole := Cycle.take_of_le (Nat.le_refl pass.length)
    rwa [List.take_length] at hwhole
  · refine ⟨rfl, ?_⟩
    have hlen : (s.val ++ pass).length = 8 + pass.length := by rw [List.length_append, s.property]
    have hwhole := Cycle.take_of_le (Nat.le_refl (s.val ++ pass).length)
    rwa [List.take_length, hlen] at hwhole
  · refine ⟨rfl, ?_⟩
    have hlen : (s.val ++ pass).length = 8 + pass.length := by rw [List.length_append, s.property]
    rw [input, hlen]
    rfl

end Spec

/-! ### The key -/

section

variable (P : Primitives)

theorem Hash.size_pos (h : Hash) : 0 < h.size := by
  rcases h with _ | _ | _ | _ <;> decide

/-- The contexts from one preload on, as many as are asked for. -/
def contextsFrom (spec : Spec) (pass : List UInt8) (preload count : Nat) : List UInt8 :=
  (List.range' preload count).flatMap (spec.context P pass)

theorem length_contextsFrom (spec : Spec) (pass : List UInt8) (preload count : Nat) :
    (contextsFrom P spec pass preload count).length = count * spec.hash.size := by
  induction count generalizing preload with
  | zero => rw [Nat.zero_mul]; rfl
  | succ count ih =>
      have hrest := ih (preload + 1)
      rw [contextsFrom] at hrest
      rw [contextsFrom, List.range'_succ, List.flatMap_cons, List.length_append, hrest,
        Spec.context, P.length_digest, Nat.succ_mul, Nat.add_comm]

theorem deriveFrom_eq (spec : Spec) (pass : List UInt8) {keyLen rounds : Nat} {key : List UInt8}
    (preload : Nat) (hrounds : keyLen ≤ key.length + rounds) {count : Nat}
    (hcount : keyLen ≤ key.length + count * spec.hash.size) :
    (deriveFrom P spec.hash ((spec.parts pass).2.1 ++ pass) (spec.parts pass).2.2 keyLen rounds key
      preload).take keyLen = (key ++ contextsFrom P spec pass preload count).take keyLen := by
  induction rounds generalizing key preload count with
  | zero =>
      rw [deriveFrom, List.take_append_of_le_length hrounds]
  | succ rounds ih =>
      rw [deriveFrom]
      split
      · rename_i hshort
        obtain ⟨count, rfl⟩ : ∃ n, count = n + 1 := by
          refine Nat.exists_eq_succ_of_ne_zero ?_
          rintro rfl
          rw [Nat.zero_mul] at hcount
          omega
        have hsize := spec.hash.size_pos
        have hlen := P.length_digest spec.hash (List.replicate preload 0 ++ spec.input pass)
        rw [Nat.succ_mul] at hcount
        rw [feedFrom_total, (spec.take_parts pass).2, ih (preload + 1)
          (by rw [List.length_append, hlen]; omega)
          (by rw [List.length_append, hlen]; omega : keyLen ≤ _ + count * spec.hash.size),
          List.append_assoc]
        rfl
      · rename_i hlong
        rw [List.take_append_of_le_length (Nat.le_of_not_lt hlong)]

theorem derive_eq (spec : Spec) (pass : List UInt8) {keyLen contexts : Nat}
    (hcontexts : keyLen ≤ contexts * spec.hash.size) : spec.derive P pass keyLen =
      ((List.range contexts).flatMap (spec.context P pass)).take keyLen := by
  have hfrom : (deriveFrom P spec.hash ((spec.parts pass).2.1 ++ pass) (spec.parts pass).2.2
      keyLen keyLen [] 0).take keyLen = ([] ++ contextsFrom P spec pass 0 contexts).take keyLen :=
    deriveFrom_eq P spec pass 0 (by rw [List.length_nil, Nat.zero_add])
      (by rwa [List.length_nil, Nat.zero_add])
  rw [List.nil_append, contextsFrom, ← List.range_eq_range'] at hfrom
  rw [← hfrom, ← (spec.take_parts pass).1]
  rfl

theorem length_derive (spec : Spec) (pass : List UInt8) (keyLen : Nat) :
    (spec.derive P pass keyLen).length = keyLen := by
  have hreach : keyLen ≤ keyLen * spec.hash.size := Nat.le_mul_of_pos_right _ spec.hash.size_pos
  have hlen := length_contextsFrom P spec pass 0 keyLen
  rw [contextsFrom, ← List.range_eq_range'] at hlen
  rw [derive_eq P spec pass hreach, List.length_take, hlen, Nat.min_eq_left hreach]

/-! ### Feedback -/

/-- Chunks of the lengths that a text is cut into are what it is cut into. -/
theorem chunksFrom_flatten_of_lengths {n left : Nat} (hn : 0 < n) {data : List UInt8}
    {out : List (List UInt8)}
    (hout : out.map List.length = (chunksFrom n left data).map List.length) :
    chunksFrom n left out.flatten = out := by
  induction left generalizing data out with
  | zero =>
      rw [chunksFrom, List.map_nil, List.map_eq_nil_iff] at hout
      rw [hout, chunksFrom]
  | succ left ih =>
      rw [chunksFrom] at hout
      split at hout
      · rw [List.map_nil, List.map_eq_nil_iff] at hout
        rw [hout, chunksFrom, List.flatten_nil, if_pos rfl]
      · rename_i hne
        rcases out with _ | ⟨c, out⟩
        · cases hout
        rw [List.map_cons, List.map_cons, List.cons.injEq, List.length_take] at hout
        obtain ⟨hc, hrest⟩ := hout
        have hpos : 0 < data.length := List.length_pos_iff.mpr hne
        have hflat := ih hrest
        rw [List.flatten_cons, chunksFrom, if_neg (by
          rw [List.append_eq_nil_iff, ← List.length_eq_zero_iff]
          omega)]
        rcases Nat.lt_or_ge data.length n with hshort | hlong
        · have hnil : data.drop n = [] := List.drop_of_length_le hshort.le
          have hempty : out = [] := by
            rw [hnil] at hrest
            rcases left with _ | left
            · exact List.map_eq_nil_iff.mp hrest
            · rw [chunksFrom, if_pos rfl] at hrest
              exact List.map_eq_nil_iff.mp hrest
          have hle : c.length ≤ n := by omega
          rw [hempty, List.flatten_nil] at hflat
          rw [hempty, List.flatten_nil, List.append_nil, List.take_of_length_le hle,
            List.drop_of_length_le hle, hflat]
        · have hfull : c.length = n := by omega
          rw [← hfull, List.take_left, List.drop_left, hfull, hflat]

theorem cfb_spec {cipher : Cipher} {key iv : List UInt8} (hkey : key.length = cipher.keyLen)
    (hiv : iv.length = 16) (data : List UInt8) :
    ∃ ct, cfbEncrypt P cipher key iv data = .ok ct ∧ ct.length = data.length ∧
      cfbDecrypt P cipher key iv ct = .ok data := by
  have hf : ∀ b, b.length = 16 → (P.encrypt cipher key b).length = 16 := P.length_encrypt cipher key
  have hchunks : ∀ c ∈ chunks 16 data, c.length ≤ 16 :=
    fun c hc => (mem_chunks (by decide) hc).2
  have hlengths := Cfb.map_length_pass hf false hiv hchunks
  have hlength : (Cfb.pass (P.encrypt cipher key) 16 false iv (chunks 16 data)).flatten.length =
      data.length := by
    rw [List.length_flatten, hlengths, ← List.length_flatten, flatten_chunks (by decide)]
  have hback : chunks 16 (Cfb.pass (P.encrypt cipher key) 16 false iv (chunks 16 data)).flatten =
      Cfb.pass (P.encrypt cipher key) 16 false iv (chunks 16 data) := by
    rw [chunks, hlength]
    exact chunksFrom_flatten_of_lengths (by decide) hlengths
  refine ⟨(Cfb.pass (P.encrypt cipher key) 16 false iv (chunks 16 data)).flatten, ?_, hlength, ?_⟩
  · rw [cfbEncrypt, cfb, if_neg (not_not.mpr hkey), if_neg (not_not.mpr hiv)]
  · rw [cfbDecrypt, cfb, if_neg (not_not.mpr hkey), if_neg (not_not.mpr hiv), hback,
      Cfb.pass_pass hf hiv hchunks, flatten_chunks (by decide)]

/-! ### Protected secrets -/

theorem reads_readSpec (h : Hash) (salt : Octets 8) (c : UInt8) :
    Reader.Reads readSpec (Spec.iterated h salt c).write (.iterated h salt c) := by
  have hhash : Reader.Reads readHash [h.id] h := by
    intro tail
    rcases h with _ | _ | _ | _
    · rfl
    · rfl
    · rfl
    · rfl
  have hsalt : Reader.Reads readSalt salt.val salt := by
    intro tail
    have htake : take 8 (salt.val ++ tail) = .ok (salt.val, tail) :=
      Reader.bytes_eq_ok.mpr ⟨salt.property, rfl⟩
    rw [readSalt, Reader.andThen_of_ok htake, dif_pos salt.property]
    rfl
  have hcount : Reader.Reads (Reader.andThen readU8 fun c => Reader.done (Spec.iterated h salt c))
      [c] (.iterated h salt c) := fun tail => rfl
  intro tail
  have hrest := hhash.andThen (f := fun h => Reader.andThen readSalt fun salt =>
    Reader.andThen readU8 fun c => Reader.done (Spec.iterated h salt c))
    (hsalt.andThen (f := fun salt => Reader.andThen readU8 fun c =>
      Reader.done (Spec.iterated h salt c)) hcount) tail
  rw [List.append_assoc, List.append_assoc] at hrest
  rw [Spec.write, List.append_assoc, List.append_assoc, List.cons_append, readSpec,
    andThen_readU8, if_neg (by decide), if_neg (by decide), if_pos rfl]
  exact hrest

theorem checked_hashed (secret : List UInt8) :
    checked P 254 (secret ++ P.digest .sha1 secret) = .ok secret := by
  have hlen : (secret ++ P.digest .sha1 secret).length - 20 = secret.length := by
    rw [List.length_append, P.length_digest]
    exact Nat.add_sub_cancel _ _
  have hlong : ¬ (secret ++ P.digest .sha1 secret).length < 20 := by
    rw [List.length_append, P.length_digest]
    exact Nat.not_lt.mpr (Nat.le_add_left _ _)
  rw [checked, if_pos rfl, if_neg hlong, hlen, List.take_left, List.drop_left,
    if_neg (not_not.mpr rfl)]

theorem unprotect_protect (salt : Octets 8) (iv : Octets 16) (secret pass : List UInt8) :
    ∃ out, protect P (.ok salt) (.ok iv) secret pass = .ok out ∧
      unprotect P (some pass) out = .ok (secret, []) := by
  have hkey := length_derive P (.iterated .sha256 salt WRITE_COUNT) pass Cipher.aes256.keyLen
  obtain ⟨ct, hct, -, hback⟩ := cfb_spec P hkey iv.property (secret ++ P.digest .sha1 secret)
  refine ⟨[254, Cipher.aes256.id] ++ (Spec.iterated .sha256 salt WRITE_COUNT).write ++ iv.val ++ ct,
    ?_, ?_⟩
  · rw [protect, Checks.ok_bind, Checks.ok_bind]
    dsimp only
    rw [hct]
    rfl
  · have hspec := reads_readSpec .sha256 salt WRITE_COUNT (iv.val ++ ct)
    have hiv : take 16 (iv.val ++ ct) = .ok (iv.val, ct) :=
      Reader.bytes_eq_ok.mpr ⟨iv.property, rfl⟩
    rw [List.append_assoc, List.append_assoc, List.cons_append, unprotect, andThen_readU8,
      if_neg (by decide), if_neg (by decide), if_pos (Or.inl rfl), List.cons_append,
      andThen_readU8, List.nil_append, Reader.andThen_of_ok hspec]
    have hcipher : Cipher.fromId Cipher.aes256.id = .ok .aes256 := rfl
    simp only [hcipher, Option.elim_some, Checks.ok_bind, hiv, readRest, hback, checked_hashed]
    rfl

/-- **Passphrases.** A derived key is that of the contexts put together, each the hash of its zero
bytes and of exactly what the specifier says; feedback decrypts what it encrypted at every length;
and a secret that was protected comes back under its passphrase. -/
theorem s2k_exact :
    (∀ (spec : Spec) (pass : List UInt8) (keyLen contexts : Nat),
      keyLen ≤ contexts * spec.hash.size → spec.derive P pass keyLen =
        ((List.range contexts).flatMap (spec.context P pass)).take keyLen) ∧
    (∀ (cipher : Cipher) (key iv data : List UInt8), key.length = cipher.keyLen →
      iv.length = 16 → ∃ ct, cfbEncrypt P cipher key iv data = .ok ct ∧ ct.length = data.length ∧
        cfbDecrypt P cipher key iv ct = .ok data) ∧
    ∀ (salt : Octets 8) (iv : Octets 16) (secret pass : List UInt8),
      ∃ out, protect P (.ok salt) (.ok iv) secret pass = .ok out ∧
        unprotect P (some pass) out = .ok (secret, []) :=
  ⟨fun spec pass _ _ => derive_eq P spec pass, fun _ _ _ data hkey hiv => cfb_spec P hkey hiv data,
    unprotect_protect P⟩

end

/-! ### A secret under a passphrase -/

/-- The hashes of the protocol crate. -/
def sampleDigest (h : Hash) (m : List UInt8) : List UInt8 :=
  match h with
  | .sha1 => Proto.Sha1.finalize (Proto.Sha1.update Proto.Sha1.new m)
  | .sha256 => Proto.Sha256.digest m
  | .sha384 => Proto.Sha384.finalize (Proto.Sha384.update Proto.Sha384.new m)
  | .sha512 => Proto.Sha512.finalize (Proto.Sha512.update Proto.Sha512.new m)

theorem length_sampleDigest (h : Hash) (m : List UInt8) : (sampleDigest h m).length = h.size := by
  cases h <;> rfl

/-- Two blocks, each beside what AES-256 makes of it under the key derived below. -/
def sampleBlocks : List (List (List UInt8)) :=
  [[[0x00, 0x01, 0x02, 0x03, 0x04, 0x05, 0x06, 0x07, 0x08, 0x09, 0x0a, 0x0b, 0x0c, 0x0d, 0x0e,
        0x0f],
      [0x31, 0x34, 0xed, 0xc3, 0x39, 0xa0, 0xb8, 0x13, 0x49, 0x1e, 0x7e, 0xb8, 0xc7, 0x37, 0xd8,
        0xf8]],
    [[0x31, 0x3d, 0xec, 0x3c, 0x40, 0xeb, 0x08, 0xac, 0x35, 0xd9, 0x37, 0xa0, 0x2d, 0x1c, 0x03,
        0x8b],
      [0x4e, 0x12, 0x77, 0x6b, 0xf8, 0xad, 0xb8, 0x95, 0x07, 0xdd, 0x5b, 0xf6, 0x25, 0x95, 0x6f,
        0xf7]]]

theorem length_sampleBlocks (block : List UInt8) (h : block.length = 16) :
    (Cycles.perm sampleBlocks block).length = 16 :=
  @Cycles.perm_keeps _ _ (fun b : List UInt8 => b.length = 16) sampleBlocks (by decide) _ h

def samplePrimitives : Primitives where
  digest := sampleDigest
  encrypt _ _ block := Cycles.perm sampleBlocks block
  length_digest := length_sampleDigest
  length_encrypt _ _ := length_sampleBlocks

/-- `open` -/
def samplePass : List UInt8 := [0x6f, 0x70, 0x65, 0x6e]

def sampleSalt : Octets 8 := ⟨[0x01, 0x02, 0x03, 0x04, 0x05, 0x06, 0x07, 0x08], rfl⟩

def sampleIv : Octets 16 :=
  ⟨[0x00, 0x01, 0x02, 0x03, 0x04, 0x05, 0x06, 0x07, 0x08, 0x09, 0x0a, 0x0b, 0x0c, 0x0d, 0x0e,
    0x0f], rfl⟩

/-- One integer of nine bits. -/
def sampleSecret : List UInt8 := [0x00, 0x09, 0x01, 0xff]

/-- The protected form: the specifier, the vector, and the integer with its hash. -/
def sampleProtected : List UInt8 :=
  [0xfe, 0x09, 0x03, 0x08, 0x01, 0x02, 0x03, 0x04, 0x05, 0x06, 0x07, 0x08, 0xe0, 0x00, 0x01, 0x02,
    0x03, 0x04, 0x05, 0x06, 0x07, 0x08, 0x09, 0x0a, 0x0b, 0x0c, 0x0d, 0x0e, 0x0f, 0x31, 0x3d, 0xec,
    0x3c, 0x40, 0xeb, 0x08, 0xac, 0x35, 0xd9, 0x37, 0xa0, 0x2d, 0x1c, 0x03, 0x8b, 0xeb, 0xa3, 0xb9,
    0xd4, 0xa3, 0x0a, 0xd0, 0x2f]

/-- The key is a hash of 16 MiB, and only its length matters to the ciphers of the sample. -/
theorem protect_sample :
    protect samplePrimitives (.ok sampleSalt) (.ok sampleIv) sampleSecret samplePass =
      .ok sampleProtected := by
  have hkey := length_derive samplePrimitives (.iterated .sha256 sampleSalt WRITE_COUNT) samplePass
    Cipher.aes256.keyLen
  rw [protect, Checks.ok_bind, Checks.ok_bind]
  dsimp only
  rw [cfbEncrypt, cfb, if_neg (not_not.mpr hkey), if_neg (not_not.mpr sampleIv.property)]
  decide +kernel

/-- A key of 32 bytes takes two contexts of SHA-1, the second of them with a zero byte before the
passphrase; and a secret is protected to the known bytes and comes back from them. -/
theorem s2k_exact_sample :
    ((List.range 2).flatMap ((Spec.simple .sha1).context samplePrimitives samplePass)).take 32 =
      [0x5f, 0xc7, 0xe3, 0x8b, 0xff, 0xe0, 0x0c, 0xa4, 0x6a, 0xdd, 0x89, 0x14, 0x54, 0x64, 0xa2,
        0xea, 0xf7, 0x59, 0xd5, 0xc2, 0xfb, 0x3b, 0xdd, 0x6b, 0xa9, 0xed, 0x97, 0x04, 0xd1, 0x8c,
        0xf8, 0x0f] ∧
    (Spec.simple .sha1).derive samplePrimitives samplePass 32 =
      ((List.range 2).flatMap ((Spec.simple .sha1).context samplePrimitives samplePass)).take 32 ∧
    unprotect samplePrimitives (some samplePass) sampleProtected = .ok (sampleSecret, []) := by
  obtain ⟨hderive, -, hprotect⟩ := s2k_exact samplePrimitives
  obtain ⟨out, hout, hback⟩ := hprotect sampleSalt sampleIv sampleSecret samplePass
  obtain rfl := Except.ok.inj (protect_sample.symm.trans hout)
  exact ⟨by decide +kernel, hderive (.simple .sha1) samplePass 32 2 (by decide), hback⟩

end Keyroost.PgpKey
