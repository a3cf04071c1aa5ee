import Keyroost.Oath.Listing
import Keyroost.Proto.Sha

/-!
# The access password of an OATH applet

The key is derived from the password and the applet's device id (`keyroost-oath/src/crypto.rs`).
VALIDATE answers the applet's challenge and poses one of the host's, SET CODE installs a key and
shows that the host has it (`keyroost-oath/src/lib.rs`).

SHA-1 is the repository's own (`keyroost-proto/src/sha1.rs`), and HMAC and PBKDF2 are built over it
here as the source builds them. The answer to a challenge is compared in constant time, which is an
equality (`ctEq_iff`). The session that uses these commands is in the modules on transport.
-/

namespace Keyroost.Oath

open Keyroost.Proto

/-! ### HMAC-SHA1 and PBKDF2 -/

def BLOCK : Nat := 64
def OUT : Nat := 20

/-- `sha1` of a whole message. -/
def sha1 (data : List UInt8) : List UInt8 := Sha1.finalize (Sha1.update Sha1.new data)

theorem length_sha1 (data : List UInt8) : (sha1 data).length = OUT := rfl

/-- The key in a block: hashed first if it is longer, zeros behind it if it is shorter. -/
def keyBlock (key : List UInt8) : List UInt8 :=
  let k := if BLOCK < key.length then sha1 key else key
  k ++ List.replicate (BLOCK - k.length) 0

def hmacSha1 (key data : List UInt8) : List UInt8 :=
  let ipad := (keyBlock key).map (0x36 ^^^ ·)
  let opad := (keyBlock key).map (0x5C ^^^ ·)
  sha1 (opad ++ sha1 (ipad ++ data))

theorem length_hmacSha1 (key data : List UInt8) : (hmacSha1 key data).length = OUT :=
  length_sha1 _

/-- The `T` of one block: `U1 ^ U2 ^ ... ^ Uc`. -/
def pbkdf2Block (password salt : List UInt8) (iterations : Nat) (blockIndex : UInt32) :
    List UInt8 :=
  let u := hmacSha1 password (salt ++ Bytes.be 4 blockIndex.toNat)
  ((List.range (iterations - 1)).foldl (fun (u, t) _ =>
    let u := hmacSha1 password u
    (u, List.zipWith (· ^^^ ·) t u)) (u, u)).2

/-- The loop of `pbkdf2_hmac_sha1`. `turns` bounds the blocks still to come. -/
def pbkdf2From (password salt : List UInt8) (iterations dkLen : Nat) :
    Nat → UInt32 → List UInt8 → List UInt8
  | 0, _, out => out
  | turns + 1, blockIndex, out =>
      if out.length < dkLen then
        let t := pbkdf2Block password salt iterations blockIndex
        pbkdf2From password salt iterations dkLen turns (blockIndex + 1)
          (out ++ t.take (dkLen - out.length))
      else out

/-- PBKDF2-HMAC-SHA1. Every turn adds a byte at least. -/
def pbkdf2HmacSha1 (password salt : List UInt8) (iterations dkLen : Nat) : List UInt8 :=
  pbkdf2From password salt iterations dkLen dkLen 1 []

theorem length_pbkdf2Block (password salt : List UInt8) (iterations : Nat)
    (blockIndex : UInt32) : (pbkdf2Block password salt iterations blockIndex).length = OUT := by
  have hfold : ∀ (l : List Nat) (u t : List UInt8), t.length = OUT →
      (l.foldl (fun (u, t) _ =>
        let u := hmacSha1 password u
        (u, List.zipWith (· ^^^ ·) t u)) (u, t)).2.length = OUT := by
    intro l
    induction l with
    | nil => exact fun _ _ h => h
    | cons i l ih =>
        intro u t ht
        rw [List.foldl_cons]
        apply ih
        rw [List.length_zipWith, ht, length_hmacSha1, Nat.min_self]
  exact hfold _ _ _ (length_hmacSha1 _ _)

theorem length_pbkdf2From {password salt : List UInt8} {iterations dkLen turns : Nat}
    {blockIndex : UInt32} {out : List UInt8} (hout : out.length ≤ dkLen)
    (hturns : dkLen ≤ out.length + turns) :
    (pbkdf2From password salt iterations dkLen turns blockIndex out).length = dkLen := by
  induction turns generalizing blockIndex out with
  | zero => exact Nat.le_antisymm hout hturns
  | succ turns ih =>
      rw [pbkdf2From]
      split
      · next hmore =>
          have hlen := length_pbkdf2Block password salt iterations blockIndex
          have hpos : 0 < OUT := by decide
          apply ih
          · rw [List.length_append, List.length_take, hlen]
            omega
          · rw [List.length_append, List.length_take, hlen]
            omega
      · next hdone => exact Nat.le_antisymm hout (Nat.not_lt.mp hdone)

theorem length_pbkdf2HmacSha1 (password salt : List UInt8) (iterations dkLen : Nat) :
    (pbkdf2HmacSha1 password salt iterations dkLen).length = dkLen :=
  length_pbkdf2From (Nat.zero_le _) (Nat.le_add_left _ _)

/-! ### The access key -/

def ACCESS_KEY_ITERATIONS : Nat := 1000
def ACCESS_KEY_LEN : Nat := 16

/-- `[u8; ACCESS_KEY_LEN]` -/
abbrev AccessKey : Type := { key : List UInt8 // key.length = ACCESS_KEY_LEN }

/-- `[u8; 8]`, a challenge of the host's. -/
abbrev HostChallenge : Type := { challenge : List UInt8 // challenge.length = 8 }

def deriveAccessKey (password : RustStr) (deviceId : List UInt8) : AccessKey :=
  ⟨pbkdf2HmacSha1 (RustStr.asBytes password) deviceId ACCESS_KEY_ITERATIONS ACCESS_KEY_LEN,
    length_pbkdf2HmacSha1 _ _ _ _⟩

def respond (accessKey challenge : List UInt8) : List UInt8 := hmacSha1 accessKey challenge

/-! ### Commands -/

def AID : List UInt8 := [0xA0, 0x00, 0x00, 0x05, 0x27, 0x21, 0x01]

def CHALLENGE : UInt8 := 0x74
def RESPONSE : UInt8 := 0x75
def VERSION : UInt8 := 0x79
def SERIAL_NUMBER : UInt8 := 0x8F

def INS_SELECT : UInt8 := 0xA4
def INS_SET_CODE : UInt8 := 0x03
def INS_VALIDATE : UInt8 := 0xA3
def INS_DELETE : UInt8 := 0x02

/-- `push_tlv` of a value that is known to fit: the source panics beyond 255 bytes. -/
def pushTlv (tag : UInt8) (value : List UInt8) : List UInt8 :=
  tag :: value.length.toUInt8 :: value

def withLe (apdu : List UInt8) : List UInt8 := apdu ++ [0x00]

def select : List UInt8 := withLe (buildApdu 0x00 INS_SELECT 0x04 0x00 AID)

/-- What answers `cardChallenge` and poses `hostChallenge`. -/
def validate (accessKey cardChallenge hostChallenge : List UInt8) : List UInt8 :=
  let resp := respond accessKey cardChallenge
  withLe (buildApdu 0x00 INS_VALIDATE 0x00 0x00
    (pushTlv RESPONSE resp ++ pushTlv CHALLENGE hostChallenge))

def setCode (accessKey challenge : List UInt8) : List UInt8 :=
  let keyTlv := prefixByte .totp .sha1 :: accessKey
  let resp := respond accessKey challenge
  buildApdu 0x00 INS_SET_CODE 0x00 0x00
    (pushTlv Tag.key.code keyTlv ++ pushTlv CHALLENGE challenge ++ pushTlv RESPONSE resp)

def clearCode : List UInt8 := buildApdu 0x00 INS_SET_CODE 0x00 0x00 (pushTlv Tag.key.code [])

def reset : List UInt8 := [0x00, 0x04, 0xDE, 0xAD]

/-- Build a DELETE. -/
def delete (name : RustStr) : Except BuildError (List UInt8) := do
  let data ← tryPushTlv [] .name "name" (RustStr.asBytes name)
  finishApdu INS_DELETE 0x00 0x00 data

def list : List UInt8 := buildApduGet 0x00 0xA1 0x00 0x00 0x00

def listWithProperties : List UInt8 := withLe (buildApdu 0x00 0xA1 0x00 0x00 [0x01])

/-- A CALCULATE of one credential; a counter-based one gets an empty challenge. -/
def calculateWith (name : RustStr) (challenge : List UInt8) : Except BuildError (List UInt8) := do
  let data ← tryPushTlv [] .name "name" (RustStr.asBytes name)
  let apdu ← finishApdu 0xA2 0x00 0x01 (data ++ pushTlv CHALLENGE challenge)
  return withLe apdu

def calculate (name : RustStr) (challenge : HostChallenge) : Except BuildError (List UInt8) :=
  calculateWith name challenge.val

def calculateHotp (name : RustStr) : Except BuildError (List UInt8) := calculateWith name []

def calculateAll (challenge : HostChallenge) : List UInt8 :=
  withLe (buildApdu 0x00 0xA4 0x00 0x01 (pushTlv CHALLENGE challenge.val))

/-- The counter of a time, most significant byte first. The source panics where `period`
is zero. -/
def totpChallenge (unixSeconds : UInt64) (period : UInt32) : HostChallenge :=
  ⟨Bytes.be 8 (unixSeconds.toNat / period.toNat), rfl⟩

/-! ### Answers -/

/-- The value of the first TLV with the tag. -/
def findTag (tlvs : List Tlv) (tag : UInt8) : Option (List UInt8) :=
  (tlvs.find? fun t => decide (t.tag = tag)).map Tlv.value

/-- What a SELECT response told us about the applet. A challenge is there exactly when a password is
set, and the session is locked until it is answered. -/
structure SelectInfo where
  version : List UInt8
  deviceId : List UInt8
  challenge : Option (List UInt8)
  serial : Option (List UInt8)
deriving DecidableEq, Repr

def SelectInfo.default : SelectInfo :=
  { version := [], deviceId := [], challenge := none, serial := none }

def SelectInfo.passwordRequired (info : SelectInfo) : Bool := info.challenge.isSome

def parseSelect (buf : List UInt8) : Except ParseError SelectInfo :=
  match parseTlvs buf with
  | .error e => .error e
  | .ok tlvs => .ok {
      version := (findTag tlvs VERSION).getD []
      deviceId := (findTag tlvs Tag.name.code).getD []
      challenge := (findTag tlvs CHALLENGE).filter fun c => !c.isEmpty
      serial := findTag tlvs SERIAL_NUMBER }

def parseCalculate (buf : List UInt8) : Except ParseError OtpCode :=
  match parseTlvs buf with
  | .error e => .error e
  | .ok tlvs =>
      match findTag tlvs TRUNCATED_RESPONSE with
      | none => .error (.missingTag TRUNCATED_RESPONSE)
      | some value => parseTruncatedResponse value

/-- Equality without an early end. -/
def ctEq (a b : List UInt8) : Bool :=
  if a.length ≠ b.length then false
  else decide ((a.zip b).foldl (fun diff p => diff ||| (p.1 ^^^ p.2)) 0 = 0)

/-- Whether the card's RESPONSE is the HMAC of the host's challenge. -/
def verifyValidate (accessKey hostChallenge reply : List UInt8) : Except ParseError Bool :=
  match parseTlvs reply with
  | .error e => .error e
  | .ok tlvs =>
      match findTag tlvs RESPONSE with
      | none => .error (.missingTag RESPONSE)
      | some cardResp => .ok (ctEq cardResp (respond accessKey hostChallenge))

theorem foldl_diff (a b : List UInt8) (h : a.length = b.length) (acc : UInt8) :
    (a.zip b).foldl (fun diff p => diff ||| (p.1 ^^^ p.2)) acc = 0 ↔ acc = 0 ∧ a = b := by
  induction a generalizing b acc with
  | nil =>
      cases b with
      | nil => exact (and_iff_left rfl).symm
      | cons y b => cases h
  | cons x a ih =>
      cases b with
      | nil => cases h
      | cons y b =>
          rw [List.zip_cons_cons, List.foldl_cons, ih b (Nat.succ.inj h), List.cons.injEq,
            UInt8.or_eq_zero_iff, UInt8.xor_eq_zero_iff, and_assoc]

theorem ctEq_iff {a b : List UInt8} : ctEq a b = true ↔ a = b := by
  unfold ctEq
  by_cases h : a.length = b.length
  · rw [if_neg (not_not_intro h), decide_eq_true_iff, foldl_diff a b h]
    exact and_iff_right rfl
  · rw [if_pos h]
    exact ⟨nofun, fun heq => absurd (congrArg List.length heq) h⟩

/-- What a reply proves: its first RESPONSE is the HMAC under the key. -/
theorem verifyValidate_eq_true {accessKey hostChallenge reply : List UInt8} :
    verifyValidate accessKey hostChallenge reply = .ok true ↔
      ∃ tlvs, parseTlvs reply = .ok tlvs ∧
        findTag tlvs RESPONSE = some (respond accessKey hostChallenge) := by
  unfold verifyValidate
  rcases hparse : parseTlvs reply with e | tlvs
  · simp
  · rcases hfind : findTag tlvs RESPONSE with _ | cardResp
    · simp [hfind]
    · simp [hfind, ctEq_iff]

end Keyroost.Oath
