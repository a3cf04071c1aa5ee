import Keyroost.Library.Bytes
import Keyroost.Library.Lines
import Keyroost.Library.Utf8
import Keyroost.Library.Words
import Keyroost.Proto.CodecCanonical

/-!
# OpenSSH certificates in large-blob storage

A certificate is stored in its wire form or as the text of a `-cert.pub` file. Whichever it is,
what `keyroost-ctap/src/ssh_cert.rs` writes back out is one line of printable ASCII that reads as
the certificate that was stored.

The readers of the wire form are partial functions on the bytes that are left, one for each field
of the source, so a length that runs past the end makes the whole certificate unreadable. The text
form is split at white space and its second word decoded from base64; `toCertPub` writes the line
anew, and a text that is already one printable line is kept with its comment (`plainCertLine`).
`toCertPub_reads` and `plainCertLine_reads` are the two cases of `fromStored_printed`.
-/

namespace Keyroost.Ctap.SshCert

open Keyroost.Proto.Codec

/-! ### The wire form -/

def CERT_TYPE_USER : UInt32 := 1

def CERT_TYPE_HOST : UInt32 := 2

structure SshCertInfo where
  keyType : RustStr
  serial : UInt64
  certType : UInt32
  keyId : RustStr
  principals : List RustStr
  validAfter : UInt64
  validBefore : UInt64
  criticalOptions : List (RustStr × RustStr)
  extensions : List RustStr
deriving DecidableEq, Repr

/-- `take`, as all of the reader below: what it takes, and the bytes after it. -/
def take (buf : List UInt8) (n : Nat) : Option (List UInt8 × List UInt8) :=
  if buf.length < n then none else some (buf.take n, buf.drop n)

def u32 (buf : List UInt8) : Option (UInt32 × List UInt8) := do
  let (b, rest) ← take buf 4
  return (UInt32.ofNat (Bytes.ofBe b), rest)

def u64 (buf : List UInt8) : Option (UInt64 × List UInt8) := do
  let (b, rest) ← take buf 8
  return (UInt64.ofNat (Bytes.ofBe b), rest)

def bytes (buf : List UInt8) : Option (List UInt8 × List UInt8) := do
  let (n, rest) ← u32 buf
  take rest n.toNat

def string (buf : List UInt8) : Option (RustStr × List UInt8) := do
  let (b, rest) ← bytes buf
  return (← Utf8.fromUtf8 b, rest)

def ED25519_CERT : RustStr := "ssh-ed25519-cert-v01@openssh.com".toList
def RSA_CERT : RustStr := "ssh-rsa-cert-v01@openssh.com".toList
def NISTP256_CERT : RustStr := "ecdsa-sha2-nistp256-cert-v01@openssh.com".toList
def NISTP384_CERT : RustStr := "ecdsa-sha2-nistp384-cert-v01@openssh.com".toList
def NISTP521_CERT : RustStr := "ecdsa-sha2-nistp521-cert-v01@openssh.com".toList
def SK_ED25519_CERT : RustStr := "sk-ssh-ed25519-cert-v01@openssh.com".toList
def SK_NISTP256_CERT : RustStr := "sk-ecdsa-sha2-nistp256-cert-v01@openssh.com".toList

/-- How many wire fields the embedded public key has. -/
def pubkeyFieldCount (keyType : RustStr) : Option Nat :=
  if keyType = ED25519_CERT then some 1
  else if keyType = RSA_CERT then some 2
  else if keyType = NISTP256_CERT ∨ keyType = NISTP384_CERT ∨ keyType = NISTP521_CERT then some 2
  else if keyType = SK_ED25519_CERT then some 2
  else if keyType = SK_NISTP256_CERT then some 3
  else none

/-- So many byte strings are passed over. -/
def skipFields : Nat → List UInt8 → Option (List UInt8)
  | 0, buf => some buf
  | n + 1, buf => do
      let (_, rest) ← bytes buf
      skipFields n rest

/-- Items up to the end of the buffer. Each takes a byte at least, so that `fuel`, the
length of the buffer, is never used up. -/
def packed {α : Type} (item : List UInt8 → Option (α × List UInt8)) :
    Nat → List UInt8 → Option (List α)
  | _, [] => some []
  | 0, _ :: _ => none
  | fuel + 1, b :: buf => do
      let (a, rest) ← item (b :: buf)
      return a :: (← packed item fuel rest)

def packedStrings (buf : List UInt8) : Option (List RustStr) := packed string buf.length buf

/-- A name and its data, which are nothing or one string. -/
def namedPair (buf : List UInt8) : Option ((RustStr × RustStr) × List UInt8) := do
  let (name, rest) ← string buf
  let (data, rest) ← bytes rest
  if data = [] then return ((name, []), rest)
  let (v, inner) ← string data
  if inner ≠ [] then none
  return ((name, v), rest)

def packedPairs (buf : List UInt8) : Option (List (RustStr × RustStr)) :=
  packed namedPair buf.length buf

/-- A complete certificate of a supported type, with nothing after it. The fields of the public key
are skipped by their number, which the type tells. -/
def parseWire (blob : List UInt8) : Option SshCertInfo := do
  let (keyType, r) ← string blob
  let pubkeyFields ← pubkeyFieldCount keyType
  let (_, r) ← bytes r
  let r ← skipFields pubkeyFields r
  let (serial, r) ← u64 r
  let (certType, r) ← u32 r
  if certType ≠ CERT_TYPE_USER ∧ certType ≠ CERT_TYPE_HOST then none
  let (keyId, r) ← string r
  let (principals, r) ← bytes r
  let principals ← packedStrings principals
  let (validAfter, r) ← u64 r
  let (validBefore, r) ← u64 r
  let (critical, r) ← bytes r
  let criticalOptions ← packedPairs critical
  let (extensions, r) ← bytes r
  let extensions := (← packedPairs extensions).map (·.1)
  let r ← skipFields 3 r
  if r ≠ [] then none
  return { keyType, serial, certType, keyId, principals, validAfter, validBefore,
           criticalOptions, extensions }

/-! ### The text form -/

def CERT_SUFFIX : RustStr := "-cert-v01@openssh.com".toList

def parseText (s : RustStr) : Option (SshCertInfo × List UInt8) :=
  match RustStr.splitAsciiWhitespace s with
  | declared :: encoded :: _ => do
      if !RustStr.endsWith declared CERT_SUFFIX then none
      let wire ← (base64Decode encoded).toOption
      let info ← parseWire wire
      if info.keyType ≠ declared then none
      return (info, wire)
  | _ => none

/-- `0x20..0x7f`. -/
def isPrintable (b : UInt8) : Bool := decide (0x20 ≤ b ∧ b < 0x7f)

/-- The text without its line end, when all of it is one printable line. -/
def plainCertLine (text : RustStr) : Option RustStr :=
  let line := ((RustStr.stripSuffix text ['\r', '\n']).or
    (RustStr.stripSuffix text ['\n'])).getD text
  if (RustStr.asBytes line).all isPrintable then some line else none

def toCertPub (wire : List UInt8) : Option RustStr := do
  let info ← parseWire wire
  return info.keyType ++ [' '] ++ base64Encode wire ++ ['\n']

structure StoredCert where
  info : SshCertInfo
  wire : List UInt8
  certPub : RustStr
deriving DecidableEq, Repr

def fromStored (stored : List UInt8) : Option StoredCert :=
  match parseWire stored with
  | some info => do
      return { info, wire := stored, certPub := ← toCertPub stored }
  | none => do
      let text ← Utf8.fromUtf8 stored
      let (info, wire) ← parseText (RustStr.trim text)
      let certPub ← match plainCertLine text with
        | some line => some (line ++ ['\n'])
        | none => toCertPub wire
      return { info, wire, certPub }

/-! ### What is printed -/

/-- A character that prints and separates nothing. -/
def isGraphic (c : Char) : Bool := decide (0x20 < c.toNat ∧ c.toNat < 0x7f)

theorem not_asciiWhitespace {c : Char} (h : isGraphic c = true) :
    RustStr.isAsciiWhitespace c = false := by
  rw [isGraphic, decide_eq_true_iff] at h
  rw [RustStr.isAsciiWhitespace, decide_eq_false_iff_not]
  rintro (rfl | rfl | rfl | rfl | rfl)
  all_goals exact absurd h (by decide)

theorem isGraphic_of_base64Value {c : Char} {v : UInt32} (h : base64Value c = some v) :
    isGraphic c = true := by
  rw [base64Value] at h
  rw [isGraphic, decide_eq_true_iff]
  split at h
  · rename_i hc
    exact ⟨Nat.lt_of_lt_of_le (by decide) hc.1, Nat.lt_of_le_of_lt hc.2 (by decide)⟩
  split at h
  · rename_i hc
    exact ⟨Nat.lt_of_lt_of_le (by decide) hc.1, Nat.lt_of_le_of_lt hc.2 (by decide)⟩
  split at h
  · rename_i hc
    exact ⟨Nat.lt_of_lt_of_le (by decide) hc.1, Nat.lt_of_le_of_lt hc.2 (by decide)⟩
  split at h
  · rename_i hc
    rcases hc with rfl | rfl
    all_goals decide
  split at h
  · rename_i hc
    rcases hc with rfl | rfl
    all_goals decide
  · cases h

theorem isGraphic_base64Encode (wire : List UInt8) :
    ∀ c ∈ base64Encode wire, isGraphic c = true := by
  obtain ⟨ds, bits, -, -, hlt, htext⟩ := base64Encode_digits wire
  intro c hc
  rw [htext, Regroup.Alphabet.padTo] at hc
  rcases List.mem_append.mp hc with hc | hc
  · obtain ⟨d, hd, rfl⟩ := List.mem_map.mp hc
    obtain ⟨v, hv, -⟩ := Option.map_eq_some_iff.mp (base64Value_digit d (hlt d hd))
    exact isGraphic_of_base64Value hv
  · rw [List.eq_of_mem_replicate hc]
    decide

theorem base64Encode_ne_nil {wire : List UInt8} (h : wire ≠ []) : base64Encode wire ≠ [] := by
  match wire, h with
  | [_], _ => exact nofun
  | [_, _], _ => exact nofun
  | _ :: _ :: _ :: _, _ => exact nofun

def isCertType (keyType : RustStr) : Bool :=
  RustStr.endsWith keyType CERT_SUFFIX && !keyType.isEmpty && keyType.all isGraphic

theorem isCertType_all : ∀ keyType ∈ [ED25519_CERT, RSA_CERT, NISTP256_CERT, NISTP384_CERT,
    NISTP521_CERT, SK_ED25519_CERT, SK_NISTP256_CERT], isCertType keyType = true := by
  have hsuffix : CERT_SUFFIX = _ := String.toList_ofList
  have hed25519 : ED25519_CERT = _ := String.toList_ofList
  have hrsa : RSA_CERT = _ := String.toList_ofList
  have hnistp256 : NISTP256_CERT = _ := String.toList_ofList
  have hnistp384 : NISTP384_CERT = _ := String.toList_ofList
  have hnistp521 : NISTP521_CERT = _ := String.toList_ofList
  have hskEd25519 : SK_ED25519_CERT = _ := String.toList_ofList
  have hskNistp256 : SK_NISTP256_CERT = _ := String.toList_ofList
  rw [hed25519, hrsa, hnistp256, hnistp384, hnistp521, hskEd25519, hskNistp256]
  simp only [isCertType, hsuffix]
  decide

theorem isCertType_of_count {keyType : RustStr} {n : Nat} (h : pubkeyFieldCount keyType = some n) :
    isCertType keyType = true := by
  refine isCertType_all keyType ?_
  by_contra hmem
  simp only [List.mem_cons, List.not_mem_nil, or_false, not_or] at hmem
  obtain ⟨hed25519, hrsa, hnistp256, hnistp384, hnistp521, hskEd25519, hskNistp256⟩ := hmem
  have hnistp := not_or.mpr ⟨hnistp256, not_or.mpr ⟨hnistp384, hnistp521⟩⟩
  rw [pubkeyFieldCount, if_neg hed25519, if_neg hrsa, if_neg hnistp, if_neg hskEd25519,
    if_neg hskNistp256] at h
  cases h

theorem isCertType_of_parseWire {wire : List UInt8} {info : SshCertInfo}
    (h : parseWire wire = some info) : isCertType info.keyType = true := by
  obtain ⟨⟨keyType, r⟩, -, h⟩ := Option.bind_eq_some_iff.mp h
  obtain ⟨fields, hfields, h⟩ := Option.bind_eq_some_iff.mp h
  obtain ⟨nonce, -, h⟩ := Option.bind_eq_some_iff.mp h
  obtain ⟨r, -, h⟩ := Option.bind_eq_some_iff.mp h
  obtain ⟨serial, -, h⟩ := Option.bind_eq_some_iff.mp h
  obtain ⟨certType, -, h⟩ := Option.bind_eq_some_iff.mp h
  dsimp only at h
  split at h
  · cases h
  obtain ⟨keyId, -, h⟩ := Option.bind_eq_some_iff.mp h
  obtain ⟨principals, -, h⟩ := Option.bind_eq_some_iff.mp h
  obtain ⟨names, -, h⟩ := Option.bind_eq_some_iff.mp h
  obtain ⟨validAfter, -, h⟩ := Option.bind_eq_some_iff.mp h
  obtain ⟨validBefore, -, h⟩ := Option.bind_eq_some_iff.mp h
  obtain ⟨critical, -, h⟩ := Option.bind_eq_some_iff.mp h
  obtain ⟨options, -, h⟩ := Option.bind_eq_some_iff.mp h
  obtain ⟨extensions, -, h⟩ := Option.bind_eq_some_iff.mp h
  obtain ⟨pairs, -, h⟩ := Option.bind_eq_some_iff.mp h
  obtain ⟨rest, -, h⟩ := Option.bind_eq_some_iff.mp h
  split at h
  · cases h
  · cases h
    exact isCertType_of_count hfields

theorem ne_nil_of_parseWire {wire : List UInt8} {info : SshCertInfo}
    (h : parseWire wire = some info) : wire ≠ [] := by
  rintro rfl
  cases h

/-- A length of four bytes that runs past the end. -/
theorem parseWire_overrun {head rest : List UInt8} (hhead : head.length = 4)
    (h : rest.length < (UInt32.ofNat (Bytes.ofBe head)).toNat) :
    parseWire (head ++ rest) = none := by
  have htake : take (head ++ rest) 4 = some (head, rest) := by
    rw [take, if_neg (by rw [List.length_append]; omega), ← hhead, List.take_left, List.drop_left]
  have hu32 : u32 (head ++ rest) = some (UInt32.ofNat (Bytes.ofBe head), rest) := by
    rw [u32, htake]
    rfl
  have hbytes : bytes (head ++ rest) = none := by
    rw [bytes, hu32]
    exact if_pos h
  have hstring : string (head ++ rest) = none := by
    rw [string, hbytes]
    rfl
  rw [parseWire, hstring]
  rfl

/-! ### What is written out -/

/-- One printable line. -/
def Printable (line : RustStr) : Prop := ∀ c ∈ line, 0x20 ≤ c.toNat ∧ c.toNat < 0x7f

theorem printable_of_graphic {s : RustStr} (h : ∀ c ∈ s, isGraphic c = true) : Printable s := by
  intro c hc
  obtain ⟨hlow, hhigh⟩ := of_decide_eq_true (h c hc)
  exact ⟨Nat.le_of_lt hlow, hhigh⟩

/-- Only the first two words of a text count. -/
theorem parseText_words {s : RustStr} {wire : List UInt8} {info : SshCertInfo}
    {rest : List RustStr}
    (hwords : RustStr.splitAsciiWhitespace s = info.keyType :: base64Encode wire :: rest)
    (hsuffix : RustStr.endsWith info.keyType CERT_SUFFIX = true)
    (hwire : parseWire wire = some info) : parseText s = some (info, wire) := by
  rw [parseText, hwords]
  simp [hsuffix, base64Decode_encode, hwire, Except.toOption]

/-- The line built for a certificate reads as that certificate. -/
theorem toCertPub_reads {wire : List UInt8} {info : SshCertInfo}
    (h : parseWire wire = some info) : ∃ line, toCertPub wire = some (line ++ ['\n']) ∧
      Printable line ∧ parseText (line ++ ['\n']) = some (info, wire) := by
  have hcert := isCertType_of_parseWire h
  rw [isCertType, Bool.and_eq_true, Bool.and_eq_true, Bool.not_eq_true', List.all_eq_true,
    List.isEmpty_eq_false_iff] at hcert
  obtain ⟨⟨hsuffix, hne⟩, hgraphic⟩ := hcert
  have hencoded := isGraphic_base64Encode wire
  refine ⟨info.keyType ++ ' ' :: base64Encode wire, ?_, ?_, ?_⟩
  · rw [toCertPub, h]
    simp
  · intro c hc
    rcases List.mem_append.mp hc with hc | hc
    · exact printable_of_graphic hgraphic c hc
    rcases List.mem_cons.mp hc with rfl | hc
    · decide
    · exact printable_of_graphic hencoded c hc
  · have hwords : RustStr.splitAsciiWhitespace (info.keyType ++ ' ' :: base64Encode wire ++ ['\n']) =
        [info.keyType, base64Encode wire] := by
      rw [RustStr.splitAsciiWhitespace, Words.words_append_right (List.all_eq_true.mp (by decide)),
        Words.words_append_cons _ _ (by decide),
        Words.words_word (fun c hc => not_asciiWhitespace (hgraphic c hc)) hne,
        Words.words_word (fun c hc => not_asciiWhitespace (hencoded c hc))
          (base64Encode_ne_nil (ne_nil_of_parseWire h))]
      rfl
    exact parseText_words hwords hsuffix h

/-- Only the words of a text count. -/
theorem parseText_congr {s t : RustStr}
    (h : RustStr.splitAsciiWhitespace s = RustStr.splitAsciiWhitespace t) :
    parseText s = parseText t := by
  rw [parseText, parseText, h]

theorem isPrintable_ofNat {n : Nat} (h : isPrintable (UInt8.ofNat n) = true) :
    0x20 ≤ n % 256 ∧ n % 256 < 0x7f := by
  obtain ⟨hlow, hhigh⟩ := of_decide_eq_true h
  rw [UInt8.le_iff_toNat_le, UInt8.toNat_ofNat'] at hlow
  rw [UInt8.lt_iff_toNat_lt, UInt8.toNat_ofNat'] at hhigh
  exact ⟨hlow, hhigh⟩

/-- Beyond ASCII the first byte of a character is not printable. -/
theorem printable_of_asBytes {line : RustStr}
    (h : (RustStr.asBytes line).all isPrintable = true) : Printable line := by
  intro c hc
  have hbytes : (String.utf8EncodeChar c).all isPrintable = true := by
    rw [List.all_eq_true] at h ⊢
    exact fun b hb => h b (List.mem_flatMap.mpr ⟨c, hc, hb⟩)
  unfold String.utf8EncodeChar at hbytes
  change 0x20 ≤ c.val.toNat ∧ c.val.toNat < 0x7f
  dsimp only at hbytes
  split at hbytes
  · have hb := isPrintable_ofNat (List.all_eq_true.mp hbytes _ List.mem_cons_self)
    omega
  split at hbytes
  · have hb := isPrintable_ofNat (List.all_eq_true.mp hbytes _ List.mem_cons_self)
    omega
  split at hbytes
  · have hb := isPrintable_ofNat (List.all_eq_true.mp hbytes _ List.mem_cons_self)
    omega
  · have hb := isPrintable_ofNat (List.all_eq_true.mp hbytes _ List.mem_cons_self)
    omega

theorem all_isPrintable {line : RustStr} (h : Printable line) :
    (RustStr.asBytes line).all isPrintable = true := by
  rw [RustStr.asBytes_ascii fun c hc => (h c hc).2.trans (by decide), List.all_map,
    List.all_eq_true]
  intro c hc
  obtain ⟨hlow, hhigh⟩ := h c hc
  have hbyte : c.toNat.toUInt8.toNat = c.toNat :=
    Nat.mod_eq_of_lt (hhigh.trans (by decide))
  refine decide_eq_true ⟨?_, ?_⟩
  · rw [UInt8.le_iff_toNat_le, hbyte]
    exact hlow
  · rw [UInt8.lt_iff_toNat_lt, hbyte]
    exact hhigh

theorem plainCertLine_crlf {line : RustStr} (h : Printable line) :
    plainCertLine (line ++ ['\r', '\n']) = some line := by
  rw [plainCertLine, RustStr.stripSuffix_append]
  exact if_pos (all_isPrintable h)

theorem isAsciiWhitespace_of_printable {c : Char} (h : 0x20 ≤ c.toNat ∧ c.toNat < 0x7f)
    (hspace : RustStr.isWhitespace c = true) : RustStr.isAsciiWhitespace c = true := by
  have hc : c.toNat = 0x20 := by
    simp only [RustStr.isWhitespace, Bool.or_eq_true, Bool.and_eq_true, decide_eq_true_eq,
      beq_iff_eq] at hspace
    omega
  obtain rfl : c = ' ' := by rw [← Char.ofNat_toNat c, hc]
  rfl

/-- A plain line reads as the text it was stored in. -/
theorem plainCertLine_reads {text line : RustStr} (h : plainCertLine text = some line) :
    Printable line ∧ parseText (line ++ ['\n']) = parseText (RustStr.trim text) := by
  have hend : ∃ lineEnd, text = line ++ lineEnd ∧
      (∀ c ∈ lineEnd, RustStr.isAsciiWhitespace c = true) ∧ Printable line := by
    rw [plainCertLine] at h
    split at h
    · rename_i hprintable
      have hline := printable_of_asBytes hprintable
      obtain rfl := Option.some.inj h
      rcases hcrlf : RustStr.stripSuffix text ['\r', '\n'] with _ | l
      · rw [hcrlf] at hline
        rcases hlf : RustStr.stripSuffix text ['\n'] with _ | l
        · rw [hlf] at hline
          exact ⟨[], (List.append_nil _).symm, nofun, hline⟩
        · rw [hlf] at hline
          exact ⟨['\n'], RustStr.stripSuffix_eq_some.mp hlf,
            List.all_eq_true.mp (by decide), hline⟩
      · rw [hcrlf] at hline
        exact ⟨['\r', '\n'], RustStr.stripSuffix_eq_some.mp hcrlf,
          List.all_eq_true.mp (by decide), hline⟩
    · cases h
  obtain ⟨lineEnd, rfl, hlineEnd, hline⟩ := hend
  refine ⟨hline, parseText_congr ?_⟩
  have hspaces : ∀ c ∈ line ++ lineEnd,
      RustStr.isWhitespace c = true → RustStr.isAsciiWhitespace c = true := by
    intro c hc hspace
    rcases List.mem_append.mp hc with hc | hc
    · exact isAsciiWhitespace_of_printable (hline c hc) hspace
    · exact hlineEnd c hc
  rw [RustStr.splitAsciiWhitespace_trim hspaces, RustStr.splitAsciiWhitespace,
    Words.words_append_right (List.all_eq_true.mp (by decide)), RustStr.splitAsciiWhitespace,
    Words.words_append_right hlineEnd]

theorem parseWire_of_parseText {s : RustStr} {info : SshCertInfo} {wire : List UInt8}
    (h : parseText s = some (info, wire)) : parseWire wire = some info := by
  unfold parseText at h
  split at h
  · split at h
    · cases h
    · obtain ⟨wire', -, h⟩ := Option.bind_eq_some_iff.mp h
      obtain ⟨info', hinfo, h⟩ := Option.bind_eq_some_iff.mp h
      split at h
      · cases h
      · cases h
        exact hinfo
  · cases h

/-- **A stored certificate is written out as one printable line that reads as itself.** It may have
been stored in either form, with a comment or without; the line reads as the certificate that is
reported, with the same bytes. -/
theorem fromStored_printed {stored : List UInt8} {cert : StoredCert}
    (h : fromStored stored = some cert) :
    (∃ line, cert.certPub = line ++ ['\n'] ∧ Printable line) ∧
      parseText cert.certPub = some (cert.info, cert.wire) := by
  unfold fromStored at h
  split at h
  · rename_i info hinfo
    obtain ⟨line, hline, hprintable, hreads⟩ := toCertPub_reads hinfo
    rw [hline] at h
    cases h
    exact ⟨⟨line, rfl, hprintable⟩, hreads⟩
  · obtain ⟨text, htext, h⟩ := Option.bind_eq_some_iff.mp h
    obtain ⟨⟨info, wire⟩, hparse, h⟩ := Option.bind_eq_some_iff.mp h
    dsimp only at h
    split at h
    · rename_i line hplain
      obtain ⟨hprintable, hreads⟩ := plainCertLine_reads hplain
      cases h
      exact ⟨⟨line, rfl, hprintable⟩, hreads.trans hparse⟩
    · obtain ⟨line, hline, hprintable, hreads⟩ := toCertPub_reads (parseWire_of_parseText hparse)
      rw [hline] at h
      cases h
      exact ⟨⟨line, rfl, hprintable⟩, hreads⟩

theorem fromStored_plain {stored : List UInt8} {text line : RustStr} {info : SshCertInfo}
    {wire : List UInt8} (hstored : parseWire stored = none)
    (htext : Utf8.fromUtf8 stored = some text)
    (hparse : parseText (RustStr.trim text) = some (info, wire))
    (hline : plainCertLine text = some line) :
    fromStored stored = some ⟨info, wire, line ++ ['\n']⟩ := by
  simp [fromStored, hstored, htext, hparse, hline]

/-! ### A certificate file of one user -/

/-- A byte string behind its length. -/
def sized (b : List UInt8) : List UInt8 := Bytes.be 4 b.length ++ b

/-- One principal and one extension; the nonce, the keys and the signature are short and no real
ones, and no reader looks into them. -/
def sampleWire : List UInt8 :=
  sized (RustStr.asBytes ED25519_CERT) ++ sized (List.replicate 4 0x5a) ++
    sized (List.replicate 4 0xa5) ++ Bytes.be 8 7 ++ Bytes.be 4 1 ++
    sized (RustStr.asBytes ['l', 'a', 'p', 't', 'o', 'p']) ++
    sized (sized (RustStr.asBytes ['a', 'l', 'i', 'c', 'e'])) ++ Bytes.be 8 0 ++
    List.replicate 8 0xff ++ sized [] ++
    sized (sized (RustStr.asBytes "permit-pty".toList) ++ sized []) ++ sized [] ++
    sized (List.replicate 4 0x01) ++ sized (List.replicate 4 0x02)

def sampleInfo : SshCertInfo :=
  ⟨ED25519_CERT, 7, CERT_TYPE_USER, ['l', 'a', 'p', 't', 'o', 'p'], [['a', 'l', 'i', 'c', 'e']],
    0, 0xffffffffffffffff, [], ["permit-pty".toList]⟩

def sampleComment : RustStr := ['a', 'l', 'i', 'c', 'e', '@', 'l', 'a', 'p', 't', 'o', 'p']

def sampleLine : RustStr := ED25519_CERT ++ ' ' :: base64Encode sampleWire ++ ' ' :: sampleComment

/-- The file with a comment and the line end of a Windows editor. -/
def sampleText : RustStr := sampleLine ++ ['\r', '\n']

/-- The comment is kept, the line end is not. -/
def sampleCert : StoredCert := ⟨sampleInfo, sampleWire, sampleLine ++ ['\n']⟩

theorem parseWire_sampleWire : parseWire sampleWire = some sampleInfo := by decide +kernel

theorem printable_sampleLine : Printable sampleLine := by
  have htype : ED25519_CERT.all isGraphic = true := by decide
  have hcomment : sampleComment.all isGraphic = true := by decide +kernel
  intro c hc
  rcases List.mem_append.mp hc with hc | hc
  · rcases List.mem_append.mp hc with hc | hc
    · exact printable_of_graphic (List.all_eq_true.mp htype) c hc
    rcases List.mem_cons.mp hc with rfl | hc
    · decide
    · exact printable_of_graphic (isGraphic_base64Encode sampleWire) c hc
  rcases List.mem_cons.mp hc with rfl | hc
  · decide
  · exact printable_of_graphic (List.all_eq_true.mp hcomment) c hc

theorem plainCertLine_sampleText : plainCertLine sampleText = some sampleLine :=
  plainCertLine_crlf printable_sampleLine

/-- Read as a length, `ssh-` runs past the end. -/
theorem parseWire_sampleText : parseWire sampleText.asBytes = none := by
  have hascii : ∀ c ∈ sampleText, c.toNat < 128 := by
    intro c hc
    rcases List.mem_append.mp hc with hc | hc
    · exact (printable_sampleLine c hc).2.trans (by decide)
    · rcases List.mem_pair.mp hc with rfl | rfl
      all_goals decide
  have hlen : sampleText.length < 1000 := by decide +kernel
  rw [RustStr.asBytes_ascii hascii, ← List.take_append_drop 4 (List.map _ sampleText)]
  refine parseWire_overrun rfl ?_
  rw [List.length_drop, List.length_map]
  exact (Nat.sub_le _ _).trans_lt (hlen.trans (by decide))

theorem splitAsciiWhitespace_sampleLine : RustStr.splitAsciiWhitespace (sampleLine ++ ['\n']) =
    [ED25519_CERT, base64Encode sampleWire, sampleComment] := by
  have hencoded := isGraphic_base64Encode sampleWire
  have htype : Words.words RustStr.isAsciiWhitespace ED25519_CERT = [ED25519_CERT] := by
    decide
  have hcomment : Words.words RustStr.isAsciiWhitespace sampleComment = [sampleComment] := by
    decide
  rw [RustStr.splitAsciiWhitespace, Words.words_append_right (List.all_eq_true.mp (by decide)),
    sampleLine, List.append_assoc, List.cons_append, Words.words_append_cons _ _ (by decide),
    Words.words_append_cons _ _ (by decide), htype, hcomment,
    Words.words_word (fun c hc => not_asciiWhitespace (hencoded c hc))
      (base64Encode_ne_nil (ne_nil_of_parseWire parseWire_sampleWire))]
  rfl

theorem parseText_sampleText :
    parseText (RustStr.trim sampleText) = some (sampleInfo, sampleWire) := by
  have hsuffix : RustStr.endsWith ED25519_CERT CERT_SUFFIX = true := by decide
  rw [← (plainCertLine_reads plainCertLine_sampleText).2]
  exact parseText_words splitAsciiWhitespace_sampleLine hsuffix parseWire_sampleWire

theorem fromStored_sampleText : fromStored sampleText.asBytes = some sampleCert :=
  fromStored_plain parseWire_sampleText (Utf8.fromUtf8_asBytes sampleText) parseText_sampleText
    plainCertLine_sampleText

theorem fromStored_printed_sampleText :
    (∃ line, sampleCert.certPub = line ++ ['\n'] ∧ Printable line) ∧
      parseText sampleCert.certPub = some (sampleInfo, sampleWire) :=
  fromStored_printed fromStored_sampleText

end Keyroost.Ctap.SshCert
