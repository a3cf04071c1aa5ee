import Keyroost.Library.Lines
import Keyroost.Library.Reader
import Keyroost.Library.Utf8
import Keyroost.Token2Otp.Error

/-!
# Pages of entries

Entries as a key lists them, without a length in front (`keyroost-token2otp/src/entry.rs`). Only the
entries that show a code end in one, and the first byte of a page says whether more pages follow.

The reader of each field has its writer beside it, and `Inverts` of the library says that the reader
takes exactly what the writer makes: no other bytes are read as that value. The fields are put
together in the order of the source. `inverts_parseOneEntry` is an entry and
`parseEnumPage_eq_ok_iff` a page, for entries that a key can list (`Entry.Listed`).
-/

namespace Keyroost.Token2Otp

open Reader

/-- An entry as it is listed. -/
structure Entry where
  otpType : OtpType
  algorithm : Algorithm
  timestep : UInt16
  codeLength : UInt8
  buttonRequired : Bool
  appName : RustStr
  accountName : RustStr
  code : Option RustStr
deriving DecidableEq, Repr

structure EnumPage where
  entries : List Entry
  morePages : Bool
deriving DecidableEq, Repr

def OtpType.fromByte (b : UInt8) : Option OtpType :=
  if b = 0x00 then some .hotp else if b = 0x01 then some .totp else none

def Algorithm.fromByte (b : UInt8) : Option Algorithm :=
  if b = 0xC1 then some .sha1 else if b = 0xC2 then some .sha256 else none

/-! ### Reading -/

namespace Cursor

def u8 : Reader ParseError UInt8
  | [] => .error .truncated
  | b :: rest => .ok (b, rest)

def u16Be : Reader ParseError UInt16 :=
  andThen u8 fun hi => andThen u8 fun lo => done (hi.toUInt16 <<< 8 ||| lo.toUInt16)

def ascii (n : Nat) : Reader ParseError RustStr :=
  andThen (bytes .truncated n) fun slice rest =>
    if slice.all (· < 0x80) then .ok (Utf8.fromUtf8Lossy slice, rest)
    else .error (.malformed "non-ASCII text field")

/-- A byte that stands for a value, or an error. -/
def coded {α : Type} (decode : UInt8 → Option α) (what : String) : Reader ParseError α :=
  andThen u8 fun b rest =>
    match decode b with
    | some a => .ok (a, rest)
    | none => .error (.malformed what)

/-- A text behind its length byte. -/
def text : Reader ParseError RustStr := andThen u8 fun len => ascii len.toNat

/-- A text that is not empty. -/
def someText (what : String) : Reader ParseError RustStr :=
  andThen u8 fun len =>
    if len = 0 then fun _ => .error (.malformed what) else ascii len.toNat

end Cursor

def buttonOf (b : UInt8) : Option Bool :=
  if b = 0x00 then some false else if b = 0x01 then some true else none

/-- Whether a listed entry shows its code. -/
def hasCode (forceCode : Bool) (otpType : OtpType) (buttonRequired : Bool) : Bool :=
  forceCode || (otpType == .totp && !buttonRequired)

def parseOneEntry (forceCode : Bool) : Reader ParseError Entry :=
  andThen (Cursor.coded OtpType.fromByte "unknown OTP type byte") fun otpType =>
  andThen (Cursor.coded Algorithm.fromByte "unknown algorithm byte") fun algorithm =>
  andThen Cursor.u16Be fun timestep =>
  andThen Cursor.u8 fun codeLength =>
  andThen (Cursor.coded buttonOf "button flag not 0/1") fun buttonRequired =>
  andThen Cursor.text fun appName =>
  andThen (Cursor.someText "account_name length is zero") fun accountName =>
  andThen
    (if hasCode forceCode otpType buttonRequired then
        andThen Cursor.text fun code => done (some code)
      else done none) fun code =>
  done ⟨otpType, algorithm, timestep, codeLength, buttonRequired, appName, accountName, code⟩

def parseEnumPage (data : List UInt8) : Except ParseError EnumPage :=
  match data with
  | [] => .error .truncated
  | b :: rest => do
      -- the first byte is the first entry's type beside the flag
      let entries ← toEnd .truncated (parseOneEntry false) data.length ((b &&& 0x7F) :: rest)
      return ⟨entries, b &&& 0x80 ≠ 0⟩

/-! ### Writing it again -/

def Entry.encode (e : Entry) : List UInt8 :=
  [e.otpType.toByte] ++ ([e.algorithm.toByte] ++ (Bytes.be 2 e.timestep.toNat ++ ([e.codeLength] ++
    ([e.buttonRequired.toUInt8] ++ (named e.appName ++ (named e.accountName ++
      (e.code.elim [] named)))))))

/-- The first byte with the flag. -/
def flagged (morePages : Bool) : List UInt8 → List UInt8
  | [] => []
  | b :: rest => (if morePages then b ||| 0x80 else b) :: rest

def EnumPage.encode (page : EnumPage) : List UInt8 :=
  flagged page.morePages (page.entries.flatMap Entry.encode)

/-- A text that a length byte can be put in front of. -/
def Short (s : RustStr) : Prop := s.isAscii = true ∧ s.len ≤ 255

/-- An entry whose texts fit, with a code where one is shown. Such entries are the ones a page can
say, and of these the reader gives back every one. -/
structure Entry.Fits (e : Entry) : Prop where
  appName : Short e.appName
  accountName : Short e.accountName
  code : ∀ c ∈ e.code, Short c
  shown : e.code.isSome = hasCode false e.otpType e.buttonRequired

/-- An entry that is accepted: its account has a name. -/
structure Entry.Listed (e : Entry) : Prop extends e.Fits where
  account : e.accountName ≠ []

/-! ### Every field is read as it was written -/

theorem inverts_u8 : Inverts Cursor.u8 (fun b => [b]) fun _ => True where
  reads b _ tail := rfl
  only data b rest h := by
    cases data with
    | nil => cases h
    | cons c data =>
        obtain ⟨rfl, rfl⟩ := Prod.mk.inj (Except.ok.inj h)
        exact ⟨trivial, rfl⟩

theorem inverts_coded {α : Type} {decode : UInt8 → Option α} {encode : α → UInt8} (what : String)
    (hcode : ∀ b a, decode b = some a ↔ b = encode a) :
    Inverts (Cursor.coded decode what) (fun a => [encode a]) fun _ => True where
  reads a _ tail := by
    have hdecode := (hcode (encode a) a).mpr rfl
    rw [Cursor.coded, andThen_of_ok (inverts_u8.reads (encode a) trivial tail)]
    simp only [hdecode]
  only data a rest h := by
    obtain ⟨b, mid, hbyte, hb⟩ := andThen_eq_ok.mp h
    obtain ⟨-, rfl⟩ := inverts_u8.only _ _ _ hbyte
    cases hdecode : decode b with
    | none => simp [hdecode] at hb
    | some a' =>
        obtain ⟨rfl, rfl⟩ : a' = a ∧ mid = rest := by simpa [hdecode] using hb
        exact ⟨trivial, congrArg (· :: mid) ((hcode b a').mp hdecode)⟩

theorem fromByte_otpType (b : UInt8) (t : OtpType) :
    OtpType.fromByte b = some t ↔ b = t.toByte := by
  cases t <;> simp only [OtpType.fromByte, OtpType.toByte] <;> grind

theorem fromByte_algorithm (b : UInt8) (a : Algorithm) :
    Algorithm.fromByte b = some a ↔ b = a.toByte := by
  cases a <;> simp only [Algorithm.fromByte, Algorithm.toByte] <;> grind

theorem buttonOf_eq (b : UInt8) (flag : Bool) : buttonOf b = some flag ↔ b = flag.toUInt8 := by
  cases flag <;> simp only [buttonOf, Bool.toUInt8] <;> grind

theorem toNat_joined (hi lo : UInt8) :
    (hi.toUInt16 <<< 8 ||| lo.toUInt16).toNat = Bytes.ofBe [hi, lo] := by
  have hhi := hi.toNat_lt
  have hlo : lo.toNat < 2 ^ 8 := lo.toNat_lt
  have hshift : (hi.toUInt16 <<< 8).toNat = 2 ^ 8 * hi.toNat := by
    rw [UInt16.toNat_shiftLeft, UInt8.toNat_toUInt16]
    calc hi.toNat <<< (8 % 16) % 2 ^ 16 = (hi.toNat * 2 ^ 8) % 2 ^ 16 := by
          rw [Nat.shiftLeft_eq]
      _ = 2 ^ 8 * hi.toNat := by omega
  have hsum : Bytes.ofBe [hi, lo] = lo.toNat + 256 * (hi.toNat + 256 * 0) := rfl
  rw [UInt16.toNat_or, hshift, UInt8.toNat_toUInt16, ← Nat.two_pow_add_eq_or_of_lt hlo, hsum]
  omega

theorem inverts_u16Be : Inverts Cursor.u16Be (fun n => Bytes.be 2 n.toNat) fun _ => True where
  reads n _ tail := by
    obtain ⟨hi, lo, hbytes⟩ := List.length_eq_two.mp (Bytes.length_be 2 n.toNat)
    have hn : n.toNat < 256 ^ 2 := n.toNat_lt
    have hjoined : hi.toUInt16 <<< 8 ||| lo.toUInt16 = n := by
      rw [← UInt16.toNat_inj, toNat_joined, ← hbytes, Bytes.ofBe_be hn]
    rw [hbytes, ← hjoined]
    rfl
  only data n rest h := by
    obtain ⟨hi, mid, hhi, h⟩ := andThen_eq_ok.mp h
    obtain ⟨lo, mid', hlo, h⟩ := andThen_eq_ok.mp h
    obtain ⟨-, rfl⟩ := inverts_u8.only _ _ _ hhi
    obtain ⟨-, rfl⟩ := inverts_u8.only _ _ _ hlo
    obtain ⟨rfl, rfl⟩ := Prod.mk.inj (Except.ok.inj h)
    refine ⟨trivial, ?_⟩
    have hback : Bytes.be 2 (Bytes.ofBe [hi, lo]) = [hi, lo] := Bytes.be_ofBe [hi, lo]
    rw [toNat_joined, hback]
    rfl

theorem toNat_ofNat_ascii : ∀ n < 128, (Char.ofNat n).toNat = n := by decide

theorem reads_ascii {s : RustStr} (hs : s.isAscii = true) :
    Reads (Cursor.ascii s.len) s.asBytes s := by
  intro tail
  have hchars : ∀ c ∈ s, c.toNat < 128 := fun c hc =>
    of_decide_eq_true (List.all_eq_true.mp hs c hc)
  have hslice : (s.asBytes.all fun b => decide (b < 0x80)) = true := by
    rw [RustStr.asBytes_ascii hchars, List.all_map, List.all_eq_true]
    intro c hc
    have hlt := hchars c hc
    simp only [Function.comp_apply, decide_eq_true_eq, UInt8.lt_iff_toNat_lt]
    rw [Nat.toUInt8, UInt8.toNat_ofNat', Nat.mod_eq_of_lt (by omega)]
    exact hlt
  refine andThen_eq_ok.mpr ⟨s.asBytes, tail, reads_bytes ParseError.truncated s.asBytes tail, ?_⟩
  rw [if_pos hslice, Utf8.fromUtf8Lossy_asBytes]

theorem ascii_only {n : Nat} {data rest : List UInt8} {s : RustStr}
    (h : Cursor.ascii n data = .ok (s, rest)) :
    s.isAscii = true ∧ s.len = n ∧ data = s.asBytes ++ rest := by
  obtain ⟨slice, mid, hbytes, htext⟩ := andThen_eq_ok.mp h
  obtain ⟨hlen, rfl⟩ := bytes_eq_ok.mp hbytes
  by_cases hslice : (slice.all fun b => decide (b < 0x80)) = true
  · have hlow : ∀ b ∈ slice, b.toNat < 128 := fun b hb =>
      UInt8.lt_iff_toNat_lt.mp (of_decide_eq_true (List.all_eq_true.mp hslice b hb))
    have hback := RustStr.asBytes_ofAscii hlow
    have htext' : Utf8.fromUtf8Lossy slice = RustStr.ofAscii slice := by
      conv_lhs => rw [← hback]
      exact Utf8.fromUtf8Lossy_asBytes _
    rw [if_pos hslice, htext'] at htext
    obtain ⟨rfl, rfl⟩ := Prod.mk.inj (Except.ok.inj htext)
    refine ⟨?_, ?_, ?_⟩
    · rw [RustStr.isAscii, RustStr.ofAscii, List.all_map, List.all_eq_true]
      intro b hb
      have hsame := toNat_ofNat_ascii b.toNat (hlow b hb)
      exact decide_eq_true (hsame.symm ▸ hlow b hb)
    · rw [RustStr.len, hback, hlen]
    · rw [hback]
  · rw [if_neg hslice] at htext
    cases htext

theorem inverts_text : Inverts Cursor.text named Short where
  reads s hs tail := by
    obtain ⟨hascii, hlen⟩ := hs
    have hbyte : s.len.toUInt8.toNat = s.len := by
      rw [Nat.toUInt8, UInt8.toNat_ofNat', Nat.mod_eq_of_lt (by omega)]
    refine andThen_eq_ok.mpr ⟨_, s.asBytes ++ tail, rfl, ?_⟩
    rw [hbyte]
    exact reads_ascii hascii tail
  only data s rest h := by
    obtain ⟨len, mid, hbyte, h⟩ := andThen_eq_ok.mp h
    obtain ⟨-, rfl⟩ := inverts_u8.only _ _ _ hbyte
    obtain ⟨hascii, hlen, rfl⟩ := ascii_only h
    have hsame : s.len = len.toNat := hlen
    have hlt : len.toNat < 256 := len.toNat_lt
    refine ⟨⟨hascii, by omega⟩, ?_⟩
    rw [named, hsame, Nat.toUInt8, UInt8.ofNat_toNat]
    rfl

/-- The zero in front of an empty text is refused, and nothing else is. -/
theorem inverts_someText (what : String) :
    Inverts (Cursor.someText what) named fun s => Short s ∧ s ≠ [] where
  reads s hs tail := by
    obtain ⟨⟨hascii, hlen⟩, hne⟩ := hs
    have hbyte : s.len.toUInt8.toNat = s.len := by
      rw [Nat.toUInt8, UInt8.toNat_ofNat', Nat.mod_eq_of_lt (by omega)]
    have hpos : 0 < s.len := Nat.lt_of_lt_of_le (List.length_pos_iff.mpr hne)
      (Utf8.length_le_len s)
    have hbyte' : s.len.toUInt8 ≠ 0 := by
      intro hzero
      rw [hzero] at hbyte
      exact absurd hbyte (Nat.ne_of_lt hpos)
    refine andThen_eq_ok.mpr ⟨_, s.asBytes ++ tail, rfl, ?_⟩
    rw [if_neg hbyte', hbyte]
    exact reads_ascii hascii tail
  only data s rest h := by
    obtain ⟨len, mid, hbyte, h⟩ := andThen_eq_ok.mp h
    by_cases hzero : len = 0
    · rw [if_pos hzero] at h
      cases h
    · rw [if_neg hzero] at h
      have htext : Cursor.text data = .ok (s, rest) := andThen_eq_ok.mpr ⟨len, mid, hbyte, h⟩
      obtain ⟨hshort, hdata⟩ := inverts_text.only _ _ _ htext
      obtain ⟨-, hlen, -⟩ := ascii_only h
      refine ⟨⟨hshort, ?_⟩, hdata⟩
      rintro rfl
      exact hzero (UInt8.toNat_inj.mp hlen.symm)

/-! ### An entry and a page -/

/-- The code, where one is shown. -/
theorem inverts_shownCode (shown : Bool) :
    Inverts (if shown then andThen Cursor.text fun code => done (some code) else done none)
      (fun code => code.elim [] named) fun code => (∀ c ∈ code, Short c) ∧ code.isSome = shown where
  reads code hcode := by
    obtain ⟨hshort, rfl⟩ := hcode
    cases code with
    | none => exact reads_done none
    | some c => exact (inverts_text.reads c (hshort c rfl)).map some
  only data code rest h := by
    cases shown with
    | false =>
        obtain ⟨rfl, rfl⟩ := Prod.mk.inj (Except.ok.inj h)
        exact ⟨⟨fun c hc => absurd hc (Option.not_mem_none c), rfl⟩, rfl⟩
    | true =>
        rw [if_pos rfl] at h
        obtain ⟨c, mid, htext, h⟩ := andThen_eq_ok.mp h
        obtain ⟨rfl, rfl⟩ := Prod.mk.inj (Except.ok.inj h)
        obtain ⟨hshort, rfl⟩ := inverts_text.only _ _ _ htext
        exact ⟨⟨fun c' hc' => Option.some.inj hc' ▸ hshort, rfl⟩, rfl⟩

/-- **An entry is read as it was written**, and nothing else is read as an entry. -/
theorem inverts_parseOneEntry : Inverts (parseOneEntry false) Entry.encode Entry.Listed where
  reads e he :=
    (inverts_coded _ fromByte_otpType).reads _ trivial |>.andThen <|
    (inverts_coded _ fromByte_algorithm).reads _ trivial |>.andThen <|
    inverts_u16Be.reads _ trivial |>.andThen <|
    inverts_u8.reads _ trivial |>.andThen <|
    (inverts_coded _ buttonOf_eq).reads _ trivial |>.andThen <|
    inverts_text.reads _ he.appName |>.andThen <|
    (inverts_someText _).reads _ ⟨he.accountName, he.account⟩ |>.andThen <|
    ((inverts_shownCode _).reads e.code ⟨he.code, he.shown⟩).map _
  only data e rest h := by
    obtain ⟨otpType, d1, hotpType, h⟩ := andThen_eq_ok.mp h
    obtain ⟨algorithm, d2, halgorithm, h⟩ := andThen_eq_ok.mp h
    obtain ⟨timestep, d3, htimestep, h⟩ := andThen_eq_ok.mp h
    obtain ⟨codeLength, d4, hcodeLength, h⟩ := andThen_eq_ok.mp h
    obtain ⟨buttonRequired, d5, hbutton, h⟩ := andThen_eq_ok.mp h
    obtain ⟨appName, d6, happ, h⟩ := andThen_eq_ok.mp h
    obtain ⟨accountName, d7, haccount, h⟩ := andThen_eq_ok.mp h
    obtain ⟨code, d8, hcode, h⟩ := andThen_eq_ok.mp h
    obtain ⟨rfl, rfl⟩ := Prod.mk.inj (Except.ok.inj h)
    obtain ⟨-, rfl⟩ := (inverts_coded _ fromByte_otpType).only _ _ _ hotpType
    obtain ⟨-, rfl⟩ := (inverts_coded _ fromByte_algorithm).only _ _ _ halgorithm
    obtain ⟨-, rfl⟩ := inverts_u16Be.only _ _ _ htimestep
    obtain ⟨-, rfl⟩ := inverts_u8.only _ _ _ hcodeLength
    obtain ⟨-, rfl⟩ := (inverts_coded _ buttonOf_eq).only _ _ _ hbutton
    obtain ⟨happName, rfl⟩ := inverts_text.only _ _ _ happ
    obtain ⟨⟨haccountName, hnamed⟩, rfl⟩ := (inverts_someText _).only _ _ _ haccount
    obtain ⟨⟨hshort, hshown⟩, rfl⟩ := (inverts_shownCode _).only _ _ _ hcode
    refine ⟨⟨⟨happName, haccountName, hshort, hshown⟩, hnamed⟩, ?_⟩
    simp only [Entry.encode, List.append_assoc]

theorem flag_of_byte {b : UInt8} (hb : b &&& 0x80 = 0) (more : Bool) :
    (if more then b ||| 0x80 else b) &&& 0x7F = b ∧
      decide ((if more then b ||| 0x80 else b) &&& 0x80 ≠ 0) = more := by
  have htable : ∀ n < 128, ∀ more : Bool,
      (if more then (UInt8.ofNat n) ||| 0x80 else UInt8.ofNat n) &&& 0x7F = UInt8.ofNat n ∧
        decide ((if more then (UInt8.ofNat n) ||| 0x80 else UInt8.ofNat n) &&& 0x80 ≠ 0) =
          more := by
    decide
  have hlow : ∀ n < 256, UInt8.ofNat n &&& 0x80 = 0 → n < 128 := by decide +kernel
  have hsame : UInt8.ofNat b.toNat = b := UInt8.ofNat_toNat
  have hlt := hlow b.toNat b.toNat_lt (hsame.symm ▸ hb)
  exact hsame ▸ htable b.toNat hlt more

/-- A byte is its flag and the rest of it. -/
theorem byte_of_flag (b : UInt8) :
    b &&& 0x7F &&& 0x80 = 0 ∧
      (if decide (b &&& 0x80 ≠ 0) then b &&& 0x7F ||| 0x80 else b &&& 0x7F) = b := by
  have htable : ∀ n < 256, UInt8.ofNat n &&& 0x7F &&& 0x80 = 0 ∧
      (if decide (UInt8.ofNat n &&& 0x80 ≠ 0) then UInt8.ofNat n &&& 0x7F ||| 0x80
        else UInt8.ofNat n &&& 0x7F) = UInt8.ofNat n := by decide +kernel
  have hsame : UInt8.ofNat b.toNat = b := UInt8.ofNat_toNat
  exact hsame ▸ htable b.toNat b.toNat_lt

theorem Entry.encode_ne_nil (e : Entry) : e.encode ≠ [] := List.cons_ne_nil _ _

/-- A page that has an entry, each as a key can list it. -/
structure EnumPage.Listed (page : EnumPage) : Prop where
  entries : ∀ e ∈ page.entries, e.Listed
  some : page.entries ≠ []

/-- **A page is read exactly where it was written**: what is read is a page that a key can list,
and written again it is the same bytes. -/
theorem parseEnumPage_eq_ok_iff {data : List UInt8} {page : EnumPage} :
    parseEnumPage data = .ok page ↔ page.Listed ∧ data = page.encode := by
  constructor
  · intro h
    cases data with
    | nil => cases h
    | cons b rest =>
        obtain ⟨entries, hread, hpage⟩ := Checks.bind_eq_ok.mp h
        obtain rfl := Except.ok.inj hpage
        have hfuel : ((b &&& 0x7F) :: rest).length ≤ (b :: rest).length := Nat.le_refl _
        obtain ⟨hlisted, hstream⟩ :=
          (inverts_parseOneEntry.toEnd_eq_ok_iff Entry.encode_ne_nil hfuel).mp hread
        refine ⟨⟨hlisted, ?_⟩, ?_⟩
        · rintro rfl
          exact List.cons_ne_nil _ _ hstream
        · rw [EnumPage.encode, ← hstream, flagged, (byte_of_flag b).2]
  · rintro ⟨⟨hlisted, hsome⟩, rfl⟩
    obtain ⟨entries, more⟩ := page
    obtain ⟨e, es, rfl⟩ := List.exists_cons_of_ne_nil hsome
    have hstream : (e :: es).flatMap Entry.encode =
        e.otpType.toByte :: (e.encode.tail ++ es.flatMap Entry.encode) := rfl
    have htype : e.otpType.toByte &&& 0x80 = 0 := by cases e.otpType <;> rfl
    obtain ⟨hback, hflag⟩ := flag_of_byte htype more
    rw [EnumPage.encode, hstream, flagged, parseEnumPage, hback, hflag]
    have hread : toEnd ParseError.truncated (parseOneEntry false)
        ((if more then e.otpType.toByte ||| 0x80 else e.otpType.toByte) ::
          (e.encode.tail ++ es.flatMap Entry.encode)).length
        (e.otpType.toByte :: (e.encode.tail ++ es.flatMap Entry.encode)) = .ok (e :: es) :=
      (inverts_parseOneEntry.toEnd_eq_ok_iff Entry.encode_ne_nil (Nat.le_refl _)).mpr
        ⟨hlisted, hstream.symm⟩
    rw [hread]
    rfl

end Keyroost.Token2Otp
