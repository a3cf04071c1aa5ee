import Keyroost.Library.BlockModes
import Keyroost.Library.Padding
import Keyroost.Proto.Sha
import Keyroost.Token2Otp.EntryPages
import Keyroost.Token2Otp.PinEvents

/-!
# Listing the entries of a key

The host asks for a first page and, as long as the key says that there are more, for the next one.
Pages come in the clear or, once a PIN was verified, encrypted and authenticated. Modelled from
`keyroost-transport/src/token2otp.rs` and `keyroost-token2otp/src/lib.rs`.

The loop is a dialogue with the key and recurses on the pages that may still come. `Settles` follows
the conversation with a key that lists given entries in pages of its own choosing, and
`settles_enumerate` says that all of them arrive, in order. Against a key of any kind the caps on
pages and entries are all there is (`enumerate_bounded`). `listing_loses_nothing` states both;
`nameless_account_is_lost` has an entry that no page may hold.
-/

namespace Keyroost.Token2Otp

open Dialogue

/-! ### Requests -/

def ENUM_CODES : List UInt8 := [0x80, 0xC5, 0x05, 0x00]

def ENUM_CODES_CONTINUE : List UInt8 := [0x80, 0xC5, 0x05, 0x01]

def SUB_READ_ALL : UInt8 := 0x03

def serializeEnumAll (timestamp : UInt64) : List UInt8 :=
  SUB_READ_ALL :: Bytes.be 8 timestamp.toNat

/-- A header and a body with its length: one byte, or three where one is too few. -/
def buildApdu (header data : List UInt8) : List UInt8 :=
  if data = [] then header
  else if data.length ≤ 0xFF then header ++ [data.length.toUInt8] ++ data
  else
    header ++ ([0x00, (data.length >>> 8).toUInt8, (data.length &&& 0xFF).toUInt8] : List UInt8) ++
      data

def MAX_ENUM_PAGES : Nat := 256

def MAX_ENUM_ENTRIES : Nat := 1024

/-! ### Pages under the session keys -/

/-- What pages are sealed with: AES-256 on one block, and HMAC-SHA-256. A block that was encrypted
is decrypted to what it was. -/
structure PageCrypto where
  aesEncrypt : List UInt8 → List UInt8 → List UInt8
  aesDecrypt : List UInt8 → List UInt8 → List UInt8
  hmac256 : List UInt8 → List UInt8 → List UInt8
  length_aesEncrypt : ∀ key block, block.length = 16 → (aesEncrypt key block).length = 16
  aesDecrypt_aesEncrypt : ∀ key block, block.length = 16 →
    aesDecrypt key (aesEncrypt key block) = block
  length_hmac256 : ∀ key data, (hmac256 key data).length = 32

structure PageKeys where
  enc : List UInt8
  mac : List UInt8
deriving DecidableEq, Repr

section Sealed

variable (c : PageCrypto)

def sessionEncrypt (key iv cleartext : List UInt8) : List UInt8 :=
  let padded := Pkcs7.pad 16 cleartext
  Cbc.encryptFrom (c.aesEncrypt key) 16 (padded.length / 16) iv padded

def sessionDecrypt (key iv ciphertext : List UInt8) : Except EncryptError (List UInt8) :=
  if ciphertext = [] ∨ ciphertext.length % 16 ≠ 0 then .error .badCiphertext
  else
    match Pkcs7.unpad 16
      (Cbc.decryptFrom (c.aesDecrypt key) 16 (ciphertext.length / 16) iv ciphertext) with
    | some plain => .ok plain
    | none => .error .badCiphertext

def sessionAuthTag (macKey data : List UInt8) : List UInt8 := (c.hmac256 macKey data).take 16

def verifyAuthTag (macKey data tag : List UInt8) : Except EncryptError Unit :=
  if tag.length ≠ 16 then .error .badAuthTag
  else
    let diff := ((sessionAuthTag c macKey data).zip tag).foldl
      (fun diff (a, b) => diff ||| (a ^^^ b)) (0 : UInt8)
    if diff = 0 then .ok () else .error .badAuthTag

variable (s : OtpSession PageKeys)

def maybeDecryptPage (data : List UInt8) : Tried (List UInt8) :=
  if s.pinVerified then
    match s.pinSession with
    | none => .error .pinSessionMissing
    | some keys =>
        if data.length < 16 + 16 + 16 then .error (.parse .truncated)
        else do
          let iv := data.take 16
          let enc := (data.take (data.length - 16)).drop 16
          let auth := data.drop (data.length - 16)
          (verifyAuthTag c keys.mac enc auth).mapError .encrypt
          (sessionDecrypt c keys.enc iv enc).mapError .encrypt
  else .ok data

def readPage (data : List UInt8) : Tried EnumPage := do
  let data ← maybeDecryptPage c s data
  (parseEnumPage data).mapError .parse

/-! ### The loop -/

abbrev EnumAnswer (_ : List UInt8) : Type := Except TransportFailure (List UInt8 × UInt16)

/-- A page that goes on from an earlier one. -/
def continuedPage (answer : Except TransportFailure (List UInt8 × UInt16)) : Tried EnumPage := do
  let (data, sw) ← answer.mapError Subtype.val
  (OtpError.check sw).mapError .applet
  readPage c s data

/-- Page after page, as long as so many more may be asked for. Both caps are errors, so a listing is
whole or none. -/
def followPages (timestamp : UInt64) :
    Nat → EnumPage → List Entry → Dialogue EnumAnswer (Tried (List Entry))
  | left, page, entries =>
      if page.morePages then
        match left with
        | 0 => .done (.error .enumerationCapExceeded)
        | left + 1 =>
            if MAX_ENUM_ENTRIES < entries.length then .done (.error .enumerationCapExceeded)
            else
              .ask (buildApdu ENUM_CODES_CONTINUE (Bytes.be 8 timestamp.toNat)) fun answer =>
                match continuedPage c s answer with
                | .error e => .done (.error e)
                | .ok page => followPages timestamp left page (entries ++ page.entries)
      else if MAX_ENUM_ENTRIES < entries.length then .done (.error .enumerationCapExceeded)
      else .done (.ok entries)

/-- Every stored entry. -/
def enumerate (timestamp : UInt64) : Dialogue EnumAnswer (Tried (List Entry)) :=
  .ask (buildApdu ENUM_CODES (serializeEnumAll timestamp)) fun answer =>
    match answer with
    | .error e => .done (.error e.val)
    | .ok (data, sw) =>
        match OtpError.check sw with
        | .error e => if e = .entryNotFound then .done (.ok []) else .done (.error (.applet e))
        | .ok () =>
            match readPage c s data with
            | .error e => .done (.error e)
            | .ok page => followPages c s timestamp (MAX_ENUM_PAGES - 1) page page.entries

end Sealed

/-! ### What was sealed is read -/

section Honest

variable {c : PageCrypto} {s : OtpSession PageKeys}

theorem sessionEncrypt_length (key : List UInt8) {iv : List UInt8} (hiv : iv.length = 16)
    (cleartext : List UInt8) :
    (sessionEncrypt c key iv cleartext).length = (Pkcs7.pad 16 cleartext).length :=
  Cbc.length_encryptFrom (c.length_aesEncrypt key) hiv
    (Nat.mul_div_cancel' (Pkcs7.dvd_length_pad (by decide) cleartext)).symm

theorem sessionDecrypt_sessionEncrypt (key : List UInt8) {iv : List UInt8} (hiv : iv.length = 16)
    (cleartext : List UInt8) :
    sessionDecrypt c key iv (sessionEncrypt c key iv cleartext) = .ok cleartext := by
  have hlen := sessionEncrypt_length (c := c) key hiv cleartext
  have hdvd : 16 ∣ (Pkcs7.pad 16 cleartext).length := Pkcs7.dvd_length_pad (by decide) cleartext
  have hne : (sessionEncrypt c key iv cleartext) ≠ [] := by
    intro h
    rw [h, List.length_nil] at hlen
    exact Pkcs7.pad_ne_nil (by decide) cleartext (List.eq_nil_of_length_eq_zero hlen.symm)
  have hback := Cbc.decryptFrom_encryptFrom (c.length_aesEncrypt key)
    (c.aesDecrypt_aesEncrypt key) hiv (Nat.mul_div_cancel' hdvd).symm
  rw [sessionDecrypt, if_neg, hlen, sessionEncrypt, hback,
    Pkcs7.unpad_pad (by decide) (by decide)]
  rintro (h | h)
  · exact hne h
  · rw [hlen] at h
    exact h (Nat.mod_eq_zero_of_dvd hdvd)

theorem verifyAuthTag_self (macKey data : List UInt8) :
    verifyAuthTag c macKey data (sessionAuthTag c macKey data) = .ok () := by
  have hlen : (sessionAuthTag c macKey data).length = 16 := by
    rw [sessionAuthTag, List.length_take, c.length_hmac256]
    rfl
  have hfold : ∀ tag : List UInt8, (tag.zip tag).foldl
      (fun diff (a, b) => diff ||| (a ^^^ b)) (0 : UInt8) = 0 := by
    intro tag
    induction tag with
    | nil => rfl
    | cons b tag ih =>
        rw [List.zip_cons_cons, List.foldl_cons]
        simpa using ih
  rw [verifyAuthTag, if_neg (not_not.mpr hlen), hfold, if_pos rfl]

/-- How a key sends a page to a session: in the clear, or under the keys of a verified PIN. The
vector is any of its length, and the tag is over the ciphertext. -/
inductive Sends (c : PageCrypto) (s : OtpSession PageKeys) (page : List UInt8) : List UInt8 → Prop
  | clear : s.pinVerified = false → Sends c s page page
  | locked {keys : PageKeys} {iv : List UInt8} : s.pinVerified = true → s.pinSession = some keys →
      iv.length = 16 →
      Sends c s page (iv ++ sessionEncrypt c keys.enc iv page ++
        sessionAuthTag c keys.mac (sessionEncrypt c keys.enc iv page))

theorem maybeDecryptPage_of_sends {page data : List UInt8} (h : Sends c s page data) :
    maybeDecryptPage c s data = .ok page := by
  cases h with
  | clear hclear => rw [maybeDecryptPage, hclear]; rfl
  | @locked keys iv hverified hkeys hiv =>
      set enc := sessionEncrypt c keys.enc iv page with henc
      have htag : (sessionAuthTag c keys.mac enc).length = 16 := by
        rw [sessionAuthTag, List.length_take, c.length_hmac256]
        rfl
      have henclen : 16 ≤ enc.length := by
        have hlen := sessionEncrypt_length (c := c) keys.enc hiv page
        obtain ⟨k, hk⟩ : 16 ∣ (Pkcs7.pad 16 page).length := Pkcs7.dvd_length_pad (by decide) page
        have hpos : 0 < (Pkcs7.pad 16 page).length :=
          List.length_pos_iff.mpr (Pkcs7.pad_ne_nil (by decide) page)
        rw [henc, hlen]
        omega
      have hlen : (iv ++ enc ++ sessionAuthTag c keys.mac enc).length = 16 + enc.length + 16 := by
        rw [List.length_append, List.length_append, hiv, htag]
      have hcut : (iv ++ enc ++ sessionAuthTag c keys.mac enc).length - 16 =
          (iv ++ enc).length := by
        rw [hlen, List.length_append, hiv]
        omega
      rw [maybeDecryptPage, if_pos hverified, hkeys]
      simp only []
      rw [if_neg (by rw [hlen]; omega), hcut, List.take_left, List.drop_left,
        List.drop_left' hiv, List.append_assoc, List.take_left' hiv, verifyAuthTag_self,
        henc, sessionDecrypt_sessionEncrypt keys.enc hiv page]
      rfl

end Honest

/-! ### A key that lists its entries -/

/-- Every conversation ends with the result, and there is one. -/
def Settles {R σ : Type} (D : Device EnumAnswer σ) (p : Dialogue EnumAnswer R) (start : σ) (v : R) :
    Prop :=
  p.Always D (fun r _ => r = v) start ∧ ∃ log t, Runs D start p log v t

section Settles

variable {R σ : Type} {D : Device EnumAnswer σ} {start : σ} {v : R}

theorem settles_done : Settles D (.done v) start v := ⟨rfl, [], start, .done⟩

theorem settles_ask {q : List UInt8} {next : EnumAnswer q → Dialogue EnumAnswer R}
    (hsome : ∃ a t, D start q a t) (hall : ∀ a t, D start q a t → Settles D (next a) t v) :
    Settles D (.ask q next) start v := by
  refine ⟨fun a t hstep => (hall a t hstep).1, ?_⟩
  obtain ⟨a, t, hstep⟩ := hsome
  obtain ⟨-, log, u, hrun⟩ := hall a t hstep
  exact ⟨⟨q, a⟩ :: log, u, .ask hstep hrun⟩

end Settles

section Key

variable (c : PageCrypto) (s : OtpSession PageKeys) (timestamp : UInt64)

/-- A key with its entries split into pages. It starts over at the first request and goes on at
every other one; its state is the pages that are left. -/
inductive KeyAnswers (pages : List (List Entry)) : Device EnumAnswer (List (List Entry))
  | none {left : List (List Entry)} {q : List UInt8} {data : List UInt8} {sw : UInt16} :
      q = buildApdu ENUM_CODES (serializeEnumAll timestamp) → pages = [] →
      sw = Sw.ENTRY_NOT_FOUND ∨ sw = Sw.ENTRY_NOT_FOUND_ALT →
      KeyAnswers pages left q (.ok (data, sw)) []
  | first {left rest : List (List Entry)} {page : List Entry} {q data : List UInt8} :
      q = buildApdu ENUM_CODES (serializeEnumAll timestamp) → pages = page :: rest →
      Sends c s (EnumPage.encode ⟨page, !rest.isEmpty⟩) data →
      KeyAnswers pages left q (.ok (data, Sw.OK)) rest
  | next {rest : List (List Entry)} {page : List Entry} {q data : List UInt8} :
      q = buildApdu ENUM_CODES_CONTINUE (Bytes.be 8 timestamp.toNat) →
      Sends c s (EnumPage.encode ⟨page, !rest.isEmpty⟩) data →
      KeyAnswers pages (page :: rest) q (.ok (data, Sw.OK)) rest

end Key

section Listing

variable {c : PageCrypto} {s : OtpSession PageKeys} {timestamp : UInt64}
  {pages : List (List Entry)}

theorem take_buildApdu {header data : List UInt8} (h : header.length = 4) :
    (buildApdu header data).take 4 = header := by
  rw [buildApdu]
  split_ifs
  · exact List.take_of_length_le h.le
  · rw [List.append_assoc, List.take_left' h]
  · rw [List.append_assoc, List.take_left' h]

/-- A request to go on is no first request. -/
theorem first_ne_continue (body body' : List UInt8) :
    buildApdu ENUM_CODES body ≠ buildApdu ENUM_CODES_CONTINUE body' := by
  intro h
  have htake := congrArg (List.take 4) h
  rw [take_buildApdu rfl, take_buildApdu rfl] at htake
  exact absurd htake (by decide)

theorem exists_sends (hkeyed : s.Keyed) (page : List UInt8) : ∃ data, Sends c s page data := by
  cases hverified : s.pinVerified with
  | false => exact ⟨page, .clear hverified⟩
  | true =>
      obtain ⟨keys, hkeys⟩ := Option.isSome_iff_exists.mp (hkeyed hverified)
      exact ⟨_, .locked hverified hkeys (List.length_replicate (n := 16) (a := 0))⟩

theorem readPage_of_sends {page : EnumPage} (hpage : page.Listed) {data : List UInt8}
    (h : Sends c s page.encode data) : readPage c s data = .ok page := by
  have hparse := parseEnumPage_eq_ok_iff.mpr ⟨hpage, rfl⟩
  rw [readPage, maybeDecryptPage_of_sends h]
  simp only [bind, Except.bind, hparse]
  rfl

/-- Pages that a key can list. -/
def Paged (pages : List (List Entry)) : Prop := ∀ page ∈ pages, page ≠ [] ∧ ∀ e ∈ page, e.Listed

/-- From any page on, the rest of the pages is what is read. -/
theorem settles_followPages (hkeyed : s.Keyed) {rest : List (List Entry)} (hrest : Paged rest)
    {left : Nat} {page : EnumPage} {entries : List Entry} (hleft : rest.length ≤ left)
    (hcap : entries.length + rest.flatten.length ≤ MAX_ENUM_ENTRIES)
    (hmore : page.morePages = !rest.isEmpty) :
    Settles (KeyAnswers c s timestamp pages) (followPages c s timestamp left page entries) rest
      (.ok (entries ++ rest.flatten)) := by
  induction rest generalizing left page entries with
  | nil =>
      have hlast : page.morePages = false := hmore
      rw [List.flatten_nil, List.length_nil, Nat.add_zero] at hcap
      unfold followPages
      rw [hlast, if_neg Bool.false_ne_true, if_neg (Nat.not_lt.mpr hcap), List.flatten_nil,
        List.append_nil]
      exact settles_done
  | cons p rest ih =>
      have hgoes : page.morePages = true := hmore
      obtain ⟨left, rfl⟩ := Nat.exists_eq_add_of_le' (Nat.le_trans (Nat.succ_pos _) hleft)
      obtain ⟨⟨hsome, hlisted⟩, hrest⟩ := List.forall_mem_cons.mp hrest
      rw [List.flatten_cons, List.length_append] at hcap
      unfold followPages
      rw [if_pos hgoes]
      simp only []
      rw [if_neg (by omega)]
      refine settles_ask ?_ fun a t hstep => ?_
      · obtain ⟨data, hdata⟩ := exists_sends (c := c) hkeyed (EnumPage.encode ⟨p, !rest.isEmpty⟩)
        exact ⟨_, _, .next rfl hdata⟩
      · cases hstep with
        | none hfirst => exact absurd hfirst.symm (first_ne_continue _ _)
        | first hfirst => exact absurd hfirst.symm (first_ne_continue _ _)
        | next _ hdata =>
            have hread : continuedPage c s (.ok (_, Sw.OK)) = .ok ⟨p, !rest.isEmpty⟩ :=
              readPage_of_sends ⟨hlisted, hsome⟩ hdata
            rw [hread, List.flatten_cons, ← List.append_assoc]
            refine ih hrest (Nat.le_of_succ_le_succ hleft) ?_ rfl
            simpa only [List.length_append, Nat.add_assoc] using hcap

/-- **Every entry is listed**, in order, however the key splits its entries into pages. -/
theorem settles_enumerate (hkeyed : s.Keyed) (hpages : Paged pages)
    (hcount : pages.length ≤ MAX_ENUM_PAGES)
    (hcap : pages.flatten.length ≤ MAX_ENUM_ENTRIES) (left : List (List Entry)) :
    Settles (KeyAnswers c s timestamp pages) (enumerate c s timestamp) left
      (.ok pages.flatten) := by
  refine settles_ask ?_ fun a rest hstep => ?_
  · cases pages with
    | nil => exact ⟨.ok ([], Sw.ENTRY_NOT_FOUND), _, .none rfl rfl (Or.inl rfl)⟩
    | cons p rest =>
        obtain ⟨data, hdata⟩ := exists_sends (c := c) hkeyed (EnumPage.encode ⟨p, !rest.isEmpty⟩)
        exact ⟨_, _, .first rfl rfl hdata⟩
  · cases hstep with
    | none _ hnone hsw =>
        subst hnone
        rcases hsw with rfl | rfl <;> exact settles_done
    | @first _ _ p _ data _ hsplit hdata =>
        subst hsplit
        obtain ⟨⟨hsome, hlisted⟩, hrest⟩ := List.forall_mem_cons.mp hpages
        have hread : readPage c s data = .ok ⟨p, !rest.isEmpty⟩ :=
          readPage_of_sends ⟨hlisted, hsome⟩ hdata
        have hok : OtpError.check Sw.OK = .ok () := rfl
        simp only [hok, hread]
        rw [List.flatten_cons, List.length_append] at hcap
        rw [List.length_cons] at hcount
        exact settles_followPages hkeyed hrest (by omega) hcap rfl
    | next hnext => exact absurd hnext (first_ne_continue _ _)

end Listing

/-! ### Any key -/

section AnyKey

variable {c : PageCrypto} {s : OtpSession PageKeys} {timestamp : UInt64} {σ : Type}
  {D : Device EnumAnswer σ} {start last : σ} {log : List (Asked EnumAnswer)}
  {r : Tried (List Entry)}

/-- A result that is within the host's cap, if it is one. -/
def Capped (r : Tried (List Entry)) : Prop := ∀ es, r = .ok es → es.length ≤ MAX_ENUM_ENTRIES

theorem capped_error (e : OtpTransportError) : Capped (.error e) := fun _ h => nomatch h

theorem followPages_bounded {left : Nat} {page : EnumPage} {entries : List Entry}
    (h : Runs D start (followPages c s timestamp left page entries) log r last) :
    log.length ≤ left ∧ Capped r := by
  induction left generalizing page entries start log with
  | zero =>
      unfold followPages at h
      dsimp only at h
      split_ifs at h with hmore hcap
      · obtain ⟨rfl, rfl, -⟩ := runs_done.mp h
        exact ⟨Nat.le_refl 0, capped_error _⟩
      · obtain ⟨rfl, rfl, -⟩ := runs_done.mp h
        exact ⟨Nat.le_refl 0, capped_error _⟩
      · obtain ⟨rfl, rfl, -⟩ := runs_done.mp h
        exact ⟨Nat.le_refl 0, fun es hes => Except.ok.inj hes ▸ Nat.le_of_not_lt hcap⟩
  | succ left ih =>
      unfold followPages at h
      dsimp only at h
      split_ifs at h with hmore hstuffed hcap
      · obtain ⟨rfl, rfl, -⟩ := runs_done.mp h
        exact ⟨Nat.zero_le _, capped_error _⟩
      · obtain ⟨a, rest, t, rfl, -, hnext⟩ := runs_ask.mp h
        cases hpage : continuedPage c s a with
        | error e =>
            rw [hpage] at hnext
            obtain ⟨rfl, rfl, -⟩ := runs_done.mp hnext
            exact ⟨Nat.succ_le_succ (Nat.zero_le left), capped_error _⟩
        | ok page =>
            rw [hpage] at hnext
            obtain ⟨hcount, hr⟩ := ih hnext
            exact ⟨Nat.succ_le_succ hcount, hr⟩
      · obtain ⟨rfl, rfl, -⟩ := runs_done.mp h
        exact ⟨Nat.zero_le _, capped_error _⟩
      · obtain ⟨rfl, rfl, -⟩ := runs_done.mp h
        exact ⟨Nat.zero_le _, fun es hes => Except.ok.inj hes ▸ Nat.le_of_not_lt hcap⟩

/-- Whatever the key answers, requests and entries stay within the caps. -/
theorem enumerate_bounded (h : Runs D start (enumerate c s timestamp) log r last) :
    log.length ≤ MAX_ENUM_PAGES ∧ Capped r := by
  obtain ⟨a, rest, t, rfl, -, hnext⟩ := runs_ask.mp h
  have hone : ∀ {rest : List (Asked EnumAnswer)}, rest = [] →
      (⟨_, a⟩ :: rest : List (Asked EnumAnswer)).length ≤ MAX_ENUM_PAGES := by
    rintro _ rfl
    exact Nat.le_of_ble_eq_true rfl
  rcases a with e | ⟨data, sw⟩
  · obtain ⟨hrest, rfl, -⟩ := runs_done.mp hnext
    exact ⟨hone hrest, capped_error _⟩
  cases hsw : OtpError.check sw with
  | error e =>
      simp only [hsw] at hnext
      split_ifs at hnext with hempty
      · obtain ⟨hrest, rfl, -⟩ := runs_done.mp hnext
        exact ⟨hone hrest, fun es hes => Except.ok.inj hes ▸ Nat.zero_le _⟩
      · obtain ⟨hrest, rfl, -⟩ := runs_done.mp hnext
        exact ⟨hone hrest, capped_error _⟩
  | ok =>
      cases hpage : readPage c s data with
      | error e =>
          simp only [hsw, hpage] at hnext
          obtain ⟨hrest, rfl, -⟩ := runs_done.mp hnext
          exact ⟨hone hrest, capped_error _⟩
      | ok page =>
          simp only [hsw, hpage] at hnext
          obtain ⟨hcount, hr⟩ := followPages_bounded hnext
          exact ⟨Nat.succ_le_succ hcount, hr⟩

end AnyKey

/-! ### The listing as a whole -/

/-- Listing a key loses nothing, whatever entries of some kind it holds. -/
def LosesNothing (Kind : Entry → Prop) : Prop :=
  ∀ (c : PageCrypto) (s : OtpSession PageKeys) (timestamp : UInt64) (pages : List (List Entry)),
    s.Keyed → (∀ page ∈ pages, page ≠ [] ∧ ∀ e ∈ page, Kind e) →
    pages.length ≤ MAX_ENUM_PAGES → pages.flatten.length ≤ MAX_ENUM_ENTRIES →
    ∀ left, Settles (KeyAnswers c s timestamp pages) (enumerate c s timestamp) left
      (.ok pages.flatten)

/-- **Listing a key loses nothing** of entries whose accounts have names, a page is accepted only
where it is what would be written, and no key makes the host ask or return more than its caps. The
first part is for every way to split entries into pages, in the clear or under the session's keys;
the last is for devices of any kind. -/
theorem listing_loses_nothing :
    LosesNothing Entry.Listed ∧
    (∀ data page, parseEnumPage data = .ok page → page.encode = data) ∧
    ∀ (c : PageCrypto) (s : OtpSession PageKeys) (timestamp : UInt64) (σ : Type)
      (D : Device EnumAnswer σ) (start last : σ) (log : List (Asked EnumAnswer))
      (r : Tried (List Entry)), Runs D start (enumerate c s timestamp) log r last →
        log.length ≤ MAX_ENUM_PAGES ∧ Capped r :=
  ⟨fun _ _ _ _ hkeyed hpages hcount hcap left =>
      settles_enumerate hkeyed hpages hcount hcap left,
    fun _ _ hparse => (parseEnumPage_eq_ok_iff.mp hparse).2.symm,
    fun _ _ _ _ _ _ _ _ _ hrun => enumerate_bounded hrun⟩

/-! ### A locked listing -/

/-- The keys of the session: the bytes `1` to `32`, and `33` to `64`. -/
def lockedKeys : PageKeys :=
  ⟨(List.range' 1 32).map Nat.toUInt8, (List.range' 33 32).map Nat.toUInt8⟩

/-- The blocks of two pages, each beside what AES-256 makes of it. -/
def lockedBlocks : List (List (List UInt8)) :=
  [[[0x81, 0xc0, 0x02, 0x1d, 0x02, 0x05, 0x02, 0x6a, 0x69, 0x60, 0x66, 0x0e, 0x6d, 0x61, 0x67,
        0x6c],
      [0xa4, 0x67, 0xcb, 0x38, 0xb3, 0x27, 0xe7, 0x0e, 0x06, 0x62, 0xe0, 0x4a, 0x6f, 0xfa, 0x4f,
        0x5b]],
    [[0xc1, 0x61, 0xff, 0x01, 0x81, 0x17, 0xd4, 0x37, 0x0e, 0x6a, 0xe8, 0x42, 0x67, 0xf2, 0x47,
        0x53],
      [0xac, 0x9d, 0x33, 0xfd, 0x93, 0x14, 0xb8, 0xcc, 0x11, 0x98, 0x34, 0x6f, 0x56, 0x38, 0x53,
        0x93]],
    [[0x10, 0xd3, 0x12, 0x13, 0x1c, 0x14, 0x15, 0x64, 0x6b, 0x71, 0x19, 0x79, 0x73, 0x7f, 0x1c,
        0x1d],
      [0xc5, 0x3f, 0x48, 0x43, 0x90, 0x24, 0xdc, 0xbe, 0x8f, 0xb0, 0xa1, 0xcd, 0xf6, 0x60, 0xd1,
        0x85]]]

theorem length_lockedPerm (block : List UInt8) (h : block.length = 16) :
    (Cycles.perm lockedBlocks block).length = 16 :=
  @Cycles.perm_keeps _ _ (fun b : List UInt8 => b.length = 16) lockedBlocks (by decide) _ h

def lockedCrypto : PageCrypto where
  aesEncrypt _ block := Cycles.perm lockedBlocks block
  aesDecrypt _ block := (Cycles.perm lockedBlocks).symm block
  hmac256 := Proto.Sha256.hmac
  length_aesEncrypt _ := length_lockedPerm
  aesDecrypt_aesEncrypt _ _ _ := Equiv.symm_apply_apply _ _
  length_hmac256 := Proto.Sha256.length_hmac

/-- A PIN was verified. -/
def lockedSession : OtpSession PageKeys := ⟨some lockedKeys, true, true, some true, none⟩

def shownEntry : Entry :=
  ⟨.totp, .sha1, 30, 6, false, ['m', 'a', 'i', 'l'], ['a', 'l', 'i', 'c', 'e'],
    some ['4', '9', '2', '0', '3', '9']⟩

/-- A code that is shown only when the button is pressed. -/
def buttonEntry : Entry := ⟨.hotp, .sha256, 0, 8, true, ['s', 's', 'h'], ['b', 'o', 'b'], none⟩

theorem shownEntry_listed : shownEntry.Listed where
  appName := ⟨rfl, by decide⟩
  accountName := ⟨rfl, by decide⟩
  code := by
    intro c hc
    obtain rfl := Option.mem_some_iff.mp hc
    exact ⟨rfl, by decide⟩
  shown := rfl
  account := List.cons_ne_nil _ _

theorem buttonEntry_listed : buttonEntry.Listed where
  appName := ⟨rfl, by decide⟩
  accountName := ⟨rfl, by decide⟩
  code c hc := absurd hc (Option.not_mem_none c)
  shown := rfl
  account := List.cons_ne_nil _ _

def lockedVector : List UInt8 := (List.range 16).map Nat.toUInt8

def lockedCipher : List UInt8 :=
  [0xa4, 0x67, 0xcb, 0x38, 0xb3, 0x27, 0xe7, 0x0e, 0x06, 0x62, 0xe0, 0x4a, 0x6f, 0xfa, 0x4f, 0x5b,
    0xac, 0x9d, 0x33, 0xfd, 0x93, 0x14, 0xb8, 0xcc, 0x11, 0x98, 0x34, 0x6f, 0x56, 0x38, 0x53, 0x93]

/-- The first page as the key sends it: a vector, the cipher and the tag. -/
def lockedPage : List UInt8 :=
  lockedVector ++ lockedCipher ++ sessionAuthTag lockedCrypto lockedKeys.mac lockedCipher

theorem lockedPage_sent :
    Sends lockedCrypto lockedSession (EnumPage.encode ⟨[shownEntry], true⟩) lockedPage := by
  have hcipher : lockedCipher = sessionEncrypt lockedCrypto lockedKeys.enc lockedVector
      (EnumPage.encode ⟨[shownEntry], true⟩) := by decide
  rw [lockedPage, hcipher]
  exact .locked rfl rfl rfl

/-- The key sends the page above first, and the two entries of its two pages are listed. -/
theorem listing_loses_nothing_locked :
    KeyAnswers lockedCrypto lockedSession 0 [[shownEntry], [buttonEntry]] []
      (buildApdu ENUM_CODES (serializeEnumAll 0)) (.ok (lockedPage, Sw.OK)) [[buttonEntry]] ∧
    Settles (KeyAnswers lockedCrypto lockedSession 0 [[shownEntry], [buttonEntry]])
      (enumerate lockedCrypto lockedSession 0) [] (.ok [shownEntry, buttonEntry]) := by
  refine ⟨.first rfl rfl lockedPage_sent, listing_loses_nothing.1 lockedCrypto lockedSession 0
    [[shownEntry], [buttonEntry]] (fun _ => rfl) ?_ (by decide) (by decide) []⟩
  rw [List.forall_mem_cons, List.forall_mem_singleton, List.forall_mem_singleton,
    List.forall_mem_singleton]
  exact ⟨⟨List.cons_ne_nil _ _, shownEntry_listed⟩, List.cons_ne_nil _ _, buttonEntry_listed⟩

/-! ### An account without a name -/

/-- An entry of an account without a name. -/
def namelessEntry : Entry := ⟨.hotp, .sha1, 0, 6, false, [], [], none⟩

/-- An account without a name is refused, so a key that holds one is not listed. -/
theorem nameless_account_is_lost : ¬ LosesNothing Entry.Fits := by
  intro h
  have hfits : ∀ page ∈ [[namelessEntry]], page ≠ [] ∧ ∀ e ∈ page, e.Fits := by
    intro page hpage
    obtain rfl := List.mem_singleton.mp hpage
    refine ⟨List.cons_ne_nil _ _, fun e he => ?_⟩
    obtain rfl := List.mem_singleton.mp he
    exact ⟨⟨rfl, by decide⟩, ⟨rfl, by decide⟩, fun c hc => absurd hc (Option.not_mem_none c), rfl⟩
  have hkeyed : OtpSession.Keyed (⟨none, false, false, none, none⟩ : OtpSession PageKeys) :=
    fun hverified => Bool.noConfusion hverified
  have hlisted := (h lockedCrypto ⟨none, false, false, none, none⟩ 0 [[namelessEntry]] hkeyed hfits
    (by decide) (by decide) []).1
  have hend := hlisted (.ok (EnumPage.encode ⟨[namelessEntry], false⟩, Sw.OK)) []
    (.first rfl rfl (.clear rfl))
  have hread : readPage lockedCrypto ⟨none, false, false, none, none⟩
      (EnumPage.encode ⟨[namelessEntry], false⟩) =
        .error (.parse (.malformed "account_name length is zero")) := by decide
  have hok : OtpError.check Sw.OK = .ok () := rfl
  simp only [hok, hread] at hend
  have herror : (.error (.parse (.malformed "account_name length is zero")) : Tried (List Entry)) =
      .ok [namelessEntry] := hend
  cases herror

end Keyroost.Token2Otp
