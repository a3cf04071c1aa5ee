import Keyroost.Piv.KeyImport
import Keyroost.Piv.ManagementKey

/-!
# Cards with a management key

A card carries an administrative command out only when it has been shown the management key since
it was last reset, and gives out the copy of the key that it stores only when it has been shown the
PIN. Whatever answers are lost, the copy never runs ahead of the key; and after a change that went
through, the PIN unlocks the card, or no longer does, as was asked.

The card of this module reads commands from their bytes (`readMgmt`), so the first part shows what
it makes of each command that the session of `ManagementKey` builds. `SameKey` and `SameCopy` are
what a step may leave alone; each operation of the session has one lemma in these terms, from the
single exchange up to `ensures_setManagementKeyPinProtected`. The second half follows a later
session that is given the PIN. `pin_unlocks_as_was_asked` joins the two, with the conditions under
which the second is stated among its parts.
-/

namespace Keyroost.Piv

open Transport Proto Session

/-! ### What a card reads -/

inductive MgmtCommand where
  | requestWitness (algId : UInt8)
  | mutual (algId : UInt8) (witness challenge : List UInt8)
  | verify (pin : List UInt8)
  | getData (tag : List UInt8)
  | putData (tag value : List UInt8)
  | setManagementKey (algId : UInt8) (key : List UInt8)
  | other
deriving DecidableEq, Repr

/-- A witness asked for has no value; one that is shown has, and comes with a challenge. -/
def readTemplate (algId : UInt8) (inner : List UInt8) : MgmtCommand :=
  match findTlv inner 0x80, findTlv inner 0x81 with
  | some [], _ => .requestWitness algId
  | some witness, some challenge => .mutual algId witness challenge
  | _, _ => .other

def readSetManagementKey : List UInt8 → MgmtCommand
  | algId :: keyRef :: _ :: key =>
      if keyRef = KEY_REF_MANAGEMENT then .setManagementKey algId key else .other
  | _ => .other

def readPutData : Option (List UInt8) → Option (List UInt8) → MgmtCommand
  | some tag, some value => .putData tag value
  | _, _ => .other

def readWhole (c : Command) : MgmtCommand :=
  if c.ins = INS_GENERAL_AUTHENTICATE then
    if c.p2 = KEY_REF_MANAGEMENT then (authTemplate c.data).elim .other (readTemplate c.p1)
    else .other
  else if c.ins = INS_VERIFY then
    if c.p2 = PIN_REF_APPLICATION then .verify c.data else .other
  else if c.ins = INS_GET_DATA then (findTlv c.data TAG_OBJECT_SELECTOR).elim .other .getData
  else if c.ins = INS_PUT_DATA then
    readPutData (findTlv c.data TAG_OBJECT_SELECTOR) (findTlv c.data TAG_DATA_TEMPLATE)
  else if c.ins = INS_SET_MANAGEMENT_KEY then readSetManagementKey c.data
  else .other

def readMgmt (apdu : List UInt8) : MgmtCommand :=
  match readApdu apdu with
  | some (false, c) => readWhole c
  | _ => .other

/-! ### The card -/

/-- `witness` is the one that the card is waiting to be shown. An object that is not stored is
empty. -/
structure MgmtCard where
  alg : MgmtAlg
  key : List UInt8
  reportsMetadata : Bool
  pin : List UInt8
  tries : Nat
  verified : Bool
  authorized : Bool
  witness : Option (List UInt8)
  objects : List UInt8 → List UInt8

namespace MgmtCard

section Handling

variable (cipher : MgmtCipher) (permissive : Bool)

/-- How a card carries a command out: with what data, status word and new state. Not every card
proves itself at the end of an authentication, and some do under the wrong tag. -/
inductive Handles (s : MgmtCard) : MgmtCommand → List UInt8 → UInt16 → MgmtCard → Prop
  | witness (w : List UInt8) (hlen : w.length = s.alg.blockSize) :
      Handles s (.requestWitness s.alg.id)
        (pushTlv [TAG_DYN_AUTH] (pushTlv [0x80] (cipher.encrypt s.alg s.key w))) SW_OK
        { s with witness := some w }
  | notStarted (algId : UInt8) (sw : UInt16) (hid : algId ≠ s.alg.id) (hsw : sw ≠ SW_OK) :
      Handles s (.requestWitness algId) [] sw { s with witness := none }
  | proved (w challenge data : List UInt8) (hw : s.witness = some w)
      (hdata : data = [] ∨ ∃ tag, (tag = 0x82 ∨ permissive = true) ∧
        data = pushTlv [TAG_DYN_AUTH] (pushTlv [tag] (cipher.encrypt s.alg s.key challenge))) :
      Handles s (.mutual s.alg.id w challenge) data SW_OK
        { s with witness := none, authorized := true }
  | notProved (algId : UInt8) (w challenge data : List UInt8) (sw : UInt16)
      (hw : algId ≠ s.alg.id ∨ s.witness ≠ some w) (hsw : sw ≠ SW_OK) :
      Handles s (.mutual algId w challenge) data sw { s with witness := none }
  | verified (pin : List UInt8) (tries : Nat) (hpin : pin = s.pin) (htries : 0 < s.tries) :
      Handles s (.verify pin) [] SW_OK { s with verified := true, tries }
  | notVerified (pin : List UInt8) (sw : UInt16) (tries : Nat) (hpin : pin ≠ s.pin ∨ s.tries = 0)
      (hsw : sw ≠ SW_OK) : Handles s (.verify pin) [] sw { s with verified := false, tries }
  | read (tag : List UInt8) (hopen : tag = OBJECT_PIN_PROTECTED_DATA → s.verified = true) :
      Handles s (.getData tag) (pushTlv [TAG_DATA_TEMPLATE] (s.objects tag)) SW_OK s
  | notRead (tag : List UInt8) (sw : UInt16) (hsw : sw ≠ SW_OK)
      (hnone : s.objects tag = [] ∨ tag = OBJECT_PIN_PROTECTED_DATA ∧ s.verified = false) :
      Handles s (.getData tag) [] sw s
  | written (tag value : List UInt8) (hauthorized : s.authorized = true) :
      Handles s (.putData tag value) [] SW_OK
        { s with objects := fun other => if other = tag then value else s.objects other }
  | notWritten (tag value : List UInt8) (sw : UInt16) (hsw : sw ≠ SW_OK) :
      Handles s (.putData tag value) [] sw s
  | keySet (alg : MgmtAlg) (key : List UInt8) (authorized : Bool)
      (hauthorized : s.authorized = true) :
      Handles s (.setManagementKey alg.id key) [] SW_OK
        { s with alg, key, authorized, witness := none }
  | keyNotSet (algId : UInt8) (key : List UInt8) (sw : UInt16) (hsw : sw ≠ SW_OK) :
      Handles s (.setManagementKey algId key) [] sw s
  | other (data : List UInt8) (sw : UInt16) : Handles s .other data sw s

/-- One question to a card. An answer may be lost, and the command carried out or not. Random bytes
are any of the length asked for. -/
inductive Step (lossy : Bool) (s : MgmtCard) : (q : MgmtAsk) → MgmtAnswer q → MgmtCard → Prop
  | answered {apdu data : List UInt8} {sw : UInt16} {t : MgmtCard}
      (h : Handles cipher permissive s (readMgmt apdu) data sw t) :
      Step lossy s (.transmit apdu) (.ok (data, sw)) t
  | lost {apdu : List UInt8} {t : MgmtCard} (hlossy : lossy = true) (e : LinkError)
      (h : t = s ∨ ∃ data sw, Handles cipher permissive s (readMgmt apdu) data sw t) :
      Step lossy s (.transmit apdu) (.error e) t
  | random (len : Nat) (challenge : { c : List UInt8 // c.length = len }) :
      Step lossy s (.getrandom len) (some challenge) s
  | noRandom (hlossy : lossy = true) (len : Nat) : Step lossy s (.getrandom len) none s
  | reported : Step lossy s .reportedManagementKeyAlgorithm
      (if s.reportsMetadata then some s.alg else none) s

end Handling

end MgmtCard

/-! ### Commands as they are read -/

theorem readMgmt_requestWitness (alg : MgmtAlg) :
    readMgmt (generalAuthRequestWitness alg KEY_REF_MANAGEMENT) = .requestWitness alg.id := by
  rw [readMgmt, generalAuthRequestWitness, readApdu_buildApduExt _ _ _ _ (by decide)]
  rfl

theorem authTemplate_pushTlv {value : List UInt8} (h : value.length ≤ 0xFFFF) :
    authTemplate (pushTlv [TAG_DYN_AUTH] value) = some value := by
  have hslice := slice?_pushTlv value []
  rw [List.append_nil] at hslice
  show (readBerLen (pushBerLen value.length ++ value)).bind _ = _
  rw [readBerLen_pushBerLen h]
  exact hslice

/-- A TLV that comes first. -/
theorem findTlv_pushTlv (tag t : UInt8) {value : List UInt8} (h : value.length ≤ 0xFFFF)
    (tail : List UInt8) : findTlv (pushTlv [t] value ++ tail) tag =
      if t = tag then some value
      else findTlvFrom tag (pushTlv [t] value ++ tail).length.pred tail := by
  have hlen : (pushTlv [t] value ++ tail).length =
      (pushTlv [t] value ++ tail).length.pred + 1 := by
    rw [pushTlv, List.append_assoc [t], List.append_assoc [t], List.singleton_append]
    rfl
  rw [findTlv, hlen, findTlvFrom_pushTlv tag t h tail]
  rfl

theorem findTlvFrom_pushTlv_self (tag : UInt8) {value : List UInt8} (h : value.length ≤ 0xFFFF)
    {left : Nat} (hleft : 0 < left) : findTlvFrom tag left (pushTlv [tag] value) = some value := by
  obtain ⟨left, rfl⟩ := Nat.exists_eq_add_of_lt hleft
  have hfind := findTlvFrom_pushTlv tag tag h [] (0 + left)
  rwa [List.append_nil, if_pos rfl] at hfind

theorem readMgmt_mutual (alg : MgmtAlg) {witness challenge : List UInt8}
    (hwitness : witness.length = alg.blockSize) (hchallenge : challenge.length = alg.blockSize) :
    readMgmt (generalAuthMutual alg KEY_REF_MANAGEMENT witness challenge) =
      .mutual alg.id witness challenge := by
  have hsize : 0 < alg.blockSize ∧ alg.blockSize ≤ 16 := by
    cases alg <;> decide
  have hfirst := length_pushTlv_le 0x80 witness
  have hsecond := length_pushTlv_le 0x81 challenge
  have hinner : (pushTlv [0x80] witness ++ pushTlv [0x81] challenge).length ≤ 100 := by
    rw [List.length_append]
    omega
  have htemplate := length_pushTlv_le TAG_DYN_AUTH
    (pushTlv [0x80] witness ++ pushTlv [0x81] challenge)
  have hread := readApdu_buildApduExt INS_GENERAL_AUTHENTICATE alg.id KEY_REF_MANAGEMENT
    (some 256) (show (pushTlv [TAG_DYN_AUTH] (pushTlv [0x80] witness ++
      pushTlv [0x81] challenge)).length ≤ 0xFFFF by omega)
  have hw : findTlv (pushTlv [0x80] witness ++ pushTlv [0x81] challenge) 0x80 = some witness := by
    rw [findTlv_pushTlv 0x80 0x80 (by omega), if_pos rfl]
  have hleft : 0 < (pushTlv [0x80] witness ++ pushTlv [0x81] challenge).length.pred := by
    rw [Nat.pred_eq_sub_one, pushTlv, List.length_append, List.length_append, List.length_append,
      List.length_singleton]
    omega
  have hc : findTlv (pushTlv [0x80] witness ++ pushTlv [0x81] challenge) 0x81 =
      some challenge := by
    rw [findTlv_pushTlv 0x81 0x80 (by omega), if_neg (by decide),
      findTlvFrom_pushTlv_self 0x81 (by omega) hleft]
  obtain ⟨x, xs, rfl⟩ : ∃ x xs, witness = x :: xs :=
    List.exists_cons_of_length_pos (by omega)
  rw [readMgmt, generalAuthMutual, hread]
  show (authTemplate _).elim .other (readTemplate alg.id) = _
  rw [authTemplate_pushTlv (by omega)]
  show readTemplate alg.id _ = _
  rw [readTemplate, hw, hc]

theorem readMgmt_verify {pin apdu : List UInt8} (h : verifyPin pin = .ok apdu) :
    ∃ padded, padPin pin = .ok padded ∧ readMgmt apdu = .verify padded := by
  have hlen : ∀ padded, padPin pin = .ok padded → padded.length = 8 := by
    intro padded hpad
    unfold padPin at hpad
    split at hpad
    · next hrange =>
        obtain rfl := Except.ok.inj hpad
        rw [List.length_append, List.length_replicate]
        omega
    · cases hpad
  rw [verifyPin] at h
  rcases hpad : padPin pin with e | padded
  · rw [hpad] at h
    cases h
  · rw [hpad] at h
    obtain rfl := Except.ok.inj h
    refine ⟨padded, rfl, ?_⟩
    have hpadded := hlen padded hpad
    have hne : padded ≠ [] := by
      rintro rfl
      cases hpadded
    have hread := readApdu_last INS_VERIFY 0x00 PIN_REF_APPLICATION none hne (by omega)
    rw [Option.toList_none, List.append_nil] at hread
    rw [readMgmt, buildApdu, hread]
    rfl

theorem readMgmt_getPinProtectedData :
    readMgmt (getData OBJECT_PIN_PROTECTED_DATA) = .getData OBJECT_PIN_PROTECTED_DATA := by
  decide

theorem readMgmt_getAdminData :
    readMgmt (getData OBJECT_ADMIN_DATA) = .getData OBJECT_ADMIN_DATA := by
  decide

theorem readMgmt_setManagementKey (alg : MgmtAlg) {key : List UInt8} (h : key.length ≤ 252)
    (requireTouch : Bool) :
    readMgmt (setManagementKeyApdu alg key requireTouch) = .setManagementKey alg.id key := by
  have hread := readApdu_last INS_SET_MANAGEMENT_KEY 0xFF (if requireTouch then 0xFE else 0xFF)
    none (show [alg.id, KEY_REF_MANAGEMENT, key.length.toUInt8] ++ key ≠ [] from List.cons_ne_nil _ _)
    (by rw [List.length_append]; simp; omega)
  rw [Option.toList_none, List.append_nil] at hread
  rw [readMgmt, setManagementKeyApdu, buildApdu, hread]
  rfl

theorem readMgmt_putPinProtectedData {value : List UInt8} (h : value.length ≤ 1000) :
    readMgmt (putData OBJECT_PIN_PROTECTED_DATA value) =
      .putData OBJECT_PIN_PROTECTED_DATA value := by
  have hvalue := length_pushTlv_le TAG_DATA_TEMPLATE value
  have hbody : (putDataBody OBJECT_PIN_PROTECTED_DATA value).length ≤ 1100 := by
    rw [putDataBody, List.length_append]
    have htag : (pushTlv [TAG_OBJECT_SELECTOR] OBJECT_PIN_PROTECTED_DATA).length = 5 := by decide
    omega
  have hread := readApdu_buildApduExt INS_PUT_DATA GET_DATA_P1 GET_DATA_P2 none
    (show (putDataBody OBJECT_PIN_PROTECTED_DATA value).length ≤ 0xFFFF by omega)
  have htag : findTlv (putDataBody OBJECT_PIN_PROTECTED_DATA value) TAG_OBJECT_SELECTOR =
      some OBJECT_PIN_PROTECTED_DATA := by
    rw [putDataBody, findTlv_pushTlv _ _ (by decide), if_pos rfl]
  have hcontent : findTlv (putDataBody OBJECT_PIN_PROTECTED_DATA value) TAG_DATA_TEMPLATE =
      some value := by
    rw [putDataBody, findTlv_pushTlv _ _ (by decide), if_neg (by decide),
      findTlvFrom_pushTlv_self _ (by omega)]
    have hselector : (pushTlv [TAG_OBJECT_SELECTOR] OBJECT_PIN_PROTECTED_DATA).length = 5 := rfl
    rw [Nat.pred_eq_sub_one, List.length_append, hselector]
    omega
  rw [readMgmt, putData, hread]
  show readPutData (findTlv (putDataBody _ _) _) (findTlv (putDataBody _ _) _) = _
  rw [htag, hcontent, readPutData]

/-- Data too long for its length field is read in part. -/
theorem readApdu_buildApduExt_part (ins p1 p2 : UInt8) (data : List UInt8) :
    ∃ n, readApdu (buildApduExt 0x00 ins p1 p2 data none) =
      some (false, ⟨0x00, ins, p1, p2, data.take n⟩) := by
  by_cases hlen : data.length ≤ 0xFFFF
  · refine ⟨data.length, ?_⟩
    rw [readApdu_buildApduExt ins p1 p2 none hlen, List.take_length]
  · have hlong : ¬ (data.length ≤ 255 ∧ (none : Option UInt16).all (· ≤ 256) = true) := by
      rintro ⟨hshort, -⟩
      omega
    have hne : data ≠ [] := by
      rintro rfl
      exact hlen (Nat.zero_le _)
    obtain ⟨hi, lo, hbe⟩ : ∃ hi lo, Bytes.be 2 data.length = [hi, lo] := ⟨_, _, rfl⟩
    refine ⟨Bytes.ofBe [hi, lo], ?_⟩
    rw [buildApduExt, if_neg hlong, if_neg hne, hbe]
    show some (false, Command.mk 0x00 ins p1 p2 ((data ++ _).take (Bytes.ofBe [hi, lo]))) = _
    rw [Option.toList_none, List.map_nil, List.flatten_nil, List.append_nil]

/-- Whatever is written to Admin Data, nothing else is. -/
theorem readMgmt_putAdminData (value : List UInt8) :
    readMgmt (putData OBJECT_ADMIN_DATA value) = .other ∨
      ∃ v, readMgmt (putData OBJECT_ADMIN_DATA value) = .putData OBJECT_ADMIN_DATA v := by
  obtain ⟨n, hread⟩ := readApdu_buildApduExt_part INS_PUT_DATA GET_DATA_P1 GET_DATA_P2
    (putDataBody OBJECT_ADMIN_DATA value)
  have htag : findTlv ((putDataBody OBJECT_ADMIN_DATA value).take n) TAG_OBJECT_SELECTOR = none ∨
      findTlv ((putDataBody OBJECT_ADMIN_DATA value).take n) TAG_OBJECT_SELECTOR =
        some OBJECT_ADMIN_DATA := by
    rcases n with _ | _ | _ | _ | _ | n
    · exact .inl rfl
    · exact .inl rfl
    · exact .inl rfl
    · exact .inl rfl
    · exact .inl rfl
    · right
      have hsplit : (putDataBody OBJECT_ADMIN_DATA value).take (n + 5) =
          pushTlv [TAG_OBJECT_SELECTOR] OBJECT_ADMIN_DATA ++
            (pushTlv [TAG_DATA_TEMPLATE] value).take n := rfl
      rw [hsplit, findTlv_pushTlv _ _ (by decide), if_pos rfl]
  have hmeans : readMgmt (putData OBJECT_ADMIN_DATA value) =
      readPutData (findTlv ((putDataBody OBJECT_ADMIN_DATA value).take n) TAG_OBJECT_SELECTOR)
        (findTlv ((putDataBody OBJECT_ADMIN_DATA value).take n) TAG_DATA_TEMPLATE) := by
    rw [readMgmt, putData, hread]
    rfl
  rw [hmeans]
  rcases htag with htag | htag
  · rw [htag]
    exact .inl rfl
  · rw [htag]
    cases findTlv ((putDataBody OBJECT_ADMIN_DATA value).take n) TAG_DATA_TEMPLATE with
    | none => exact .inl rfl
    | some v => exact .inr ⟨v, rfl⟩

/-! ### The stored copy -/

theorem parsePinProtectedManagementKey_built {key : List UInt8} (h : key.length ≤ 1000) :
    parsePinProtectedManagementKey
      (pushTlv [TAG_DATA_TEMPLATE] (buildPinProtectedManagementKey key)) = some key := by
  have hinner := length_pushTlv_le 0x89 key
  have houter := length_pushTlv_le 0x88 (pushTlv [0x89] key)
  have h89 : findTlv (pushTlv [0x89] key) 0x89 = some key := by
    have hfind := findTlv_pushTlv 0x89 0x89 (show key.length ≤ 0xFFFF by omega) []
    rwa [List.append_nil, if_pos rfl] at hfind
  have h88 : findTlv (pushTlv [0x88] (pushTlv [0x89] key)) 0x88 = some (pushTlv [0x89] key) := by
    have hfind := findTlv_pushTlv 0x88 0x88
      (show (pushTlv [0x89] key).length ≤ 0xFFFF by omega) []
    rwa [List.append_nil, if_pos rfl] at hfind
  rw [parsePinProtectedManagementKey, TAG_DATA_TEMPLATE, unwrapDataObject_pushTlv (by
    rw [buildPinProtectedManagementKey]
    omega)]
  show (do
    let tag88 ← findTlv (buildPinProtectedManagementKey key) 0x88
    findTlv tag88 0x89) = _
  rw [buildPinProtectedManagementKey, h88]
  exact h89

/-- One block. -/
theorem blockCrypt_one (cipher : MgmtCipher) {alg : MgmtAlg} {key data : List UInt8}
    (hkey : key.length = alg.keyLen) (hdata : data.length = alg.blockSize) (op : CryptOp) :
    blockCrypt cipher alg key data op = .ok (cipher.run op alg key data) := by
  have hsize : 0 < alg.blockSize := by
    cases alg <;> decide
  have hne : data ≠ [] := List.ne_nil_of_length_pos (by omega)
  have hchunks : chunks alg.blockSize data = [data] := by
    obtain ⟨left, hleft⟩ := Nat.exists_eq_add_of_lt hsize
    have hstop : chunksFrom alg.blockSize (0 + left) [] = [] := by
      cases left <;> rfl
    have hlen : data.length = 0 + left + 1 := hdata.trans hleft
    rw [chunks, hlen, chunksFrom, if_neg hne, List.take_of_length_le (Nat.le_of_eq hdata),
      List.drop_eq_nil_of_le (Nat.le_of_eq hdata), hstop]
  rw [blockCrypt, if_neg, if_neg (not_not.mpr hkey), hchunks, List.flatMap_cons, List.flatMap_nil,
    List.append_nil]
  rintro (hnil | hodd)
  · exact hne hnil
  · exact hodd (by rw [hdata]; exact Nat.mod_self _)

/-! ### What a command does -/

section Commands

variable {cipher : MgmtCipher} {permissive : Bool} {s t : MgmtCard} {data : List UInt8}
  {sw : UInt16}

theorem handles_requestWitness {algId : UInt8}
    (h : s.Handles cipher permissive (.requestWitness algId) data sw t) :
    (algId = s.alg.id ∧ sw = SW_OK ∧ ∃ w, w.length = s.alg.blockSize ∧
      data = pushTlv [TAG_DYN_AUTH] (pushTlv [0x80] (cipher.encrypt s.alg s.key w)) ∧
      t = { s with witness := some w }) ∨
    (algId ≠ s.alg.id ∧ sw ≠ SW_OK ∧ t = { s with witness := none }) := by
  cases h with
  | witness w hlen => exact .inl ⟨rfl, rfl, w, hlen, rfl, rfl⟩
  | notStarted _ _ hid hsw => exact .inr ⟨hid, hsw, rfl⟩

theorem handles_mutual {algId : UInt8} {w challenge : List UInt8}
    (h : s.Handles cipher permissive (.mutual algId w challenge) data sw t)
    (hid : algId = s.alg.id) (hw : s.witness = some w) :
    sw = SW_OK ∧ t.authorized = true ∧ (data = [] ∨ ∃ tag, (tag = 0x82 ∨ permissive = true) ∧
      data = pushTlv [TAG_DYN_AUTH] (pushTlv [tag] (cipher.encrypt s.alg s.key challenge))) := by
  cases h with
  | proved _ _ _ _ hdata => exact ⟨rfl, rfl, hdata⟩
  | notProved _ _ _ _ _ hnot => exact (hnot.elim (· hid) (· hw)).elim

theorem handles_verify {pin : List UInt8}
    (h : s.Handles cipher permissive (.verify pin) data sw t) (hpin : pin = s.pin)
    (htries : 0 < s.tries) : sw = SW_OK ∧ ∃ tries, t = { s with verified := true, tries } := by
  cases h with
  | verified _ tries => exact ⟨rfl, tries, rfl⟩
  | notVerified _ _ _ hnot =>
      exact (hnot.elim (· hpin) fun hzero => Nat.lt_irrefl 0 (hzero ▸ htries)).elim

theorem handles_getData {tag : List UInt8}
    (h : s.Handles cipher permissive (.getData tag) data sw t) : t = s ∧
      ((sw = SW_OK ∧ data = pushTlv [TAG_DATA_TEMPLATE] (s.objects tag)) ∨
        (sw ≠ SW_OK ∧
          (s.objects tag = [] ∨ tag = OBJECT_PIN_PROTECTED_DATA ∧ s.verified = false))) := by
  cases h with
  | read => exact ⟨rfl, .inl ⟨rfl, rfl⟩⟩
  | notRead _ _ hsw hnone => exact ⟨rfl, .inr ⟨hsw, hnone⟩⟩

theorem handles_putData {tag value : List UInt8}
    (h : s.Handles cipher permissive (.putData tag value) data sw t) :
    (sw = SW_OK ∧
      t = { s with objects := fun other => if other = tag then value else s.objects other }) ∨
    (sw ≠ SW_OK ∧ t = s) := by
  cases h with
  | written => exact .inl ⟨rfl, rfl⟩
  | notWritten _ _ _ hsw => exact .inr ⟨hsw, rfl⟩

theorem handles_setManagementKey {alg : MgmtAlg} {key : List UInt8}
    (h : s.Handles cipher permissive (.setManagementKey alg.id key) data sw t) :
    (sw = SW_OK ∧ ∃ authorized, t = { s with alg, key, authorized, witness := none }) ∨
    (sw ≠ SW_OK ∧ t = s) := by
  generalize hid : alg.id = algId at h
  cases h with
  | keySet alg' _ authorized =>
      obtain rfl := MgmtAlg.id_injective hid
      exact .inl ⟨rfl, authorized, rfl⟩
  | keyNotSet _ _ _ hsw => exact .inr ⟨hsw, rfl⟩

end Commands

/-! ### Sessions with a card -/

/-- Nothing but the objects, and how far a session has got, may have changed. A card that is the
same in this way accepts the key that it accepted. -/
structure MgmtCard.SameKey (s t : MgmtCard) : Prop where
  alg : t.alg = s.alg
  key : t.key = s.key
  reportsMetadata : t.reportsMetadata = s.reportsMetadata

theorem MgmtCard.SameKey.refl (s : MgmtCard) : s.SameKey s := ⟨rfl, rfl, rfl⟩

theorem MgmtCard.SameKey.trans {s t u : MgmtCard} (h : s.SameKey t) (h' : t.SameKey u) :
    s.SameKey u :=
  ⟨h'.alg.trans h.alg, h'.key.trans h.key, h'.reportsMetadata.trans h.reportsMetadata⟩

section Sessions

variable {cipher : MgmtCipher} {permissive lossy : Bool} {m : Option MgmtAlg} {s : MgmtCard}

theorem ensures_transmitMgmt {apdu : List UInt8}
    {Post : Mgmt (List UInt8 × UInt16) → Option MgmtAlg → MgmtCard → Prop}
    (hlost : ∀ e t, lossy = true → (t = s ∨ ∃ data sw,
      s.Handles cipher permissive (readMgmt apdu) data sw t) → Post (.error e) m t)
    (hanswer : ∀ data sw t, s.Handles cipher permissive (readMgmt apdu) data sw t →
      Post (.ok (data, sw)) m t) :
    Ensures (MgmtCard.Step cipher permissive lossy) Post (transmitMgmt apdu) m s := by
  refine ensures_bind (ensures_ask fun a t hstep => ensures_pure ?_)
  cases hstep with
  | answered h => exact hanswer _ _ _ h
  | lost hlossy e h => exact hlost _ _ hlossy h

/-- A command, and what is made of its answer. -/
theorem ensures_transmitMgmt_then {R : Type} {apdu : List UInt8}
    {f : List UInt8 × UInt16 → MgmtM (Mgmt R)}
    {Post : Mgmt R → Option MgmtAlg → MgmtCard → Prop}
    (hlost : ∀ e t, lossy = true → (t = s ∨ ∃ data sw,
      s.Handles cipher permissive (readMgmt apdu) data sw t) → Post (.error e) m t)
    (hanswer : ∀ data sw t, s.Handles cipher permissive (readMgmt apdu) data sw t →
      Ensures (MgmtCard.Step cipher permissive lossy) Post (f (data, sw)) m t) :
    Ensures (MgmtCard.Step cipher permissive lossy) Post (andThen (transmitMgmt apdu) f) m s := by
  refine ensures_andThen (ensures_transmitMgmt ?_ fun data sw t h =>
    ok_andThen (hanswer data sw t h))
  intro e t hlossy h
  constructor
  · intro e' heq
    obtain rfl := Except.error.inj heq
    exact hlost e t hlossy h
  · intro a heq
    cases heq

/-! ### The change -/

/-- The object that the PIN gives out is as it was. -/
def SameCopy (s t : MgmtCard) : Prop :=
  t.objects OBJECT_PIN_PROTECTED_DATA = s.objects OBJECT_PIN_PROTECTED_DATA

theorem ensures_sendSetManagementKey {alg : MgmtAlg} {key : List UInt8} (h : key.length ≤ 252)
    (requireTouch : Bool) : Ensures (MgmtCard.Step cipher permissive lossy)
      (fun r _ t => SameCopy s t ∧ ((t.alg = alg ∧ t.key = key) ∨
        ((∃ e, r = .error e) ∧ t.alg = s.alg ∧ t.key = s.key)))
      (sendSetManagementKey alg key requireTouch) m s := by
  have hdone : ∀ data sw t, s.Handles cipher permissive
      (readMgmt (setManagementKeyApdu alg key requireTouch)) data sw t → SameCopy s t ∧
        ((sw = SW_OK ∧ t.alg = alg ∧ t.key = key) ∨ (sw ≠ SW_OK ∧ t = s)) := by
    intro data sw t hhandles
    rw [readMgmt_setManagementKey alg h] at hhandles
    rcases handles_setManagementKey hhandles with ⟨hsw, authorized, rfl⟩ | ⟨hsw, rfl⟩
    · exact ⟨rfl, .inl ⟨hsw, rfl, rfl⟩⟩
    · exact ⟨rfl, .inr ⟨hsw, rfl⟩⟩
  refine ensures_transmitMgmt_then ?_ ?_
  · rintro e t - (rfl | ⟨data, sw, hhandles⟩)
    · exact ⟨rfl, .inr ⟨⟨e, rfl⟩, rfl, rfl⟩⟩
    · obtain ⟨hcopy, ⟨-, hset⟩ | ⟨-, rfl⟩⟩ := hdone data sw t hhandles
      · exact ⟨hcopy, .inl hset⟩
      · exact ⟨hcopy, .inr ⟨⟨e, rfl⟩, rfl, rfl⟩⟩
  · intro data sw t hhandles
    refine ensures_pure ?_
    obtain ⟨hcopy, ⟨-, hset⟩ | ⟨hsw, rfl⟩⟩ := hdone data sw t hhandles
    · exact ⟨hcopy, .inl hset⟩
    · refine ⟨hcopy, .inr ⟨?_, rfl, rfl⟩⟩
      rcases hresult : okOrWrite "piv set management key" sw with e | u
      · exact ⟨.transport e, rfl⟩
      · exact absurd (okOrWrite_eq_ok.mp hresult) hsw

theorem handles_putAdminData {value data : List UInt8} {sw : UInt16} {t : MgmtCard}
    (h : s.Handles cipher permissive (readMgmt (putData OBJECT_ADMIN_DATA value)) data sw t) :
    s.SameKey t ∧ SameCopy s t := by
  rcases readMgmt_putAdminData value with hother | ⟨v, hput⟩
  · rw [hother] at h
    cases h
    exact ⟨.refl _, rfl⟩
  · rw [hput] at h
    rcases handles_putData h with ⟨-, rfl⟩ | ⟨-, rfl⟩
    · have hother : OBJECT_PIN_PROTECTED_DATA ≠ OBJECT_ADMIN_DATA := by decide
      refine ⟨⟨rfl, rfl, rfl⟩, ?_⟩
      show (if OBJECT_PIN_PROTECTED_DATA = OBJECT_ADMIN_DATA then v
        else s.objects OBJECT_PIN_PROTECTED_DATA) = s.objects OBJECT_PIN_PROTECTED_DATA
      exact if_neg hother
    · exact ⟨.refl _, rfl⟩

theorem ensures_updateAdminData (set : Bool) :
    Ensures (MgmtCard.Step cipher permissive lossy) (fun _ _ t => s.SameKey t ∧ SameCopy s t)
      (updateAdminDataPinProtectedFlag set) m s := by
  have hread : Ensures (MgmtCard.Step cipher permissive lossy) (fun _ _ t => t = s)
      readAdminDataInner m s := by
    refine ensures_transmitMgmt_then ?_ ?_
    · rintro e t - (rfl | ⟨data, sw, hhandles⟩)
      · rfl
      · rw [readMgmt_getAdminData] at hhandles
        exact (handles_getData hhandles).1
    · intro data sw t hhandles
      rw [readMgmt_getAdminData] at hhandles
      exact ensures_pure (handles_getData hhandles).1
  refine ensures_andThen (hread.mono ?_)
  rintro r n t rfl
  refine ⟨fun e _ => ⟨.refl _, rfl⟩, fun existing _ => ?_⟩
  rcases hpatched : setAdminDataPinProtectedFlag existing set with _ | patched
  · exact ensures_pure ⟨.refl _, rfl⟩
  · refine ensures_transmitMgmt_then ?_ ?_
    · rintro e u - (rfl | ⟨data, sw, hhandles⟩)
      · exact ⟨.refl _, rfl⟩
      · exact handles_putAdminData hhandles
    · exact fun data sw u hhandles => ensures_pure (handles_putAdminData hhandles)

theorem ensures_putPinProtectedData (label : String) {inner : List UInt8}
    (h : inner.length ≤ 1000) : Ensures (MgmtCard.Step cipher permissive lossy)
      (fun r _ t => s.SameKey t ∧ (SameCopy s t ∨ t.objects OBJECT_PIN_PROTECTED_DATA = inner) ∧
        (r = .ok () → t.objects OBJECT_PIN_PROTECTED_DATA = inner))
      (putPinProtectedData label inner) m s := by
  have hdone : ∀ data sw t, s.Handles cipher permissive
      (readMgmt (putData OBJECT_PIN_PROTECTED_DATA inner)) data sw t → s.SameKey t ∧
        ((sw = SW_OK ∧ t.objects OBJECT_PIN_PROTECTED_DATA = inner) ∨ (sw ≠ SW_OK ∧ t = s)) := by
    intro data sw t hhandles
    rw [readMgmt_putPinProtectedData h] at hhandles
    rcases handles_putData hhandles with ⟨hsw, rfl⟩ | ⟨hsw, rfl⟩
    · refine ⟨⟨rfl, rfl, rfl⟩, .inl ⟨hsw, ?_⟩⟩
      show (if OBJECT_PIN_PROTECTED_DATA = OBJECT_PIN_PROTECTED_DATA then inner
        else s.objects OBJECT_PIN_PROTECTED_DATA) = inner
      exact if_pos rfl
    · exact ⟨.refl _, .inr ⟨hsw, rfl⟩⟩
  refine ensures_transmitMgmt_then ?_ ?_
  · rintro e t - (rfl | ⟨data, sw, hhandles⟩)
    · exact ⟨.refl _, .inl rfl, fun heq => by cases heq⟩
    · obtain ⟨hsame, ⟨-, hset⟩ | ⟨-, rfl⟩⟩ := hdone data sw t hhandles
      · exact ⟨hsame, .inr hset, fun _ => hset⟩
      · exact ⟨hsame, .inl rfl, fun heq => by cases heq⟩
  · intro data sw t hhandles
    refine ensures_pure ?_
    obtain ⟨hsame, ⟨-, hset⟩ | ⟨hsw, rfl⟩⟩ := hdone data sw t hhandles
    · exact ⟨hsame, .inr hset, fun _ => hset⟩
    · refine ⟨hsame, .inl rfl, fun heq => ?_⟩
      rcases hresult : okOrWrite label sw with e | u
      · rw [hresult] at heq
        cases heq
      · exact absurd (okOrWrite_eq_ok.mp hresult) hsw

/-- The copy that belongs to a change. -/
def copyFor (key : List UInt8) (allowPinUnlock : Bool) : List UInt8 :=
  if allowPinUnlock then buildPinProtectedManagementKey key else []

theorem length_copyFor_le {key : List UInt8} (h : key.length ≤ 252) (allowPinUnlock : Bool) :
    (copyFor key allowPinUnlock).length ≤ 1000 := by
  have hinner := length_pushTlv_le 0x89 key
  have houter := length_pushTlv_le 0x88 (pushTlv [0x89] key)
  cases allowPinUnlock
  · exact Nat.zero_le _
  · show (pushTlv [0x88] (pushTlv [0x89] key)).length ≤ 1000
    omega

theorem MgmtAlg.keyLen_le (alg : MgmtAlg) : alg.keyLen ≤ 32 := by
  cases alg <;> decide

/-- What a change may leave, wherever it ends: the key and its copy as they were, or the new key
with the copy as it was or the one that belongs to it. -/
def LeftBy (s : MgmtCard) (alg : MgmtAlg) (key : List UInt8) (allowPinUnlock : Bool)
    (t : MgmtCard) : Prop :=
  (t.alg = s.alg ∧ t.key = s.key ∧ SameCopy s t) ∨
    (t.alg = alg ∧ t.key = key ∧
      (SameCopy s t ∨ t.objects OBJECT_PIN_PROTECTED_DATA = copyFor key allowPinUnlock))

theorem ensures_setManagementKeyPinProtected (hidden : Bool) (current : CurrentMgmtAuth)
    (alg : MgmtAlg) (key : List UInt8) (requireTouch allowPinUnlock : Bool) :
    Ensures (MgmtCard.Step cipher permissive lossy) (fun r _ t =>
        LeftBy s alg key allowPinUnlock t ∧
        (r = .ok (.ran (.ok ())) → t.alg = alg ∧ t.key = key ∧ key.length = alg.keyLen ∧
          t.objects OBJECT_PIN_PROTECTED_DATA = copyFor key allowPinUnlock))
      (setManagementKeyPinProtected ⟨false, hidden⟩ current alg key requireTouch allowPinUnlock)
      m s := by
  by_cases hlen : key.length = alg.keyLen
  · have hshort : key.length ≤ 252 := by
      have hle := alg.keyLen_le
      omega
    have hset : Ensures (MgmtCard.Step cipher permissive lossy) (fun r _ t => SameCopy s t ∧
        ((t.alg = alg ∧ t.key = key) ∨ ((∃ e, r = .error e) ∧ t.alg = s.alg ∧ t.key = s.key)))
        (setManagementKey ⟨false, hidden⟩ current alg key requireTouch) m s := by
      rw [setManagementKey, if_neg (not_not.mpr hlen)]
      exact ensures_sendSetManagementKey hshort requireTouch
    refine ensures_andThen (hset.mono ?_)
    rintro r n t ⟨hcopy, hkey⟩
    constructor
    · rintro e rfl
      refine ⟨?_, fun heq => by cases heq⟩
      rcases hkey with ⟨halg, hkey⟩ | ⟨-, halg, hkey⟩
      · exact .inr ⟨halg, hkey, .inl hcopy⟩
      · exact .inl ⟨halg, hkey, hcopy⟩
    · rintro u rfl
      have hnew : t.alg = alg ∧ t.key = key := by
        rcases hkey with hnew | ⟨⟨e, heq⟩, -⟩
        · exact hnew
        · cases heq
      refine ensures_andThen ((ensures_updateAdminData allowPinUnlock).mono ?_)
      rintro r n v ⟨hsame, hcopy'⟩
      constructor
      · rintro e rfl
        exact ⟨.inr ⟨hsame.alg.trans hnew.1, hsame.key.trans hnew.2, .inl (hcopy'.trans hcopy)⟩,
          fun heq => by cases heq⟩
      · rintro u' rfl
        have hput : Ensures (MgmtCard.Step cipher permissive lossy) (fun r _ x => v.SameKey x ∧
            (SameCopy v x ∨
              x.objects OBJECT_PIN_PROTECTED_DATA = copyFor key allowPinUnlock) ∧
            (r = .ok () →
              x.objects OBJECT_PIN_PROTECTED_DATA = copyFor key allowPinUnlock))
            (maintainPinProtectedData key allowPinUnlock) n v := by
          have hsize := length_copyFor_le hshort allowPinUnlock
          cases allowPinUnlock
          · exact ensures_putPinProtectedData _ hsize
          · exact ensures_putPinProtectedData _ hsize
        refine ensures_bind (hput.mono ?_)
        rintro printedData k x ⟨hsame', hcopy'', hdone⟩
        have halg := (hsame.trans hsame').alg.trans hnew.1
        have hkey := (hsame.trans hsame').key.trans hnew.2
        refine ensures_pure ⟨.inr ⟨halg, hkey, ?_⟩, fun heq => ?_⟩
        · exact hcopy''.imp_left fun hkept => hkept.trans (hcopy'.trans hcopy)
        · have hran : printedData = .ok () :=
            PinProtectMaintenance.ran.inj (Except.ok.inj heq)
          exact ⟨halg, hkey, hlen, hdone hran⟩
  · rw [setManagementKeyPinProtected, setManagementKey, if_pos hlen]
    exact ⟨.inl ⟨rfl, rfl, rfl⟩, fun heq => by cases heq⟩

/-! ### The PIN -/

theorem steady_card : Steady (MgmtCard.Step cipher permissive false) s.SameKey
    (fun alg => decide (alg = s.alg)) (if s.reportsMetadata then some s.alg else none) := by
  constructor
  · intro u alg a t hu hstep
    cases hstep with
    | answered h =>
        rw [readMgmt_requestWitness] at h
        rcases handles_requestWitness h with ⟨hid, rfl, w, -, -, rfl⟩ | ⟨hid, hsw, rfl⟩
        · refine ⟨⟨hu.alg, hu.key, hu.reportsMetadata⟩, _, _, rfl, ?_⟩
          have halg : alg = s.alg := (MgmtAlg.id_injective hid).trans hu.alg
          rw [decide_eq_true halg]
          rfl
        · refine ⟨⟨hu.alg, hu.key, hu.reportsMetadata⟩, _, _, rfl, ?_⟩
          have halg : alg ≠ s.alg := fun heq => hid (by rw [heq, hu.alg])
          rw [decide_eq_false halg]
          exact beq_eq_false_iff_ne.mpr hsw
    | lost hlossy => cases hlossy
  · intro u a t hu hstep
    cases hstep
    refine ⟨hu, ?_⟩
    rw [hu.reportsMetadata, hu.alg]

theorem resolvedAlgorithm_card (alg : MgmtAlg) (reports : Bool) :
    resolvedAlgorithm (fun other => decide (other = alg)) (if reports then some alg else none)
      alg.keyLen = .ok alg := by
  cases reports <;> cases alg <;> decide

theorem soleEntry_pushTlv (tag : UInt8) {value : List UInt8} (h : value.length ≤ 0xFFFF) :
    soleEntry (pushTlv [tag] value) = some value := by
  have hslice := slice?_pushTlv value []
  rw [List.append_nil] at hslice
  have hend : (pushBerLen value.length).length + value.length =
      (pushBerLen value.length ++ value).length := List.length_append.symm
  show (readBerLen (pushBerLen value.length ++ value)).bind _ = _
  rw [readBerLen_pushBerLen h]
  show (slice? (pushBerLen value.length ++ value) _ _).bind _ = _
  rw [hslice]
  exact if_pos hend

/-- A proof of the card is understood under the tag that the applet uses. -/
theorem judgeMutual_proof {hidden : Bool} {alg : MgmtAlg} {key challenge : List UInt8}
    (hkey : key.length = alg.keyLen) (hchallenge : challenge.length = alg.blockSize)
    {tag : UInt8} (htag : tag = 0x82 ∨ permissive = true) :
    judgeMutual cipher ⟨hidden, permissive⟩ alg key challenge
      (pushTlv [TAG_DYN_AUTH] (pushTlv [tag] (cipher.encrypt alg key challenge))) SW_OK =
      .ok () := by
  have hsize : alg.blockSize ≤ 16 := by
    cases alg <;> decide
  have hlen := cipher.length_encrypt alg key challenge hchallenge
  have hinner := length_pushTlv_le tag (cipher.encrypt alg key challenge)
  have htemplate := authTemplate_pushTlv
    (show (pushTlv [tag] (cipher.encrypt alg key challenge)).length ≤ 0xFFFF by omega)
  have hsole := soleEntry_pushTlv tag
    (show (cipher.encrypt alg key challenge).length ≤ 0xFFFF by omega)
  have hexpected : blockCrypt cipher alg key challenge .encrypt =
      .ok (cipher.encrypt alg key challenge) := blockCrypt_one cipher hkey hchallenge .encrypt
  have hz2 : parseChallengeAnswer ⟨hidden, permissive⟩
      (pushTlv [TAG_DYN_AUTH] (pushTlv [tag] (cipher.encrypt alg key challenge))) =
      .ok (cipher.encrypt alg key challenge) := by
    rw [parseChallengeAnswer]
    rcases hpermissive : permissive
    · obtain rfl : tag = 0x82 := htag.resolve_right (by rw [hpermissive]; exact Bool.false_ne_true)
      have hfind := findTlv_pushTlv 0x82 0x82
        (show (cipher.encrypt alg key challenge).length ≤ 0xFFFF by omega) []
      rw [List.append_nil, if_pos rfl] at hfind
      rw [if_neg Bool.false_ne_true, parseGeneralAuth, htemplate, Option.bind_some, hfind]
    · rw [if_pos rfl, parseGeneralAuthPermissive, htemplate, Option.bind_some, hsole]
  have hne : pushTlv [TAG_DYN_AUTH] (pushTlv [tag] (cipher.encrypt alg key challenge)) ≠ [] :=
    List.cons_ne_nil _ _
  rw [judgeMutual, if_neg (not_not.mpr rfl), if_neg hne]
  rw [hz2]
  show (do
    let expected ← blockCrypt cipher alg key challenge .encrypt
    if Oath.ctEq _ expected then return () else .error MgmtError.managementAuthFailed) = _
  rw [hexpected]
  exact if_pos (Oath.ctEq_iff.mpr rfl)

/-- A card that is shown its own key lets the session in. -/
theorem ensures_mutualAuthenticate {hidden : Bool} (hkey : s.key.length = s.alg.keyLen) :
    Ensures (MgmtCard.Step cipher permissive false) (fun r _ t => r = .ok () ∧ t.authorized = true)
      (mutualAuthenticate cipher ⟨hidden, permissive⟩ s.alg s.key) m s := by
  have hsize : s.alg.blockSize ≤ 16 := by
    cases s.alg <;> decide
  refine ensures_transmitMgmt_then (fun e t hlossy => by cases hlossy) ?_
  intro data sw t hhandles
  rw [readMgmt_requestWitness] at hhandles
  rcases handles_requestWitness hhandles with ⟨-, rfl, w, hw, rfl, rfl⟩ | ⟨hid, -, -⟩
  · have hlen := cipher.length_encrypt s.alg s.key w hw
    have hinner := length_pushTlv_le 0x80 (cipher.encrypt s.alg s.key w)
    have hfind := findTlv_pushTlv 0x80 0x80
      (show (cipher.encrypt s.alg s.key w).length ≤ 0xFFFF by omega) []
    rw [List.append_nil, if_pos rfl] at hfind
    have hparse : parseGeneralAuth (pushTlv [TAG_DYN_AUTH]
        (pushTlv [0x80] (cipher.encrypt s.alg s.key w))) 0x80 =
        .ok (cipher.encrypt s.alg s.key w) := by
      rw [parseGeneralAuth, authTemplate_pushTlv (by omega), Option.bind_some, hfind]
    have hwitness : decryptWitness cipher s.alg s.key (pushTlv [TAG_DYN_AUTH]
        (pushTlv [0x80] (cipher.encrypt s.alg s.key w))) SW_OK = .ok w := by
      show (do
        let z1 ← parseGeneralAuth (pushTlv [TAG_DYN_AUTH]
          (pushTlv [0x80] (cipher.encrypt s.alg s.key w))) 0x80
        blockCrypt cipher s.alg s.key z1 .decrypt) = _
      rw [hparse]
      show blockCrypt cipher s.alg s.key (cipher.encrypt s.alg s.key w) .decrypt = _
      rw [blockCrypt_one cipher hkey hlen]
      exact congrArg Except.ok (cipher.decrypt_encrypt s.alg s.key w hkey hw)
    dsimp only
    rw [hwitness]
    refine ensures_bind (ensures_ask fun a t hstep => ?_)
    cases hstep with
    | random _ challenge =>
        refine ensures_transmitMgmt_then (fun e t hlossy => by cases hlossy) ?_
        intro data sw t hhandles
        rw [readMgmt_mutual s.alg hw challenge.property] at hhandles
        obtain ⟨rfl, hauthorized, hdata⟩ := handles_mutual hhandles rfl rfl
        refine ensures_pure ⟨?_, hauthorized⟩
        rcases hdata with rfl | ⟨tag, htag, rfl⟩
        · rfl
        · exact judgeMutual_proof hkey challenge.property htag
    | noRandom hlossy => cases hlossy
  · exact absurd rfl hid

theorem ensures_verifyPinMgmt {pin : List UInt8} (hpin : padPin pin = .ok s.pin)
    (htries : 0 < s.tries) : Ensures (MgmtCard.Step cipher permissive false)
      (fun r _ t => r = .ok () ∧ ∃ tries, t = { s with verified := true, tries })
      (verifyPinMgmt pin) m s := by
  rcases hverify : verifyPin pin with e | apdu
  · rw [verifyPin, hpin] at hverify
    cases hverify
  · obtain ⟨padded, hpadded, hread⟩ := readMgmt_verify hverify
    obtain rfl : padded = s.pin := Except.ok.inj (hpadded.symm.trans hpin)
    unfold verifyPinMgmt
    rw [hverify]
    refine ensures_transmitMgmt_then (fun e t hlossy => by cases hlossy) ?_
    intro data sw t hhandles
    rw [hread] at hhandles
    obtain ⟨rfl, htries⟩ := handles_verify hhandles rfl htries
    exact ensures_pure ⟨rfl, htries⟩

/-- What the PIN does to a card that holds this copy of its key, or none. -/
theorem ensures_authenticateManagementViaPin {pin : List UInt8} {allow : Bool}
    (hpin : padPin pin = .ok s.pin) (htries : 0 < s.tries)
    (hkey : s.key.length = s.alg.keyLen)
    (hcopy : s.objects OBJECT_PIN_PROTECTED_DATA = copyFor s.key allow) :
    Ensures (MgmtCard.Step cipher permissive false)
      (fun r _ t => (allow = true → r = .ok () ∧ t.authorized = true) ∧
        (allow = false → r = .error .pinProtectedKeyNotSet ∧ t.authorized = s.authorized))
      (authenticateManagementViaPin cipher ⟨false, permissive⟩ pin) m s := by
  refine ensures_andThen ((ensures_verifyPinMgmt hpin htries).mono ?_)
  rintro r n t ⟨rfl, tries, rfl⟩
  refine ok_andThen ?_
  rw [if_neg Bool.false_ne_true]
  refine ensures_transmitMgmt_then (fun e t hlossy => by cases hlossy) ?_
  intro data sw t hhandles
  rw [readMgmt_getPinProtectedData] at hhandles
  obtain ⟨rfl, hread⟩ := handles_getData hhandles
  dsimp only at hread ⊢
  have hshort : s.key.length ≤ 252 := by
    have hle := s.alg.keyLen_le
    omega
  cases allow
  · refine (show Ensures _ (fun r _ t => r = .error .pinProtectedKeyNotSet ∧
      t.authorized = s.authorized) _ n _ from ?_).mono fun _ _ _ h =>
        ⟨fun hallow => absurd hallow Bool.false_ne_true, fun _ => h⟩
    rcases hread with ⟨rfl, rfl⟩ | ⟨hsw, -⟩
    · rw [if_neg (not_not.mpr rfl), hcopy]
      exact ensures_pure ⟨rfl, rfl⟩
    · rw [if_pos hsw]
      exact ensures_pure ⟨rfl, rfl⟩
  · refine (show Ensures _ (fun r _ t => r = .ok () ∧ t.authorized = true) _ n _ from ?_).mono
      fun _ _ _ h => ⟨fun _ => h, fun hallow => absurd hallow.symm Bool.false_ne_true⟩
    rcases hread with ⟨rfl, rfl⟩ | ⟨-, hnone | ⟨-, hunverified⟩⟩
    · have hparse := parsePinProtectedManagementKey_built (show s.key.length ≤ 1000 by omega)
      have hbuilt : copyFor s.key true = buildPinProtectedManagementKey s.key := rfl
      rw [if_neg (not_not.mpr rfl), hcopy, hbuilt, hparse]
      have hverified : s.SameKey { s with verified := true, tries } := ⟨rfl, rfl, rfl⟩
      refine ensures_andThen ((ensures_resolveManagementKeyAlgorithm steady_card s.key.length
        hverified).mono ?_)
      rintro r k u ⟨rfl, hsame⟩
      rw [hkey, resolvedAlgorithm_card]
      refine ok_andThen ?_
      rw [authenticateManagement, if_neg (not_not.mpr hkey), ← hsame.alg, ← hsame.key]
      exact ensures_mutualAuthenticate (by rw [hsame.alg, hsame.key]; exact hkey)
    · rw [hcopy] at hnone
      cases hnone
    · cases hunverified

/-- **The copy never runs ahead of the key, and the PIN unlocks as was asked.** The applet is no
HID Crescendo, which keeps no copy. Whatever answers are lost on the way, a change leaves the old
key and its copy, or the new key with the old copy or its own. After a change that reports success,
any later session on the card with the key and the copy as they were left, in which answers arrive,
finds the PIN that the card then has to unlock it, or not to, as long as a try is left. -/
theorem pin_unlocks_as_was_asked (cipher : MgmtCipher) (permissive lossy : Bool)
    (current : CurrentMgmtAuth) (alg : MgmtAlg) (key : List UInt8) (requireTouch allow : Bool)
    (hint : Option MgmtAlg) (s : MgmtCard) :
    Ensures (MgmtCard.Step cipher permissive lossy) (fun r _ t => LeftBy s alg key allow t ∧
      (r = .ok (.ran (.ok ())) → ∀ u hint' pin, t.SameKey u → SameCopy t u →
        padPin pin = .ok u.pin → 0 < u.tries → Ensures (MgmtCard.Step cipher permissive false)
          (fun r' _ v => (allow = true → r' = .ok () ∧ v.authorized = true) ∧
            (allow = false → r' = .error .pinProtectedKeyNotSet ∧ v.authorized = u.authorized))
          (authenticateManagementViaPin cipher ⟨false, permissive⟩ pin) hint' u))
      (setManagementKeyPinProtected ⟨false, permissive⟩ current alg key requireTouch allow)
      hint s := by
  refine (ensures_setManagementKeyPinProtected permissive current alg key requireTouch
    allow).mono ?_
  rintro r n t ⟨hleft, hdone⟩
  refine ⟨hleft, fun hok u hint' pin hsame hcopy hpin htries => ?_⟩
  obtain ⟨halg, hkey, hlen, hstored⟩ := hdone hok
  have hukey : u.key = key := hsame.key.trans hkey
  have hualg : u.alg = alg := hsame.alg.trans halg
  refine ensures_authenticateManagementViaPin hpin htries ?_ ?_
  · rw [hukey, hualg]
    exact hlen
  · rw [hukey]
    exact hcopy.trans hstored

end Sessions

/-! ### One change, and the session after it -/

def sampleKey : List UInt8 :=
  [0x00, 0x01, 0x02, 0x03, 0x04, 0x05, 0x06, 0x07, 0x08, 0x09, 0x0A, 0x0B, 0x0C, 0x0D, 0x0E, 0x0F]

/-- The witness that the card picks, and what AES-128 makes of it under `sampleKey`. -/
def sampleWitness : List UInt8 × List UInt8 :=
  ([0x00, 0x11, 0x22, 0x33, 0x44, 0x55, 0x66, 0x77, 0x88, 0x99, 0xAA, 0xBB, 0xCC, 0xDD, 0xEE, 0xFF],
    [0x69, 0xC4, 0xE0, 0xD8, 0x6A, 0x7B, 0x04, 0x30, 0xD8, 0xCD, 0xB7, 0x80, 0x70, 0xB4, 0xC5, 0x5A])

/-- The challenge that the host picks, and what AES-128 makes of it under `sampleKey`. -/
def sampleChallenge : List UInt8 × List UInt8 :=
  ([0xA0, 0xA1, 0xA2, 0xA3, 0xA4, 0xA5, 0xA6, 0xA7, 0xA8, 0xA9, 0xAA, 0xAB, 0xAC, 0xAD, 0xAE, 0xAF],
    [0x5E, 0x18, 0xD1, 0xFE, 0xF6, 0x1D, 0x08, 0x7E, 0xC0, 0xA3, 0x3E, 0xD7, 0x34, 0xA7, 0x91, 0x8F])

/-- AES-128 on these two blocks under this key; elsewhere any permutation will do. -/
def sampleBlocks : Equiv.Perm (List UInt8) :=
  (Equiv.swap sampleWitness.1 sampleWitness.2).trans
    (Equiv.swap sampleChallenge.1 sampleChallenge.2)

theorem length_swap {a b : List UInt8} (h : a.length = b.length) (block : List UInt8) :
    (Equiv.swap a b block).length = block.length := by
  rw [Equiv.swap_apply_def]
  split_ifs with hfirst hsecond
  · rw [hfirst, h]
  · rw [hsecond, h]
  · rfl

def sampleMgmtCipher : MgmtCipher where
  encrypt _ _ block := sampleBlocks block
  decrypt _ _ block := sampleBlocks.symm block
  length_encrypt := by
    intro alg key block hlen
    have hwitness : sampleWitness.1.length = sampleWitness.2.length := rfl
    have hchallenge : sampleChallenge.1.length = sampleChallenge.2.length := rfl
    rw [sampleBlocks, Equiv.trans_apply, length_swap hchallenge, length_swap hwitness, hlen]
  decrypt_encrypt := fun _ _ block _ _ => Equiv.symm_apply_apply sampleBlocks block

def samplePin : List UInt8 := [0x31, 0x32, 0x33, 0x34, 0x35, 0x36]

/-- A card with a 3DES key that has been shown it. Nothing is stored on it. -/
def factoryCard : MgmtCard where
  alg := .tripleDes
  key := List.replicate 24 0x01
  reportsMetadata := true
  pin := samplePin ++ [0xFF, 0xFF]
  tries := 3
  verified := false
  authorized := true
  witness := none
  objects := fun _ => []

/-- Admin Data with the flag that the PIN gives the key out. -/
def flaggedAdminData : List UInt8 := [0x80, 0x03, 0x81, 0x01, 0x02]

/-- The card after the change. -/
def changedCard : MgmtCard :=
  { factoryCard with
    alg := .aes128
    key := sampleKey
    objects := fun tag =>
      if tag = OBJECT_PIN_PROTECTED_DATA then copyFor sampleKey true
      else if tag = OBJECT_ADMIN_DATA then flaggedAdminData else [] }

/-- The same card, plugged in again. -/
def laterCard : MgmtCard := { changedCard with authorized := false }

theorem reaches_transmitMgmt {cipher : MgmtCipher} {permissive lossy : Bool} {m : Option MgmtAlg}
    {s t : MgmtCard} {apdu data : List UInt8} {sw : UInt16}
    (h : s.Handles cipher permissive (readMgmt apdu) data sw t) :
    Reaches (MgmtCard.Step cipher permissive lossy) (transmitMgmt apdu) m s (.ok (data, sw)) m t :=
  reaches_bind (reaches_ask (.answered h)) reaches_pure

/-- The card when the PIN has unlocked it. -/
def openedCard : MgmtCard := { laterCard with verified := true, authorized := true }

/-- The change goes through. -/
theorem reaches_change : Reaches (MgmtCard.Step sampleMgmtCipher false true)
    (setManagementKeyPinProtected ⟨false, false⟩ (.pin samplePin) .aes128 sampleKey false true)
    none factoryCard (.ok (.ran (.ok ()))) none changedCard := by
  let keyed : MgmtCard := { factoryCard with alg := .aes128, key := sampleKey }
  let flagged : MgmtCard :=
    { keyed with
      objects := fun tag => if tag = OBJECT_ADMIN_DATA then flaggedAdminData else [] }
  have hset : factoryCard.Handles sampleMgmtCipher false
      (readMgmt (setManagementKeyApdu .aes128 sampleKey false)) [] SW_OK keyed := by
    rw [readMgmt_setManagementKey _ (by decide)]
    exact .keySet _ _ true rfl
  have hread : keyed.Handles sampleMgmtCipher false (readMgmt (getData OBJECT_ADMIN_DATA)) []
      0x6A82 keyed := by
    rw [readMgmt_getAdminData]
    exact .notRead _ _ (by decide) (.inl rfl)
  have hflag : keyed.Handles sampleMgmtCipher false
      (readMgmt (putData OBJECT_ADMIN_DATA flaggedAdminData)) [] SW_OK flagged := by
    have hcommand : readMgmt (putData OBJECT_ADMIN_DATA flaggedAdminData) =
        .putData OBJECT_ADMIN_DATA flaggedAdminData := by decide
    rw [hcommand]
    exact .written _ _ rfl
  have hcopy : flagged.Handles sampleMgmtCipher false
      (readMgmt (putData OBJECT_PIN_PROTECTED_DATA (buildPinProtectedManagementKey sampleKey)))
      [] SW_OK changedCard := by
    rw [readMgmt_putPinProtectedData (by decide)]
    exact .written _ _ rfl
  refine reaches_andThen (reaches_andThen (reaches_transmitMgmt hset) reaches_pure) ?_
  refine reaches_andThen (reaches_andThen
    (reaches_andThen (reaches_transmitMgmt hread) reaches_pure)
    (reaches_andThen (reaches_transmitMgmt hflag) reaches_pure)) ?_
  exact reaches_bind (reaches_andThen (reaches_transmitMgmt hcopy) reaches_pure) reaches_pure

/-- The PIN lets the later session in. -/
theorem reaches_pin : Reaches (MgmtCard.Step sampleMgmtCipher false false)
    (authenticateManagementViaPin sampleMgmtCipher ⟨false, false⟩ samplePin) none laterCard
    (.ok ()) none openedCard := by
  let verified : MgmtCard := { laterCard with verified := true, tries := 3 }
  let started : MgmtCard := { verified with witness := some sampleWitness.1 }
  let answer (block : List UInt8) (tag : UInt8) : List UInt8 :=
    pushTlv [TAG_DYN_AUTH] (pushTlv [tag] block)
  have hverify : laterCard.Handles sampleMgmtCipher false
      (.verify (samplePin ++ [0xFF, 0xFF])) [] SW_OK verified := .verified _ 3 rfl (by decide)
  have hread : verified.Handles sampleMgmtCipher false (readMgmt (getData OBJECT_PIN_PROTECTED_DATA))
      (pushTlv [TAG_DATA_TEMPLATE] (copyFor sampleKey true)) SW_OK verified := by
    rw [readMgmt_getPinProtectedData]
    exact .read _ fun _ => rfl
  have hstart : verified.Handles sampleMgmtCipher false
      (readMgmt (generalAuthRequestWitness .aes128 KEY_REF_MANAGEMENT))
      (answer sampleWitness.2 0x80) SW_OK started := by
    rw [readMgmt_requestWitness]
    exact .witness sampleWitness.1 rfl
  have hprove : started.Handles sampleMgmtCipher false
      (readMgmt (generalAuthMutual .aes128 KEY_REF_MANAGEMENT sampleWitness.1 sampleChallenge.1))
      (answer sampleChallenge.2 0x82) SW_OK openedCard := by
    rw [readMgmt_mutual _ rfl rfl]
    exact .proved _ _ _ rfl (.inr ⟨0x82, .inl rfl, rfl⟩)
  have hrandom : started.Step sampleMgmtCipher false false (.getrandom 16)
      (some ⟨sampleChallenge.1, rfl⟩) started := .random 16 _
  have hwitness : decryptWitness sampleMgmtCipher .aes128 sampleKey (answer sampleWitness.2 0x80)
      SW_OK = .ok sampleWitness.1 := rfl
  have hjudge : judgeMutual sampleMgmtCipher ⟨false, false⟩ .aes128 sampleKey sampleChallenge.1
      (answer sampleChallenge.2 0x82) SW_OK = .ok () := rfl
  have hmutual : Reaches (MgmtCard.Step sampleMgmtCipher false false)
      (mutualAuthenticate sampleMgmtCipher ⟨false, false⟩ .aes128 sampleKey) none verified
      (.ok ()) none openedCard := by
    refine reaches_andThen (reaches_transmitMgmt hstart) ?_
    dsimp only
    rw [hwitness]
    refine reaches_bind (reaches_ask hrandom) (reaches_andThen (reaches_transmitMgmt hprove) ?_)
    dsimp only
    rw [hjudge]
    exact reaches_pure
  refine reaches_andThen (reaches_andThen (reaches_transmitMgmt hverify) reaches_pure) ?_
  refine reaches_andThen (reaches_transmitMgmt hread) ?_
  exact reaches_andThen (reaches_bind (reaches_ask .reported) reaches_pure) hmutual

/-- A change that reports success, and the later session: it does come to an end, and at every end
it has been let in. -/
theorem pin_unlocks_as_was_asked_aes128 :
    Reaches (MgmtCard.Step sampleMgmtCipher false false)
      (authenticateManagementViaPin sampleMgmtCipher ⟨false, false⟩ samplePin) none laterCard
      (.ok ()) none openedCard ∧
    Ensures (MgmtCard.Step sampleMgmtCipher false false)
      (fun r _ t => r = .ok () ∧ t.authorized = true)
      (authenticateManagementViaPin sampleMgmtCipher ⟨false, false⟩ samplePin) none laterCard := by
  have hchange := (pin_unlocks_as_was_asked sampleMgmtCipher false true (.pin samplePin) .aes128
    sampleKey false true none factoryCard).of_reaches reaches_change
  exact ⟨reaches_pin, (hchange.2 rfl laterCard none samplePin ⟨rfl, rfl, rfl⟩ rfl rfl
    (by decide)).mono fun _ _ _ h => h.1 rfl⟩

end Keyroost.Piv
