import Keyroost.Ctap.KeyMaps
import Keyroost.Ctap.LargeBlobCommands
import Keyroost.Library.Dialogue
import Keyroost.Proto.Sha

/-!
# Listing the credentials on a key

The two enumerations of `keyroost-ctap/src/cred_mgmt.rs`: the first answer claims a total, and each
further request brings one more item. A device may answer anything to any request, so the
enumerations are dialogues and nothing is assumed of the answers.

`listRelyingParties` and `listCredentials` are one function, `enumerate`, applied to their own
subcommands and parsers, as the source's two loops are the same but for these. `Lists` is what a
finished run must look like beside its log, and `enumerate_says` proves it once for both, by
induction on the items that are still to come. `listings_exact` is the result for each listing.
-/

namespace Keyroost.Ctap.CredMgmt

open Cbor Dialogue

def KEY_SUB_COMMAND : UInt64 := 0x01
def KEY_SUB_COMMAND_PARAMS : UInt64 := 0x02
def KEY_PIN_UV_AUTH_PROTOCOL : UInt64 := 0x03
def KEY_PIN_UV_AUTH_PARAM : UInt64 := 0x04

def SUB_ENUMERATE_RPS_BEGIN : UInt8 := 0x02
def SUB_ENUMERATE_RPS_NEXT : UInt8 := 0x03
def SUB_ENUMERATE_CREDS_BEGIN : UInt8 := 0x04
def SUB_ENUMERATE_CREDS_NEXT : UInt8 := 0x05

def CTAP2_ERR_NO_CREDENTIALS : UInt8 := 0x2e

def PARAM_RP_ID_HASH : UInt64 := 0x01

def RESP_RP : UInt64 := 0x03
def RESP_RP_ID_HASH : UInt64 := 0x04
def RESP_TOTAL_RPS : UInt64 := 0x05
def RESP_USER : UInt64 := 0x06
def RESP_CREDENTIAL_ID : UInt64 := 0x07
def RESP_PUBLIC_KEY : UInt64 := 0x08
def RESP_TOTAL_CREDS : UInt64 := 0x09
def RESP_LARGE_BLOB_KEY : UInt64 := 0x0b

def MAX_ENUMERATED : Nat := 4096

/-! ### Requests and answers -/

/-- A message to the key is answered with bytes, or not. -/
abbrev CtapAnswer : List UInt8 → Type := fun _ => Except CtapError (List UInt8)

structure CredentialManager where
  token : PinUvAuthToken
  cmdCode : UInt8
deriving DecidableEq, Repr

def buildRequest (c : Crypto) (m : CredentialManager) (sub : UInt8) (params : Option Value) :
    List UInt8 :=
  let authInput := sub :: (params.map encode).getD []
  encode (.map ([(.uInt KEY_SUB_COMMAND, .uInt sub.toUInt64)] ++
    (params.map fun p => (Value.uInt KEY_SUB_COMMAND_PARAMS, p)).toList ++
    [(.uInt KEY_PIN_UV_AUTH_PROTOCOL, .uInt m.token.protocol.toUInt64),
      (.uInt KEY_PIN_UV_AUTH_PARAM, .bytes (m.token.authenticate c authInput))]))

def decodeResponse : List UInt8 → Except CtapError Value
  | [] => .error .emptyResponse
  | status :: body =>
      if status ≠ 0 then .error (.statusCode status)
      else if body = [] then .ok (.map [])
      else
        match decode body with
        | .ok (value, _) => .ok value
        | .error e => .error (.cbor e)

def dispatch (c : Crypto) (m : CredentialManager) (sub : UInt8) (params : Option Value) :
    Dialogue CtapAnswer (Except CtapError Value) :=
  .ask (m.cmdCode :: buildRequest c m sub params) fun resp => .done (resp >>= decodeResponse)

def fieldUInt (v : Value) (key : UInt64) : Option UInt64 := (v.getUIntKey key).bind Value.asUInt

/-! ### Items -/

structure RelyingParty where
  id : RustStr
  name : Option RustStr
  rpIdHash : Option Bytes32
deriving DecidableEq, Repr

structure CredentialUser where
  id : List UInt8
  name : Option RustStr
  displayName : Option RustStr
deriving DecidableEq, Repr

structure Credential where
  credentialId : List UInt8
  user : CredentialUser
  algorithm : Option Int64
  largeBlobKey : Option Bytes32
deriving DecidableEq

/-- One entry of the RP entity: its id and its name. -/
def rpField (rp : RustStr × Option RustStr) (entry : Value × Value) : RustStr × Option RustStr :=
  let val := entry.2
  if entry.1.asText = some "id".toList then (val.asText.getD [], rp.2)
  else if entry.1.asText = some "name".toList then (rp.1, val.asText)
  else rp

def parseRp (v : Value) : Except CtapError RelyingParty :=
  match v.getUIntKey RESP_RP with
  | none => .error (.invalidResponseShape "missing RP entity")
  | some entity =>
      let rp := (entity.asMap.getD []).foldl rpField ([], none)
      .ok { id := rp.1, name := rp.2, rpIdHash := (v.getUIntKey RESP_RP_ID_HASH).bind asBytes32 }

def userField (user : CredentialUser) (entry : Value × Value) : CredentialUser :=
  let val := entry.2
  if entry.1.asText = some "id".toList then { user with id := val.asBytes.getD [] }
  else if entry.1.asText = some "name".toList then { user with name := val.asText }
  else if entry.1.asText = some "displayName".toList then { user with displayName := val.asText }
  else user

def idField (id : List UInt8) (entry : Value × Value) : List UInt8 :=
  if entry.1.asText = some "id".toList then entry.2.asBytes.getD [] else id

def parseCredential (v : Value) : Except CtapError Credential :=
  match v.getUIntKey RESP_USER with
  | none => .error (.invalidResponseShape "missing user entity")
  | some user =>
      match v.getUIntKey RESP_CREDENTIAL_ID with
      | none => .error (.invalidResponseShape "missing credentialId")
      | some credDesc =>
          .ok {
            credentialId := (credDesc.asMap.getD []).foldl idField []
            user := (user.asMap.getD []).foldl userField { id := [], name := none, displayName := none }
            algorithm := (v.getUIntKey RESP_PUBLIC_KEY).bind publicKeyAlgorithm
            largeBlobKey := (v.getUIntKey RESP_LARGE_BLOB_KEY).bind asBytes32 }

/-! ### The enumerations -/

def checkedTotal (total : Nat) : Except CtapError Nat :=
  if MAX_ENUMERATED < total then
    .error (.invalidResponseShape "authenticator claimed an implausible enumeration count")
  else .ok total

section Enumerate

variable {α : Type} (next : Dialogue CtapAnswer (Except CtapError Value))
  (parse : Value → Except CtapError α)

/-- The loop `while out.len() < total`, with so many items to go. -/
def enumerateNext : Nat → List α → Dialogue CtapAnswer (Except CtapError (List α))
  | 0, out => .done (.ok out)
  | toGo + 1, out => next >>= fun resp =>
      match resp >>= parse with
      | .error e => .done (.error e)
      | .ok item => enumerateNext toGo (out ++ [item])

/-- What both enumerations do with their first answer; the total is a `usize` of 64 bits. A key
without credentials answers with a status of its own, which is no error here. -/
def enumerate (begin : Dialogue CtapAnswer (Except CtapError Value)) (totalKey : UInt64) :
    Dialogue CtapAnswer (Except CtapError (List α)) :=
  begin >>= fun resp =>
    match resp with
    | .error e => if e = .statusCode CTAP2_ERR_NO_CREDENTIALS then .done (.ok []) else .done (.error e)
    | .ok first =>
        match checkedTotal ((fieldUInt first totalKey).getD 0).toNat with
        | .error e => .done (.error e)
        | .ok total =>
            if total = 0 then .done (.ok [])
            else
              match parse first with
              | .error e => .done (.error e)
              | .ok item => enumerateNext next parse (total - 1) [item]

end Enumerate

variable (c : Crypto) (m : CredentialManager)

def listRelyingParties : Dialogue CtapAnswer (Except CtapError (List RelyingParty)) :=
  enumerate (dispatch c m SUB_ENUMERATE_RPS_NEXT none) parseRp
    (dispatch c m SUB_ENUMERATE_RPS_BEGIN none) RESP_TOTAL_RPS

def listCredentials (rpIdHash : Bytes32) : Dialogue CtapAnswer (Except CtapError (List Credential)) :=
  let params := Value.map [(.uInt PARAM_RP_ID_HASH, .bytes rpIdHash)]
  enumerate (dispatch c m SUB_ENUMERATE_CREDS_NEXT none) parseCredential
    (dispatch c m SUB_ENUMERATE_CREDS_BEGIN (some params)) RESP_TOTAL_CREDS

/-! ### What a run returns -/

/-- The value of an answer, after its status. -/
def valueOf (asked : Asked CtapAnswer) : Except CtapError Value := asked.2 >>= decodeResponse

/-- The total that an answer claims; a key without credentials has a status for it. -/
def claimedTotal (totalKey : UInt64) (asked : Asked CtapAnswer) : Option Nat :=
  match valueOf asked with
  | .ok v => some ((fieldUInt v totalKey).getD 0).toNat
  | .error e => if e = .statusCode CTAP2_ERR_NO_CREDENTIALS then some 0 else none

/-- A run of bounded length, that fails or returns as many items as its first answer claims, one
from each answer and in their order. -/
structure Lists {α : Type} (totalKey : UInt64) (parse : Value → Except CtapError α)
    (log : List (Asked CtapAnswer)) (r : Except CtapError (List α)) : Prop where
  bounded : log.length ≤ MAX_ENUMERATED
  items : ∀ items, r = .ok items → ∃ first rest, log = first :: rest ∧
    claimedTotal totalKey first = some items.length ∧
    log.length = max 1 items.length ∧
    (log.take items.length).map (fun asked => valueOf asked >>= parse) = items.map .ok

theorem says_dispatch {sub : UInt8} {params : Option Value} {log : List (Asked CtapAnswer)}
    {r : Except CtapError Value} (h : Says (dispatch c m sub params) log r) :
    ∃ asked, log = [asked] ∧ r = valueOf asked := by
  obtain ⟨a, rest, rfl, hdone⟩ := says_ask.mp h
  obtain ⟨rfl, rfl⟩ := says_done.mp hdone
  exact ⟨_, rfl, rfl⟩

section Enumerate

variable {α : Type} {next begin : Dialogue CtapAnswer (Except CtapError Value)}
  {parse : Value → Except CtapError α}

/-- The requests and answers of one exchange. -/
def OneAnswer (p : Dialogue CtapAnswer (Except CtapError Value)) : Prop :=
  ∀ log r, Says p log r → ∃ asked, log = [asked] ∧ r = valueOf asked

/-- Every turn of the loop brings one item, or is the last. -/
theorem enumerateNext_says (hnext : OneAnswer next) {toGo : Nat} {out : List α}
    {log : List (Asked CtapAnswer)} {r : Except CtapError (List α)}
    (h : Says (enumerateNext next parse toGo out) log r) :
    log.length ≤ toGo ∧ ∀ items, r = .ok items → log.length = toGo ∧
      ∃ more, items = out ++ more ∧
        log.map (fun asked => valueOf asked >>= parse) = more.map .ok := by
  induction toGo generalizing out log with
  | zero =>
      obtain ⟨rfl, rfl⟩ := says_done.mp h
      refine ⟨Nat.le_refl 0, ?_⟩
      intro items hitems
      cases hitems
      exact ⟨rfl, [], (List.append_nil out).symm, rfl⟩
  | succ toGo ih =>
      obtain ⟨first, resp, rest, rfl, hfirst, hrest⟩ := says_bind.mp h
      obtain ⟨asked, rfl, rfl⟩ := hnext first resp hfirst
      cases hitem : valueOf asked >>= parse with
      | error e =>
          rw [hitem] at hrest
          obtain ⟨rfl, rfl⟩ := says_done.mp hrest
          exact ⟨Nat.succ_le_succ (Nat.zero_le toGo), nofun⟩
      | ok item =>
          rw [hitem] at hrest
          obtain ⟨hlength, hitems⟩ := ih hrest
          refine ⟨Nat.succ_le_succ hlength, ?_⟩
          intro items hr
          obtain ⟨hexact, more, rfl, hmap⟩ := hitems items hr
          refine ⟨congrArg Nat.succ hexact, item :: more, ?_, ?_⟩
          · rw [List.append_assoc]
            rfl
          · rw [List.singleton_append, List.map_cons, List.map_cons, hmap, hitem]

/-- A run that ends at its first answer. -/
theorem lists_first {totalKey : UInt64} {asked : Asked CtapAnswer}
    {r : Except CtapError (List α)}
    (h : ∀ items, r = .ok items → items = [] ∧ claimedTotal totalKey asked = some 0) :
    Lists totalKey parse [asked] r := by
  refine ⟨Nat.le_of_ble_eq_true rfl, ?_⟩
  intro items hitems
  obtain ⟨rfl, htotal⟩ := h items hitems
  exact ⟨asked, [], rfl, htotal, rfl, rfl⟩

theorem claimedTotal_ok {totalKey : UInt64} {asked : Asked CtapAnswer} {v : Value}
    (h : valueOf asked = .ok v) :
    claimedTotal totalKey asked = some ((fieldUInt v totalKey).getD 0).toNat := by
  rw [claimedTotal, h]

theorem claimedTotal_none {totalKey : UInt64} {asked : Asked CtapAnswer}
    (h : valueOf asked = .error (.statusCode CTAP2_ERR_NO_CREDENTIALS)) :
    claimedTotal totalKey asked = some 0 := by
  rw [claimedTotal, h]
  exact if_pos rfl

theorem enumerate_says {totalKey : UInt64} (hnext : OneAnswer next) (hbegin : OneAnswer begin)
    {log : List (Asked CtapAnswer)} {r : Except CtapError (List α)}
    (h : Says (enumerate next parse begin totalKey) log r) : Lists totalKey parse log r := by
  obtain ⟨first, resp, rest, rfl, hfirst, hrest⟩ := says_bind.mp h
  obtain ⟨asked, rfl, rfl⟩ := hbegin first resp hfirst
  cases hvalue : valueOf asked with
  | error e =>
      rw [hvalue] at hrest
      dsimp only at hrest
      split at hrest
      · rename_i hnone
        obtain ⟨rfl, rfl⟩ := says_done.mp hrest
        refine lists_first ?_
        intro items hitems
        cases hitems
        exact ⟨rfl, claimedTotal_none (hnone ▸ hvalue)⟩
      · obtain ⟨rfl, rfl⟩ := says_done.mp hrest
        exact lists_first nofun
  | ok v =>
      have htotal : claimedTotal totalKey asked = _ := claimedTotal_ok hvalue
      rw [hvalue] at hrest
      dsimp only at hrest
      generalize ((fieldUInt v totalKey).getD 0).toNat = total at htotal hrest
      rw [checkedTotal] at hrest
      split at hrest
      · rename_i e hchecked
        obtain ⟨rfl, rfl⟩ := says_done.mp hrest
        exact lists_first nofun
      · rename_i total' hchecked
        split at hchecked
        · cases hchecked
        · rename_i hmax
          obtain rfl := Except.ok.inj hchecked
          split at hrest
          · rename_i hzero
            obtain ⟨rfl, rfl⟩ := says_done.mp hrest
            refine lists_first ?_
            intro items hitems
            cases hitems
            exact ⟨rfl, hzero ▸ htotal⟩
          · rename_i hpos
            cases hitem : parse v with
            | error e =>
                rw [hitem] at hrest
                obtain ⟨rfl, rfl⟩ := says_done.mp hrest
                exact lists_first nofun
            | ok item =>
                rw [hitem] at hrest
                obtain ⟨hlength, hitems⟩ := enumerateNext_says hnext hrest
                have hone : valueOf asked >>= parse = .ok item := by
                  rw [hvalue]
                  exact hitem
                refine ⟨?_, ?_⟩
                · rw [List.length_append, List.length_singleton]
                  omega
                · intro items hr
                  obtain ⟨hexact, more, rfl, hmap⟩ := hitems items hr
                  have hmore := congrArg List.length hmap
                  rw [List.length_map, List.length_map] at hmore
                  have hcount : ([item] ++ more).length = total := by
                    rw [List.length_append, List.length_singleton]
                    omega
                  refine ⟨asked, rest, rfl, ?_, ?_, ?_⟩
                  · rw [hcount]
                    exact htotal
                  · rw [List.length_append, List.length_singleton, hcount]
                    omega
                  · rw [List.take_of_length_le, List.map_append, hmap, List.map_append,
                      List.map_singleton, hone]
                    · rfl
                    · rw [List.length_append, List.length_append, hmore]
                      rfl

end Enumerate

/-- **Every run of either listing sends at most 4096 requests, and fails or returns as many items as
its first answer claims, in the order of the answers.** The log is that of any conversation, with a
device that may answer each request as it likes. -/
theorem listings_exact (c : Crypto) (m : CredentialManager) (rpIdHash : Bytes32)
    (log : List (Asked CtapAnswer)) :
    (∀ r, Says (listRelyingParties c m) log r → Lists RESP_TOTAL_RPS parseRp log r) ∧
    ∀ r, Says (listCredentials c m rpIdHash) log r →
      Lists RESP_TOTAL_CREDS parseCredential log r :=
  ⟨fun _ => enumerate_says (fun _ _ => says_dispatch c m) fun _ _ => says_dispatch c m,
    fun _ => enumerate_says (fun _ _ => says_dispatch c m) fun _ _ => says_dispatch c m⟩

/-! ### A key with two relying parties -/

/-- The listings hash and authenticate. They neither encrypt nor inflate. -/
def listingCrypto : Crypto where
  sha256 := Proto.Sha256.digest
  hmacSha256 := Proto.Sha256.hmac
  aesGcmEncrypt _ _ plain _ := plain
  aesGcmDecrypt _ _ cipher _ := some cipher
  inflate _ _ := none
  length_sha256 := Proto.Sha256.length_digest
  length_hmacSha256 := Proto.Sha256.length_hmac

/-- The token is the bytes `1` to `32`. -/
def sampleManager : CredentialManager :=
  { token := { protocol := 2, token := (List.range' 1 32).map Nat.toUInt8 }, cmdCode := 0x0a }

def sampleRequest (sub : UInt8) : List UInt8 :=
  sampleManager.cmdCode :: buildRequest listingCrypto sampleManager sub none

/-- A key claims two relying parties and names them. -/
def twoParties : List (Asked CtapAnswer) :=
  [⟨sampleRequest SUB_ENUMERATE_RPS_BEGIN,
      .ok [0x00, 0xa2, 0x03, 0xa1, 0x62, 0x69, 0x64, 0x61, 0x61, 0x05, 0x02]⟩,
    ⟨sampleRequest SUB_ENUMERATE_RPS_NEXT, .ok [0x00, 0xa1, 0x03, 0xa1, 0x62, 0x69, 0x64, 0x61, 0x62]⟩]

/-- The second listing meets a key without credentials. -/
theorem listings_exact_twoParties :
    Lists RESP_TOTAL_RPS parseRp twoParties
      (.ok [{ id := ['a'], name := none, rpIdHash := none },
        { id := ['b'], name := none, rpIdHash := none }]) ∧
    Lists RESP_TOTAL_CREDS parseCredential
      [⟨sampleManager.cmdCode :: buildRequest listingCrypto sampleManager
          SUB_ENUMERATE_CREDS_BEGIN (some (.map [(.uInt PARAM_RP_ID_HASH, .bytes ones32)])),
        .ok [CTAP2_ERR_NO_CREDENTIALS]⟩] (.ok []) := by
  constructor
  · refine (listings_exact listingCrypto sampleManager ones32 twoParties).1 _ ?_
    refine Says.ask _ ?_
    refine Says.ask _ ?_
    exact Says.done
  · refine (listings_exact listingCrypto sampleManager ones32 _).2 _ ?_
    refine Says.ask _ ?_
    exact Says.done

end Keyroost.Ctap.CredMgmt
