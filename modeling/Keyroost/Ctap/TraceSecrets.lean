import Keyroost.Ctap.CredentialListing
import Keyroost.Ctap.LargeBlobTransfer
import Keyroost.Ctap.PinKept
import Keyroost.Ctap.Trace

/-!
# The debug trace tells no secret

Every request that `keyroost-ctap` builds, with what its builder is given (`Request`); those of
`keyroost-ctap/src/bio_enroll.rs` and `keyroost-ctap/src/config.rs` are written out here. Two
runs that differ only in secrets leave the same lines, over USB and through a smart-card reader.

That is a statement about two runs, so it needs to say what may differ: `Request.Alike` allows any
two requests of one length that both hold secrets, and the answer to such a request may be any
other of the same length. `sensitive_eq` shows that both runs are withheld or neither is, and
`shownAlike` that what is shown is then the same. The rest goes through the transports, an
induction over the attempts of `Trace` and one over the lines of a reader.

That no other requests are sent is proved beside it: each operation of `keyroost-ctap` is gone
through for what it sends (`pin_operations_send`, `listings_ask`, `largeBlobs_send`).
-/

namespace Keyroost.Ctap.Trace

open Cbor ClientPin Dialogue Transport

/-! ### Fingerprints and configuration -/

def CTAP2_RESET : UInt8 := 0x07
def CTAP2_BIO_ENROLLMENT : UInt8 := 0x09
def CTAP2_CREDENTIAL_MANAGEMENT : UInt8 := 0x0A
def CTAP2_CONFIG : UInt8 := 0x0D
def CTAP2_BIO_ENROLLMENT_PREVIEW : UInt8 := 0x40
def CTAP2_CREDENTIAL_MANAGEMENT_PREVIEW : UInt8 := 0x41

def MODALITY_FINGERPRINT : UInt64 := 0x01

namespace BioEnrollment

def KEY_MODALITY : UInt64 := 0x01
def KEY_SUB_COMMAND : UInt64 := 0x02
def KEY_SUB_COMMAND_PARAMS : UInt64 := 0x03
def KEY_PIN_UV_AUTH_PROTOCOL : UInt64 := 0x04
def KEY_PIN_UV_AUTH_PARAM : UInt64 := 0x05

def commandEntries (sub : UInt8) : List (Value × Value) :=
  [(.uInt KEY_MODALITY, .uInt MODALITY_FINGERPRINT), (.uInt KEY_SUB_COMMAND, .uInt sub.toUInt64)]

def buildRequest (c : Crypto) (token : PinUvAuthToken) (sub : UInt8) (params : Option Value) :
    Value :=
  let authInput := MODALITY_FINGERPRINT.toUInt8 :: sub :: (params.map encode).getD []
  .map (commandEntries sub ++
    (params.map fun p => (Value.uInt KEY_SUB_COMMAND_PARAMS, p)).toList ++
    [(.uInt KEY_PIN_UV_AUTH_PROTOCOL, .uInt token.protocol.toUInt64),
      (.uInt KEY_PIN_UV_AUTH_PARAM, .bytes (token.authenticate c authInput))])

end BioEnrollment

namespace Config

def KEY_SUB_COMMAND : UInt64 := 0x01
def KEY_SUB_COMMAND_PARAMS : UInt64 := 0x02
def KEY_PIN_UV_AUTH_PROTOCOL : UInt64 := 0x03
def KEY_PIN_UV_AUTH_PARAM : UInt64 := 0x04

def configAuthInput (sub : UInt8) (params : Option Value) : List UInt8 :=
  List.replicate 32 0xff ++ [CTAP2_CONFIG, sub] ++ (params.map encode).getD []

def buildRequest (c : Crypto) (token : PinUvAuthToken) (sub : UInt8) (params : Option Value) :
    List UInt8 :=
  encode (.map ([(.uInt KEY_SUB_COMMAND, .uInt sub.toUInt64)] ++
    (params.map fun p => (Value.uInt KEY_SUB_COMMAND_PARAMS, p)).toList ++
    [(.uInt KEY_PIN_UV_AUTH_PROTOCOL, .uInt token.protocol.toUInt64),
      (.uInt KEY_PIN_UV_AUTH_PARAM, .bytes (token.authenticate c (configAuthInput sub params)))]))

end Config

/-! ### Requests -/

/-- A command by its final byte or the one of its preview. The subcommands and their parameters are
the same under both. -/
inductive Edition where
  | final
  | preview
deriving DecidableEq, Repr

def credentialCode : Edition → UInt8
  | .final => CTAP2_CREDENTIAL_MANAGEMENT
  | .preview => CTAP2_CREDENTIAL_MANAGEMENT_PREVIEW

def bioCode : Edition → UInt8
  | .final => CTAP2_BIO_ENROLLMENT
  | .preview => CTAP2_BIO_ENROLLMENT_PREVIEW

/-- The requests that carry no secret. -/
inductive PlainRequest where
  | getInfo
  | reset
  | getPinRetries
  | getKeyAgreement (protocol : UInt32)
deriving DecidableEq, Repr

def PlainRequest.payload : PlainRequest → List UInt8
  | getInfo => [CTAP2_GET_INFO]
  | reset => [CTAP2_RESET]
  | getPinRetries =>
      CTAP2_CLIENT_PIN :: buildRequestExtra PIN_PROTOCOL_V1 SUB_GET_PIN_RETRIES []
  | getKeyAgreement protocol =>
      CTAP2_CLIENT_PIN :: buildRequestExtra protocol SUB_GET_KEY_AGREEMENT []

/-- What a PIN command has after its key agreement: the protocol that both sides have, as the choice
and as its operations, and the host's own key of this agreement. -/
structure Agreed (Key : Type) where
  chosen : SelectedPinProtocol
  proto : PinProtocol
  own : Key
deriving DecidableEq, Repr

/-- The requests of the crate. Those of credentials, fingerprints and configuration have any
subcommand and any parameters. -/
inductive Request (Key : Type) where
  | plain (r : PlainRequest)
  | setPin (agreed : Agreed Key) (iv : Iv) (newPin : RustStr)
  | changePin (agreed : Agreed Key) (iv iv' : Iv) (oldPin newPin : RustStr)
  | getPinToken (agreed : Agreed Key) (iv : Iv) (pin : RustStr)
  | getPinUvAuthToken (agreed : Agreed Key) (iv : Iv) (pin : RustStr) (permissions : UInt32)
      (rpId : Option RustStr)
  | credentialManagement (edition : Edition) (token : PinUvAuthToken) (sub : UInt8)
      (params : Option Value)
  | bioEnrollment (edition : Edition) (token : PinUvAuthToken) (sub : UInt8)
      (params : Option Value)
  /-- Of the sensor and to cancel: these need no token. -/
  | bioCommand (edition : Edition) (sub : UInt8)
  | config (token : PinUvAuthToken) (sub : UInt8) (params : Option Value)
  | largeBlobsGet (offset count : Nat)
  | largeBlobsSet (token : PinUvAuthToken) (offset : Nat) (total : Option Nat)
      (fragment : List UInt8)
deriving Repr

namespace Request

variable {Key : Type} (c : PinCrypto Key)

/-- A PIN command: the public key of the host, and what else the command has. -/
def pinCommand (agreed : Agreed Key) (sub : UInt8) (rest : List (Value × Value)) : List UInt8 :=
  CTAP2_CLIENT_PIN :: buildRequestExtra agreed.chosen.version sub
    ((.uInt KEY_KEY_AGREEMENT, coseP256Public (c.publicXy agreed.own)) :: rest)

def pinHashEnc (agreed : Agreed Key) (iv : Iv) (pin : RustStr) : List UInt8 :=
  agreed.proto.encrypt c iv (c.left16Sha256 pin.asBytes)

def newPinEnc (agreed : Agreed Key) (iv : Iv) (newPin : RustStr) : List UInt8 :=
  agreed.proto.encrypt c iv (padPinTo64 newPin)

/-- The message of a request, from its command byte on. -/
def payload : Request Key → List UInt8
  | plain r => r.payload
  | setPin agreed iv newPin =>
      pinCommand c agreed SUB_SET_PIN (setEntries c agreed.proto (newPinEnc c agreed iv newPin))
  | changePin agreed iv iv' oldPin newPin =>
      pinCommand c agreed SUB_CHANGE_PIN (changeEntries c agreed.proto
        (newPinEnc c agreed iv newPin) (pinHashEnc c agreed iv' oldPin))
  | getPinToken agreed iv pin =>
      pinCommand c agreed SUB_GET_PIN_TOKEN
        [(.uInt KEY_PIN_HASH_ENC, .bytes (pinHashEnc c agreed iv pin))]
  | getPinUvAuthToken agreed iv pin permissions rpId =>
      pinCommand c agreed SUB_GET_PIN_UV_AUTH_TOKEN_USING_PIN
        ((.uInt KEY_PIN_HASH_ENC, .bytes (pinHashEnc c agreed iv pin)) ::
          permissionEntries permissions rpId)
  | credentialManagement edition token sub params =>
      credentialCode edition ::
        CredMgmt.buildRequest c.toCrypto ⟨token, credentialCode edition⟩ sub params
  | bioEnrollment edition token sub params =>
      bioCode edition :: encode (BioEnrollment.buildRequest c.toCrypto token sub params)
  | bioCommand edition sub =>
      bioCode edition :: encode (.map (BioEnrollment.commandEntries sub))
  | config token sub params => CTAP2_CONFIG :: Config.buildRequest c.toCrypto token sub params
  | largeBlobsGet offset count => requestBytes (getParams offset count)
  | largeBlobsSet token offset total fragment =>
      requestBytes (setParams c.toCrypto token offset total fragment)

/-- What is left of a request without its secrets. -/
def plain? : Request Key → Option PlainRequest
  | plain r => some r
  | _ => none

end Request

/-! ### Reading a PIN command back -/

theorem many_of_reads {ε α : Type} {item : Reader ε α} {pre data rest : List UInt8} {a : α}
    {as : List α} {count : Nat} (h : Reader.Reads item pre a)
    (hmany : Reader.many item (count + 1) (pre ++ data) = .ok (as, rest)) :
    ∃ as', as = a :: as' ∧ Reader.many item count data = .ok (as', rest) := by
  obtain ⟨b, mid, hitem, hrest⟩ := Reader.andThen_eq_ok.mp hmany
  rw [h data] at hitem
  obtain ⟨rfl, rfl⟩ := Prod.mk.inj (Except.ok.inj hitem)
  obtain ⟨as', mid', hmany', hdone⟩ := Reader.andThen_eq_ok.mp hrest
  obtain ⟨rfl, rfl⟩ := Prod.mk.inj (Except.ok.inj hdone)
  exact ⟨as', rfl, hmany'⟩

theorem reads_uIntPair {left : Nat} (k v : UInt64) :
    Reader.Reads (Reader.pair (decodeAt (left + 1)) (decodeAt (left + 1)))
      (encode (.uInt k) ++ encode (.uInt v)) (.uInt k, .uInt v) := by
  have huint (n : UInt64) : Reader.Reads (decodeAt (left + 1)) (encode (.uInt n)) (.uInt n) :=
    reads_encode trivial (Nat.zero_le left)
  exact (huint k).pair (huint v)

/-- A map that decodes is read entry by entry, as many as its header says. -/
theorem decode_map {entries : List (Value × Value)} {value : Value} {rest : List UInt8}
    (h : decode (encode (.map entries)) = .ok (value, rest)) :
    ∃ pairs, value = .map pairs ∧
      Reader.many (Reader.pair (decodeAt DECODE_DEPTH_LIMIT) (decodeAt DECODE_DEPTH_LIMIT))
        entries.length.toUInt64.toNat (encodeEntries entries) = .ok (pairs, rest) := by
  obtain ⟨additional, hheader⟩ :=
    reads_encodeHeader (show MT_MAP < 8 by decide) entries.length.toUInt64
  rw [encode, decode, decodeAt] at h
  obtain ⟨header, mid, hread, hbody⟩ := Reader.andThen_eq_ok.mp h
  rw [hheader (encodeEntries entries)] at hread
  obtain ⟨rfl, rfl⟩ := Prod.mk.inj (Except.ok.inj hread)
  have hmap : Reader.andThen
      (Reader.many (Reader.pair (decodeAt DECODE_DEPTH_LIMIT) (decodeAt DECODE_DEPTH_LIMIT))
        entries.length.toUInt64.toNat) (fun pairs => Reader.done (.map pairs))
      (encodeEntries entries) = .ok (value, rest) := hbody
  obtain ⟨pairs, mid', hmany, hdone⟩ := Reader.andThen_eq_ok.mp hmap
  obtain ⟨rfl, rfl⟩ := Prod.mk.inj (Except.ok.inj hdone)
  exact ⟨pairs, rfl, hmany⟩

/-- Whatever else a PIN command has, its second entry is the subcommand that is found, where
one is found. -/
theorem clientPinSubcommand_build (protocol : UInt32) (sub : UInt8)
    (extra : List (Value × Value)) :
    clientPinSubcommand (buildRequestExtra protocol sub extra) = none ∨
      clientPinSubcommand (buildRequestExtra protocol sub extra) = some sub.toUInt64 := by
  cases hdecode : decode (buildRequestExtra protocol sub extra) with
  | error e =>
      left
      rw [clientPinSubcommand, hdecode]
  | ok read =>
      obtain ⟨value, rest⟩ := read
      obtain ⟨pairs, rfl, hmany⟩ := decode_map hdecode
      rw [clientPinSubcommand, hdecode]
      have hbytes : encodeEntries (requestEntries protocol sub extra) =
          (encode (.uInt KEY_PIN_PROTOCOL) ++ encode (.uInt protocol.toUInt64)) ++
            ((encode (.uInt ClientPin.KEY_SUB_COMMAND) ++ encode (.uInt sub.toUInt64)) ++
              encodeEntries extra) := rfl
      rw [hbytes] at hmany
      generalize (requestEntries protocol sub extra).length.toUInt64.toNat = count at hmany
      -- A count that wrapped to 0 or 1 leaves no subcommand; any other reads both entries.
      rcases count with _ | _ | count
      · obtain ⟨rfl, -⟩ := Prod.mk.inj (Except.ok.inj hmany)
        exact .inl rfl
      · obtain ⟨pairs', rfl, hnone⟩ := many_of_reads (reads_uIntPair _ _) hmany
        obtain ⟨rfl, -⟩ := Prod.mk.inj (Except.ok.inj hnone)
        exact .inl rfl
      · obtain ⟨pairs', rfl, hmore⟩ := many_of_reads (reads_uIntPair _ _) hmany
        obtain ⟨pairs'', rfl, -⟩ := many_of_reads (reads_uIntPair _ _) hmore
        exact .inr rfl

/-- A PIN command of any other subcommand is withheld. -/
theorem withheld_of_subcommand (protocol : UInt32) {sub : UInt8} (extra : List (Value × Value))
    (hretries : sub ≠ SUB_GET_PIN_RETRIES) (hagreement : sub ≠ SUB_GET_KEY_AGREEMENT) :
    exchangeIsSensitive CTAPHID_CBOR
      (CTAP2_CLIENT_PIN :: buildRequestExtra protocol sub extra) = true := by
  have hone : sub.toUInt64 ≠ 0x01 := fun h => hretries (UInt8.toUInt64_inj.mp h)
  have htwo : sub.toUInt64 ≠ 0x02 := fun h => hagreement (UInt8.toUInt64_inj.mp h)
  show (!(_ == some 0x01 || _ == some 0x02)) = true
  rcases clientPinSubcommand_build protocol sub extra with h | h
  · rw [h]
    rfl
  · rw [h]
    simp [hone, htwo]

/-! ### What is shown of two runs -/

section

variable {Key : Type} {c : PinCrypto Key}

theorem withheld_of_first {first : UInt8} (body : List UInt8)
    (h : first ∈ [(0x0A : UInt8), 0x41, 0x09, 0x40, 0x0C, 0x0D]) :
    exchangeIsSensitive CTAPHID_CBOR (first :: body) = true := by
  rw [exchangeIsSensitive, if_neg (by decide), if_neg (by decide), if_pos h]

theorem bioCode_mem (edition : Edition) :
    bioCode edition ∈ [(0x0A : UInt8), 0x41, 0x09, 0x40, 0x0C, 0x0D] := by
  cases edition <;> decide

theorem credentialCode_mem (edition : Edition) :
    credentialCode edition ∈ [(0x0A : UInt8), 0x41, 0x09, 0x40, 0x0C, 0x0D] := by
  cases edition <;> decide

/-- Every request with a secret is withheld. -/
theorem withheld_of_secret {r : Request Key} (h : r.plain? = none) :
    exchangeIsSensitive CTAPHID_CBOR (r.payload c) = true := by
  cases r with
  | plain r => cases h
  | setPin => exact withheld_of_subcommand _ _ (by decide) (by decide)
  | changePin => exact withheld_of_subcommand _ _ (by decide) (by decide)
  | getPinToken => exact withheld_of_subcommand _ _ (by decide) (by decide)
  | getPinUvAuthToken => exact withheld_of_subcommand _ _ (by decide) (by decide)
  | credentialManagement edition => exact withheld_of_first _ (credentialCode_mem edition)
  | bioEnrollment edition => exact withheld_of_first _ (bioCode_mem edition)
  | bioCommand edition => exact withheld_of_first _ (bioCode_mem edition)
  | config => exact withheld_of_first _ (by decide)
  | largeBlobsGet => exact withheld_of_first _ (by decide)
  | largeBlobsSet => exact withheld_of_first _ (by decide)

/-- Two requests that differ only in secrets: the same one without any, or two with some, of one
length. -/
def Request.Alike (c : PinCrypto Key) (r r' : Request Key) : Prop :=
  r.plain? = r'.plain? ∧ (r.payload c).length = (r'.payload c).length

/-- Two answers that differ only in secrets: the same error, or answers of one length; those to
a request without secrets are the same. -/
def AnswersAlike {ε : Type} (r : Request Key) (x y : Except ε (List UInt8)) : Prop :=
  (∃ e, x = .error e ∧ y = .error e) ∨
    ∃ resp resp', x = .ok resp ∧ y = .ok resp' ∧ resp.length = resp'.length ∧
      (r.plain? ≠ none → resp = resp')

/-- Two bodies that one line shows alike. -/
def ShownAlike (sensitive : Bool) (body body' : List UInt8) : Prop :=
  body.length = body'.length ∧ tracePayload body sensitive = tracePayload body' sensitive

theorem shownAlike_of {sensitive : Bool} {body body' : List UInt8}
    (hlen : body.length = body'.length) (h : sensitive = true ∨ body = body') :
    ShownAlike sensitive body body' := by
  refine ⟨hlen, ?_⟩
  rcases h with rfl | rfl
  · rfl
  · rfl

namespace Request.Alike

variable {r r' : Request Key}

theorem secret_or_eq (h : r.Alike c r') :
    (r.plain? = none ∧ r'.plain? = none) ∨ (r.plain? ≠ none ∧ r = r') := by
  obtain ⟨hplain, -⟩ := h
  cases hr : r.plain? with
  | none => exact .inl ⟨rfl, hplain ▸ hr⟩
  | some p =>
      have hof {r : Request Key} (h : r.plain? = some p) : r = .plain p := by
        cases r <;> cases h
        rfl
      exact .inr ⟨Option.some_ne_none p, (hof hr).trans (hof (hplain ▸ hr)).symm⟩

/-- Both are withheld or both are shown. -/
theorem sensitive_eq (h : r.Alike c r') :
    exchangeIsSensitive CTAPHID_CBOR (r.payload c) =
      exchangeIsSensitive CTAPHID_CBOR (r'.payload c) := by
  rcases h.secret_or_eq with ⟨hr, hr'⟩ | ⟨-, rfl⟩
  · rw [withheld_of_secret hr, withheld_of_secret hr']
  · rfl

theorem shownAlike (h : r.Alike c r') :
    ShownAlike (exchangeIsSensitive CTAPHID_CBOR (r.payload c)) (r.payload c) (r'.payload c) := by
  refine shownAlike_of h.2 ?_
  rcases h.secret_or_eq with ⟨hr, -⟩ | ⟨-, rfl⟩
  · exact .inl (withheld_of_secret hr)
  · exact .inr rfl

end Request.Alike

theorem shownAlike_answers {r : Request Key} {resp resp' : List UInt8}
    (hlen : resp.length = resp'.length) (h : r.plain? ≠ none → resp = resp') :
    ShownAlike (exchangeIsSensitive CTAPHID_CBOR (r.payload c)) resp resp' := by
  refine shownAlike_of hlen ?_
  by_cases hr : r.plain? = none
  · exact .inl (withheld_of_secret hr)
  · exact .inr (h hr)

theorem ShownAlike.ctapLine_eq {sensitive : Bool} {body body' : List UInt8}
    (h : ShownAlike sensitive body body') (dir : Dir) (cmd : UInt8) :
    ctapLine dir cmd body.length (tracePayload body sensitive) =
      ctapLine dir cmd body'.length (tracePayload body' sensitive) := by
  rw [h.1, h.2]

theorem ShownAlike.traceMessage_eq {request request' body body' : List UInt8}
    (h : ShownAlike (exchangeIsSensitive CTAPHID_CBOR request) body body')
    (heq : exchangeIsSensitive CTAPHID_CBOR request = exchangeIsSensitive CTAPHID_CBOR request')
    (dir : Dir) (label : RustStr) :
    traceMessage dir label request body = traceMessage dir label request' body' := by
  rw [traceMessage, traceMessage, ← heq, h.1, h.2]

end

/-! ### Over USB -/

section

variable {Key : Type} (c : PinCrypto Key)

/-- A request over USB, and what its attempts meet. -/
structure UsbExchange (Key : Type) where
  timeout : Nat
  channelId : UInt32
  request : Request Key
  attempts : List Attempt

def UsbExchange.attemptOnce (x : UsbExchange Key) (a : Attempt) : Receipt :=
  Ctap.attemptOnce x.timeout x.channelId CTAPHID_CBOR (x.request.payload c) a

def usbTrace (xs : List (UsbExchange Key)) : List RustStr :=
  xs.flatMap fun x =>
    (tracedTransact x.timeout x.channelId CTAPHID_CBOR (x.request.payload c) x.attempts).2

/-- Two receipts that differ only in secrets; or both attempts still wait. -/
def ReceiptsAlike (r : Request Key) (x y : Receipt) : Prop :=
  (x = none ∧ y = none) ∨
    ∃ a b polls polls', x = some (a, polls) ∧ y = some (b, polls') ∧ AnswersAlike r a b

/-- Two attempts with answers that differ only in secrets, at the same times. A cancel has to come
at the same points of both, too. -/
structure AttemptsAlike (x y : UsbExchange Key) (a b : Attempt) : Prop where
  receipts : ReceiptsAlike x.request (x.attemptOnce c a) (y.attemptOnce c b)
  elapsed : a.elapsed = b.elapsed
  cancelBefore : a.cancelBefore = b.cancelBefore
  cancelAfter : a.cancelAfter = b.cancelAfter

/-- Two exchanges that differ only in secrets: their requests are alike, and so are their attempts,
one by one. -/
structure UsbExchange.Alike (x y : UsbExchange Key) : Prop where
  requests : x.request.Alike c y.request
  attempts : List.Forall₂ (AttemptsAlike c x y) x.attempts y.attempts

variable {c}

theorem AttemptsAlike.sleep_eq {x y : UsbExchange Key} {a b : Attempt}
    (h : AttemptsAlike c x y a b) : sleepBetweenAttempts a = sleepBetweenAttempts b := by
  rw [sleepBetweenAttempts, sleepBetweenAttempts, h.cancelBefore, h.cancelAfter]

/-- The retries of both leave the same lines. The induction is on the attempts they have left. -/
theorem tracedAttempts_alike {x y : UsbExchange Key} (hrequests : x.request.Alike c y.request)
    {as bs : List Attempt} (h : List.Forall₂ (AttemptsAlike c x y) as bs) (attempt : Nat) :
    (tracedAttempts x.timeout x.channelId CTAPHID_CBOR (x.request.payload c)
        (exchangeIsSensitive CTAPHID_CBOR (x.request.payload c)) attempt as).2 =
      (tracedAttempts y.timeout y.channelId CTAPHID_CBOR (y.request.payload c)
        (exchangeIsSensitive CTAPHID_CBOR (y.request.payload c)) attempt bs).2 := by
  rw [← hrequests.sensitive_eq]
  have hsent := hrequests.shownAlike.ctapLine_eq .sent CTAPHID_CBOR
  induction h generalizing attempt with
  | nil => rfl
  | @cons a b as bs hab _ ih =>
      rw [tracedAttempts, tracedAttempts, hsent]
      rcases hab.receipts with ⟨ha, hb⟩ | ⟨_, _, polls, polls', ha, hb, halike⟩
      · rw [UsbExchange.attemptOnce] at ha hb
        rw [ha, hb]
      rw [UsbExchange.attemptOnce] at ha hb
      rw [ha, hb]
      rcases halike with ⟨e, rfl, rfl⟩ | ⟨resp, resp', rfl, rfl, hlen, hresp⟩
      · cases e with
        | deviceError code =>
            rw [← hab.elapsed, ← hab.sleep_eq]
            cases hdelay : busyRetryDelay code attempt a.elapsed with
            | none => simp only [hdelay]
            | some delay =>
                cases sleepBetweenAttempts a with
                | error e => simp only [hdelay]
                | ok u =>
                    simp only [hdelay]
                    rw [ih (attempt + 1)]
        | _ => rfl
      · have hreceived := (shownAlike_answers (c := c) hlen hresp).ctapLine_eq
          .received CTAPHID_CBOR
        simp only [hreceived]

theorem usbTrace_alike {xs ys : List (UsbExchange Key)}
    (h : List.Forall₂ (UsbExchange.Alike c) xs ys) : usbTrace c xs = usbTrace c ys := by
  induction h with
  | nil => rfl
  | cons hxy _ ih =>
      rw [usbTrace, usbTrace, List.flatMap_cons, List.flatMap_cons]
      exact congrArg₂ (· ++ ·) (tracedAttempts_alike hxy.requests hxy.attempts 1) ih

end

/-! ### Through a reader -/

section

variable {R S : Type} (pcscText : PcscError → RustStr)

/-- The line of a message that the reader failed to carry. -/
def failureLines : Except ReaderError R → List RustStr
  | .error (.transmitFailed e) =>
      [formatLine .received TRACE_LABEL ("PC/SC error: ".toList ++ pcscText e)]
  | _ => []

/-- The lines within a message follow from its outcome: it ends where the reader fails. -/
def EndsAtFailure (p : Dialogue CardAnswer (Except ReaderError R)) : Prop :=
  ∀ log outcome, Says p log outcome →
    log.filterMap (transmitLine pcscText) = failureLines pcscText outcome

variable {pcscText}

theorem EndsAtFailure.done {r : Except ReaderError R} (h : failureLines pcscText r = []) :
    EndsAtFailure pcscText (.done r) := by
  intro log outcome hsays
  obtain ⟨rfl, rfl, -⟩ := runs_done.mp hsays
  exact h.symm

theorem EndsAtFailure.andThen {p : Dialogue CardAnswer (Except ReaderError R)}
    {f : R → Dialogue CardAnswer (Except ReaderError S)} (hp : EndsAtFailure pcscText p)
    (hf : ∀ a, EndsAtFailure pcscText (f a)) : EndsAtFailure pcscText (p.andThen f) := by
  intro log outcome hsays
  rcases says_andThen.mp hsays with ⟨e, rfl, herror⟩ | ⟨first, a, rest, rfl, hfirst, hrest⟩
  · rw [hp log _ herror]
    cases e <;> rfl
  · rw [List.filterMap_append, hp first _ hfirst, hf a rest outcome hrest]
    rfl

theorem EndsAtFailure.ite {P : Prop} [Decidable P]
    {p q : Dialogue CardAnswer (Except ReaderError R)} (hp : EndsAtFailure pcscText p)
    (hq : EndsAtFailure pcscText q) : EndsAtFailure pcscText (if P then p else q) := by
  split
  · exact hp
  · exact hq

theorem endsAtFailure_exchange (apdu : List UInt8) :
    EndsAtFailure pcscText (exchange apdu) := by
  intro log outcome hsays
  obtain ⟨answer, rest, rfl, hdone⟩ := says_ask.mp hsays
  obtain ⟨rfl, rfl, -⟩ := runs_done.mp hdone
  rw [List.filterMap_cons, List.filterMap_nil, transmitLine, readAnswer]
  cases received answer with
  | error e => rfl
  | ok resp =>
      cases hsplit : splitSw resp with
      | none =>
          simp only [hsplit]
          rfl
      | some answered =>
          simp only [hsplit]
          rfl

theorem endsAtFailure_exchangeLoop (apdu : List UInt8) (left : Nat) (data : List UInt8)
    (sw1 sw2 : UInt8) : EndsAtFailure pcscText (exchangeLoop apdu left data sw1 sw2) := by
  induction left generalizing data sw1 sw2 with
  | zero =>
      rw [exchangeLoop]
      rcases continuation apdu data sw1 sw2 with _ | ⟨send, kept⟩
      · exact .done rfl
      · exact (endsAtFailure_exchange send).andThen fun _ => .done rfl
  | succ left ih =>
      rw [exchangeLoop]
      rcases continuation apdu data sw1 sw2 with _ | ⟨send, kept⟩
      · exact .done rfl
      · refine (endsAtFailure_exchange send).andThen fun answered => ?_
        obtain ⟨more, sw1, sw2⟩ := answered
        exact .ite (.done rfl) (ih _ sw1 sw2)

theorem endsAtFailure_exchangeFull (apdu : List UInt8) :
    EndsAtFailure pcscText (exchangeFull apdu) :=
  (endsAtFailure_exchange apdu).andThen fun _ => endsAtFailure_exchangeLoop apdu _ _ _ _

theorem endsAtFailure_sendPieces (pieces : List (List UInt8)) :
    EndsAtFailure pcscText (sendPieces pieces) := by
  induction pieces with
  | nil => exact .done rfl
  | cons chunk rest ih =>
      cases rest with
      | nil => exact endsAtFailure_exchangeFull _
      | cons next rest =>
          refine (endsAtFailure_exchange _).andThen fun answered => ?_
          obtain ⟨more, sw1, sw2⟩ := answered
          exact .ite ih (.done rfl)

theorem endsAtFailure_sendCtapMessage (message : List UInt8) :
    EndsAtFailure pcscText (sendCtapMessage message) := by
  refine (endsAtFailure_sendPieces _).andThen fun answered => ?_
  obtain ⟨data, sw1, sw2⟩ := answered
  exact .ite (.done rfl) (.done rfl)

end

section

variable {Key : Type} (c : PinCrypto Key)

/-- A request through a reader, what the card was asked and answered, and the outcome. That they
belong together is a field, so an exchange is one that can take place. -/
structure ReaderExchange where
  request : Request Key
  log : List (Asked CardAnswer)
  outcome : Except ReaderError (List UInt8)
  carried : Says (sendCtapMessage (request.payload c)) log outcome

def readerTrace (windows : Bool) (pcscText : PcscError → RustStr) (xs : List (ReaderExchange c)) :
    List RustStr :=
  xs.flatMap fun x => readerLines windows pcscText (x.request.payload c) x.log x.outcome

variable {c}

/-- Two exchanges that differ only in secrets. -/
structure ReaderExchange.Alike (x y : ReaderExchange c) : Prop where
  requests : x.request.Alike c y.request
  outcomes : AnswersAlike x.request x.outcome y.outcome

variable {windows : Bool} {pcscText : PcscError → RustStr}

theorem outcomeLine_alike {x y : ReaderExchange c} (h : x.Alike y) :
    outcomeLine windows pcscText (x.request.payload c) x.outcome =
      outcomeLine windows pcscText (y.request.payload c) y.outcome := by
  rcases h.outcomes with ⟨e, hx, hy⟩ | ⟨resp, resp', hx, hy, hlen, hresp⟩
  · rw [hx, hy]
    rfl
  · rw [hx, hy]
    exact (shownAlike_answers hlen hresp).traceMessage_eq h.requests.sensitive_eq .received _

theorem failureLines_alike {x y : ReaderExchange c} (h : x.Alike y) :
    failureLines pcscText x.outcome = failureLines pcscText y.outcome := by
  rcases h.outcomes with ⟨e, hx, hy⟩ | ⟨resp, resp', hx, hy, -⟩
  · rw [hx, hy]
  · rw [hx, hy]
    rfl

theorem readerTrace_alike {xs ys : List (ReaderExchange c)}
    (h : List.Forall₂ ReaderExchange.Alike xs ys) :
    readerTrace c windows pcscText xs = readerTrace c windows pcscText ys := by
  induction h with
  | nil => rfl
  | @cons x y xs ys hxy _ ih =>
      have hsent := hxy.requests.shownAlike.traceMessage_eq hxy.requests.sensitive_eq
        .sent TRACE_LABEL
      have hlines : readerLines windows pcscText (x.request.payload c) x.log x.outcome =
          readerLines windows pcscText (y.request.payload c) y.log y.outcome := by
        rw [readerLines, readerLines, hsent, outcomeLine_alike hxy,
          endsAtFailure_sendCtapMessage _ _ _ x.carried,
          endsAtFailure_sendCtapMessage _ _ _ y.carried, failureLines_alike hxy]
      rw [readerTrace, readerTrace, List.flatMap_cons, List.flatMap_cons, hlines]
      exact congrArg _ ih

end

/-! ### What the PIN operations send -/

section

variable {Key σ α β : Type} (c : PinCrypto Key)

/-- Whatever the device answers, the operation sends nothing but requests. -/
def Sends (op : PinOp σ α) : Prop :=
  ∀ l, ∃ rs : List (Request Key), (op l).2.sent = l.sent ++ rs.map (Request.payload c)

variable {c}

theorem Sends.bind {op : PinOp σ α} {f : α → PinOp σ β} (hop : Sends c op)
    (hf : ∀ a, Sends c (f a)) : Sends c (op >>= f) := by
  intro l
  obtain ⟨rs, hsent⟩ := hop l
  rcases hrun : op l with ⟨e | a, l'⟩
  · rw [hrun] at hsent
    rw [PinOp.bind_error hrun]
    exact ⟨rs, hsent⟩
  · rw [hrun] at hsent
    rw [PinOp.bind_ok hrun]
    obtain ⟨rs', hsent'⟩ := hf a l'
    exact ⟨rs ++ rs', by rw [hsent', hsent, List.map_append, List.append_assoc]⟩

theorem sends_ofExcept (r : Except PinFailure α) : Sends c (PinOp.ofExcept r : PinOp σ α) :=
  fun l => ⟨[], (List.append_nil l.sent).symm⟩

theorem sends_pure (a : α) : Sends c (pure a : PinOp σ α) :=
  fun l => ⟨[], (List.append_nil l.sent).symm⟩

variable {dev : Device σ}

theorem sends_transactPin (r : Request Key) : Sends c (transactPin dev (r.payload c)) :=
  fun _ => ⟨[r], rfl⟩

theorem sends_dispatchPin {req : List UInt8} (r : Request Key)
    (h : r.payload c = CTAP2_CLIENT_PIN :: req) : Sends c (dispatchPin dev req) := by
  have hsends : Sends c (transactPin dev (r.payload c)) := sends_transactPin r
  rw [h] at hsends
  exact hsends.bind fun _ => sends_ofExcept _

theorem sends_negotiateProtocol : Sends c (negotiateProtocol dev) := by
  refine Sends.bind ?_ fun _ => sends_pure _
  exact (sends_transactPin (.plain .getInfo)).bind fun _ => sends_ofExcept _

theorem sends_getPinRetries : Sends c (getPinRetries dev) := by
  refine (sends_dispatchPin (.plain .getPinRetries) rfl).bind fun resp => ?_
  cases resp.retries with
  | none => exact sends_ofExcept _
  | some retries => exact sends_pure _

theorem sends_keyAgreement (own : Key) (chosen : SelectedPinProtocol) :
    Sends c (keyAgreement dev c own chosen) := by
  have hagreement : Sends c (getKeyAgreement dev chosen.version) := by
    refine (sends_dispatchPin (.plain (.getKeyAgreement chosen.version)) rfl).bind fun resp => ?_
    cases resp.keyAgreement with
    | none => exact sends_ofExcept _
    | some xy => exact sends_pure _
  refine hagreement.bind fun peer => ?_
  cases c.sharedSecret chosen own peer with
  | error e => exact sends_ofExcept _
  | ok proto => exact sends_pure _

theorem sends_setPin (own : Key) (iv : Iv) (newPin : RustStr) :
    Sends c (setPin dev c own iv newPin) := by
  refine (sends_ofExcept _).bind fun _ => sends_negotiateProtocol.bind fun chosen => ?_
  refine (sends_keyAgreement own chosen).bind fun proto => ?_
  exact (sends_dispatchPin (.setPin ⟨chosen, proto, own⟩ iv newPin) rfl).bind fun _ => sends_pure _

theorem sends_changePin (own : Key) (iv iv' : Iv) (oldPin newPin : RustStr) :
    Sends c (changePin dev c own iv iv' oldPin newPin) := by
  refine (sends_ofExcept _).bind fun _ => sends_negotiateProtocol.bind fun chosen => ?_
  refine (sends_keyAgreement own chosen).bind fun proto => ?_
  exact (sends_dispatchPin (.changePin ⟨chosen, proto, own⟩ iv iv' oldPin newPin) rfl).bind
    fun _ => sends_pure _

theorem sends_dispatchTokenRequest {req : List UInt8} (h : Sends c (dispatchPin dev req)) :
    Sends c (dispatchTokenRequest dev req) := h

theorem sends_tokenLegacy (own : Key) (iv : Iv) (pin : RustStr) (chosen : SelectedPinProtocol) :
    Sends c (tokenLegacy dev c own iv pin chosen) := by
  refine (sends_keyAgreement own chosen).bind fun proto => ?_
  exact (sends_dispatchTokenRequest (sends_dispatchPin (.getPinToken ⟨chosen, proto, own⟩ iv pin)
    rfl)).bind fun _ => sends_ofExcept _

theorem sends_tokenWithPermissions (own : Key) (iv : Iv) (pin : RustStr) (permissions : UInt32)
    (rpId : Option RustStr) (chosen : SelectedPinProtocol) :
    Sends c (tokenWithPermissions dev c own iv pin permissions rpId chosen) := by
  refine (sends_keyAgreement own chosen).bind fun proto => ?_
  exact (sends_dispatchTokenRequest (sends_dispatchPin
    (.getPinUvAuthToken ⟨chosen, proto, own⟩ iv pin permissions rpId) rfl)).bind
    fun _ => sends_ofExcept _

/-- Every PIN operation sends only requests that are listed above. -/
theorem pin_operations_send (own : Key) (iv iv' : Iv) (pin newPin : RustStr) (info : PinInfo)
    (permissions : UInt32) (rpId : Option RustStr) :
    Sends c (getPinRetries dev) ∧ Sends c (setPin dev c own iv newPin) ∧
      Sends c (changePin dev c own iv iv' pin newPin) ∧
      Sends c (getPinToken dev c own iv pin) ∧
      Sends c (getPinUvAuthTokenWithPermissions dev c own iv pin permissions rpId) ∧
      Sends c (getPinUvAuthToken dev c own iv pin info permissions) := by
  refine ⟨sends_getPinRetries, sends_setPin own iv newPin, sends_changePin own iv iv' pin newPin,
    sends_negotiateProtocol.bind fun chosen => sends_tokenLegacy own iv pin chosen,
    sends_negotiateProtocol.bind fun chosen =>
      sends_tokenWithPermissions own iv pin permissions rpId chosen, ?_⟩
  rw [getPinUvAuthToken]
  split
  · exact sends_ofExcept _
  · show Sends c (if _ then _ else _)
    split
    · exact sends_tokenWithPermissions own iv pin permissions none _
    · exact sends_tokenLegacy own iv pin _

end

/-! ### What the other operations send -/

section

variable {Key : Type} (c : PinCrypto Key)

def IsRequest (message : List UInt8) : Prop := ∃ r : Request Key, message = r.payload c

variable {c}

theorem asks_dispatch (edition : Edition) (token : PinUvAuthToken) (sub : UInt8)
    (params : Option Value) :
    (CredMgmt.dispatch c.toCrypto ⟨token, credentialCode edition⟩ sub params).Asks
      (IsRequest c) :=
  ⟨⟨.credentialManagement edition token sub params, rfl⟩, fun _ => trivial⟩

theorem asks_enumerateNext {α : Type} {next : Dialogue CredMgmt.CtapAnswer (Except CtapError Value)}
    {parse : Value → Except CtapError α} (hnext : next.Asks (IsRequest c)) (toGo : Nat)
    (out : List α) : (CredMgmt.enumerateNext next parse toGo out).Asks (IsRequest c) := by
  induction toGo generalizing out with
  | zero => exact trivial
  | succ toGo ih =>
      refine hnext.bind fun resp => ?_
      cases resp >>= parse with
      | error e => exact trivial
      | ok item => exact ih (out ++ [item])

theorem asks_enumerate {α : Type}
    {begin next : Dialogue CredMgmt.CtapAnswer (Except CtapError Value)}
    {parse : Value → Except CtapError α} (hbegin : begin.Asks (IsRequest c))
    (hnext : next.Asks (IsRequest c)) (totalKey : UInt64) :
    (CredMgmt.enumerate next parse begin totalKey).Asks (IsRequest c) := by
  refine hbegin.bind fun resp => ?_
  rcases resp with e | first
  · show (if _ then _ else _ : Dialogue _ _).Asks _
    split
    · exact trivial
    · exact trivial
  · dsimp only
    cases CredMgmt.checkedTotal ((CredMgmt.fieldUInt first totalKey).getD 0).toNat with
    | error e => exact trivial
    | ok total =>
        show (if _ then _ else _ : Dialogue _ _).Asks _
        split
        · exact trivial
        · cases parse first with
          | error e => exact trivial
          | ok item => exact asks_enumerateNext hnext _ [item]

/-- Listing the credentials of a key asks only for what is listed above. -/
theorem listings_ask (edition : Edition) (token : PinUvAuthToken) (rpIdHash : Bytes32) :
    (CredMgmt.listRelyingParties c.toCrypto ⟨token, credentialCode edition⟩).Asks (IsRequest c) ∧
      (CredMgmt.listCredentials c.toCrypto ⟨token, credentialCode edition⟩ rpIdHash).Asks
        (IsRequest c) :=
  ⟨asks_enumerate (asks_dispatch edition token _ _) (asks_dispatch edition token _ _) _,
    asks_enumerate (asks_dispatch edition token _ _) (asks_dispatch edition token _ _) _⟩

/-- The write of large blobs sends only `set` requests. -/
theorem writeLoop_sends {σ : Type} (dev : Device σ) (token : PinUvAuthToken)
    (frag : { n : Nat // 0 < n }) (serialized : List UInt8) (offset : Nat) (l : Link σ) :
    ∃ rs : List (Request Key),
      (writeLoop c.toCrypto dev token frag serialized offset l).2.sent =
        l.sent ++ rs.map (Request.payload c) := by
  induction hleft : serialized.length - offset using Nat.strong_induction_on
    generalizing offset l with
  | _ left ih =>
      rw [writeLoop]
      split
      · next hmore =>
          have hfrag := frag.property
          obtain ⟨r, hfirst⟩ : ∃ r : Request Key, (dispatch dev (setParams c.toCrypto token offset
              (if offset = 0 then some serialized.length else none)
              ((serialized.take (min (offset + frag.val) serialized.length)).drop offset))
              l).2.sent = l.sent ++ [r.payload c] := ⟨.largeBlobsSet token offset _ _, rfl⟩
          rcases hsend : dispatch dev (setParams c.toCrypto token offset
              (if offset = 0 then some serialized.length else none)
              ((serialized.take (min (offset + frag.val) serialized.length)).drop offset))
              l with ⟨e | v, l'⟩
          · rw [hsend] at hfirst
            dsimp only
            rw [hsend]
            exact ⟨[r], hfirst⟩
          · rw [hsend] at hfirst
            dsimp only
            rw [hsend]
            obtain ⟨rs, hrest⟩ := ih _ (by omega)
              (min (offset + frag.val) serialized.length) l' rfl
            refine ⟨r :: rs, hrest.trans ?_⟩
            rw [hfirst, List.map_cons, List.append_assoc]
            rfl
      · exact ⟨[], (List.append_nil l.sent).symm⟩

/-- Reading and writing large blobs sends only what is listed above. -/
theorem largeBlobs_send {σ : Type} (dev : Device σ) (info : AuthenticatorInfo)
    (token : PinUvAuthToken) (serialized : List UInt8) (l : Link σ) :
    (∃ rs : List (Request Key),
      (read c.toCrypto dev info l).2.sent = l.sent ++ rs.map (Request.payload c)) ∧
    ∃ rs : List (Request Key),
      (write c.toCrypto dev info token serialized l).2.sent =
        l.sent ++ rs.map (Request.payload c) := by
  constructor
  · obtain ⟨offsets, hsent⟩ := sent_read (c := c.toCrypto) dev info l
    refine ⟨offsets.map fun offset => .largeBlobsGet offset (maxFragmentLength info).val, ?_⟩
    rw [hsent, List.map_map]
    rfl
  · exact writeLoop_sends dev token (maxFragmentLength info) serialized 0 l

end

/-! ### The trace of two runs -/

/-- **The trace tells no secret.** Two runs over USB that differ only in secrets leave the same
lines, however often a busy device is asked again, and so do two runs through a reader. A PIN
command whose bytes are shown has the subcommand of the retry count or of the key agreement, and
of the crate's requests it is one of these two. -/
theorem trace_tells_no_secret {Key : Type} (c : PinCrypto Key) :
    (∀ xs ys : List (UsbExchange Key), List.Forall₂ (UsbExchange.Alike c) xs ys →
      usbTrace c xs = usbTrace c ys) ∧
    (∀ (windows : Bool) (pcscText : PcscError → RustStr) (xs ys : List (ReaderExchange c)),
      List.Forall₂ ReaderExchange.Alike xs ys →
        readerTrace c windows pcscText xs = readerTrace c windows pcscText ys) ∧
    (∀ (protocol : UInt32) (sub : UInt8) (extra : List (Value × Value)),
      exchangeIsSensitive CTAPHID_CBOR
          (CTAP2_CLIENT_PIN :: buildRequestExtra protocol sub extra) = false →
        sub = SUB_GET_PIN_RETRIES ∨ sub = SUB_GET_KEY_AGREEMENT) ∧
    ∀ r : Request Key, (r.payload c).head? = some CTAP2_CLIENT_PIN →
      exchangeIsSensitive CTAPHID_CBOR (r.payload c) = false →
        r = .plain .getPinRetries ∨ ∃ protocol, r = .plain (.getKeyAgreement protocol) := by
  refine ⟨fun _ _ => usbTrace_alike, fun _ _ _ _ => readerTrace_alike, ?_, ?_⟩
  · intro protocol sub extra hshown
    by_contra hsub
    obtain ⟨hretries, hagreement⟩ := not_or.mp hsub
    rw [withheld_of_subcommand protocol extra hretries hagreement] at hshown
    cases hshown
  · intro r hfirst hshown
    cases hplain : r.plain? with
    | none =>
        rw [withheld_of_secret hplain] at hshown
        cases hshown
    | some p =>
        cases r with
        | plain p =>
            cases p with
            | getInfo =>
                have hother : [CTAP2_GET_INFO].head? ≠ some CTAP2_CLIENT_PIN := by decide
                exact absurd hfirst hother
            | reset =>
                have hother : [CTAP2_RESET].head? ≠ some CTAP2_CLIENT_PIN := by decide
                exact absurd hfirst hother
            | getPinRetries => exact .inl rfl
            | getKeyAgreement protocol => exact .inr ⟨protocol, rfl⟩
        | _ => cases hplain

/-! ### A PIN is set on a busy key, and through a reader -/

/-- An attempt that reads one report of the first channel. -/
def oneReport (cmd : UInt8) (payload : List UInt8) : Attempt :=
  { write := .ok (), started := 0,
    polls := [⟨0, false, .ok (some (initReport 1 cmd payload)), false, 0⟩], elapsed := 0,
    cancelBefore := false, cancelAfter := false }

def busyAttempt : Attempt := oneReport CTAPHID_ERROR [CTAPHID_ERR_CHANNEL_BUSY]

def doneAttempt : Attempt := oneReport CTAPHID_CBOR [0x00]

/-- A PIN is set under the secret that host and authenticator agree on. -/
def settingRequest (newPin : RustStr) : Request SamplePair :=
  .setPin ⟨.v1, .v1 SECRET, .host⟩ Iv.zero newPin

def settingPin (newPin : RustStr) : UsbExchange SamplePair :=
  { timeout := 1000, channelId := 1, request := settingRequest newPin,
    attempts := [busyAttempt, doneAttempt] }

/-- A card that has its answer fetched. -/
def fetchedCard : Dialogue.Machine CardAnswer Unit := fun _ apdu =>
  (.ok (if apdu[1]? = some NFCCTAP_INS then [0x61, 0x01] else [0x00, 0x90, 0x00]), ())

def settingMessage (newPin : RustStr) : Dialogue CardAnswer (Except ReaderError (List UInt8)) :=
  sendCtapMessage ((settingRequest newPin).payload samplePinCrypto)

def settingThroughReader (newPin : RustStr) : ReaderExchange samplePinCrypto where
  request := settingRequest newPin
  log := ((settingMessage newPin).serve fetchedCard () []).2.2
  outcome := ((settingMessage newPin).serve fetchedCard () []).1
  carried := says_serve_nil fetchedCard (settingMessage newPin) ()

/-- Two PINs, which SHA-256, HMAC and AES make different bytes of, and one trace: over USB, where
the key is busy at first, and through a reader, where the card's answer takes two messages. -/
theorem trace_of_two_pins :
    (settingRequest "1234".toList).payload samplePinCrypto ≠
      (settingRequest "2580".toList).payload samplePinCrypto ∧
    usbTrace samplePinCrypto [settingPin "1234".toList] =
      usbTrace samplePinCrypto [settingPin "2580".toList] ∧
    ((settingThroughReader "1234".toList).log.length = 2 ∧
      (settingThroughReader "1234".toList).outcome = .ok [0x00]) ∧
    readerTrace samplePinCrypto true (fun _ => []) [settingThroughReader "1234".toList] =
      readerTrace samplePinCrypto true (fun _ => []) [settingThroughReader "2580".toList] := by
  have hrequests : (settingRequest "1234".toList).Alike samplePinCrypto
      (settingRequest "2580".toList) := ⟨rfl, by decide +kernel⟩
  have hbusy : AttemptsAlike samplePinCrypto (settingPin "1234".toList)
      (settingPin "2580".toList) busyAttempt busyAttempt :=
    ⟨.inr ⟨.error (.deviceError CTAPHID_ERR_CHANNEL_BUSY), _, [], [], by decide +kernel,
      by decide +kernel, .inl ⟨_, rfl, rfl⟩⟩, rfl, rfl, rfl⟩
  have hdone : AttemptsAlike samplePinCrypto (settingPin "1234".toList)
      (settingPin "2580".toList) doneAttempt doneAttempt :=
    ⟨.inr ⟨.ok [0x00], .ok [0x00], [], [], by decide +kernel, by decide +kernel,
      .inr ⟨[0x00], [0x00], rfl, rfl, rfl, fun _ => rfl⟩⟩, rfl, rfl, rfl⟩
  have hreader : (settingThroughReader "1234".toList).Alike (settingThroughReader "2580".toList) :=
    ⟨hrequests, .inr ⟨[0x00], [0x00], by decide +kernel, by decide +kernel, rfl, fun _ => rfl⟩⟩
  have htold := trace_tells_no_secret samplePinCrypto
  -- The blocks at the end differ already, so the tags in front of them need not be computed.
  have hdiffer := (by decide +kernel :
    ((settingRequest "1234".toList).payload samplePinCrypto).drop 120 ≠
      ((settingRequest "2580".toList).payload samplePinCrypto).drop 120)
  exact ⟨fun hsame => hdiffer (congrArg (List.drop 120) hsame),
    htold.1 _ _ (.cons ⟨hrequests, .cons hbusy (.cons hdone .nil)⟩ .nil),
    by decide +kernel, htold.2.1 true (fun _ => []) _ _ (.cons hreader .nil)⟩

end Keyroost.Ctap.Trace
