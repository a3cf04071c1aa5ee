import Keyroost.Ctap.CborRoundTrip
import Keyroost.Ctap.PinAuthenticator

/-!
# PIN commands against an authenticator

What each command of `keyroost-ctap/src/client_pin.rs` sends to an authenticator that follows the
rules, and what it gets. The theorems run the host's operation and the authenticator's answer side
by side, one exchange at a time: the capabilities, the key agreement, the command itself.

A request goes over the wire as CBOR, so every step first shows that the map written is the map
read (`ofPayload_command`, `readPinResponse_map`). `PinAsked` is what the authenticator was asked
in the end, with the secret it has come to, and it is all that `PinKept` uses of a run.
-/

namespace Keyroost.Ctap

open Cbor ClientPin

/-! ### One step after another -/

section

variable {σ α β : Type}

theorem PinOp.bind_ok {x : PinOp σ α} {f : α → PinOp σ β} {l l' : Link σ} {a : α}
    (h : x l = (.ok a, l')) : (x >>= f) l = f a l' := by
  show (match x l with | (r, l') => ExceptT.bindCont f r l') = f a l'
  rw [h]
  rfl

theorem PinOp.bind_error {x : PinOp σ α} {f : α → PinOp σ β} {l l' : Link σ} {e : PinFailure}
    (h : x l = (.error e, l')) : (x >>= f) l = (.error e, l') := by
  show (match x l with | (r, l') => ExceptT.bindCont f r l') = (.error e, l')
  rw [h]
  rfl

theorem PinOp.bind_ofExcept {x : PinOp σ α} {f : α → Except PinFailure β} {l l' : Link σ}
    {r : Except PinFailure α} (h : x l = (r, l')) :
    (x >>= fun a => .ofExcept (f a)) l = (r >>= f, l') := by
  cases r with
  | ok a => exact PinOp.bind_ok h
  | error e => exact PinOp.bind_error h

end

/-! ### Maps over the wire -/

theorem decode_encode_nil {v : Value} (hsized : v.Sized)
    (hnesting : v.nesting ≤ DECODE_DEPTH_LIMIT) : decode (encode v) = .ok (v, []) := by
  have hread := reads_encode hsized hnesting []
  rwa [List.append_nil] at hread

theorem encode_map_ne_nil (entries : List (Value × Value)) : encode (.map entries) ≠ [] := by
  intro h
  have hpos := encodeHeader_length_pos MT_MAP entries.length.toUInt64
  have hlen := congrArg List.length h
  rw [encode, List.length_append, List.length_nil] at hlen
  omega

theorem ofPayload_request {entries : List (Value × Value)} (hsized : (Value.map entries).Sized)
    (hnesting : (Value.map entries).nesting ≤ DECODE_DEPTH_LIMIT) :
    PinRequest.ofPayload (CTAP2_CLIENT_PIN :: encode (.map entries)) =
      some (.ofValue (.map entries)) := by
  rw [PinRequest.ofPayload, if_neg (by decide), decode_encode_nil hsized hnesting]

theorem readPinResponse_map {entries : List (Value × Value)} (hsized : (Value.map entries).Sized)
    (hnesting : (Value.map entries).nesting ≤ DECODE_DEPTH_LIMIT) :
    readPinResponse (0x00 :: encode (.map entries)) =
      .ok (entries.foldl PinResponse.turn .empty) := by
  have hdecode := decode_encode_nil hsized hnesting
  have hfirst : decodeFirst (encode (.map entries)) = .ok (.map entries) := by
    rw [decodeFirst, hdecode]
  show (if encode (.map entries) = [] then pure PinResponse.empty
    else decodeFirst (encode (.map entries)) >>= parsePinResponse) = _
  rw [if_neg (encode_map_ne_nil entries), hfirst]
  rfl

theorem asBytes32_bytes (b : Bytes32) : asBytes32 (.bytes b.val) = some b := dif_pos b.property

/-- A public key is read as the point it was written from. -/
theorem agreementOf_coseP256Public (xy : Bytes32 × Bytes32) :
    (coseP256Public xy).asMap.bind agreementOf = some xy := by
  have hxkey : castInt (.nInt 1) = some (Int64.ofInt COSE_X) := by decide
  have hykey : castInt (.nInt 2) = some (Int64.ofInt COSE_Y) := by decide
  have hx : coordinateOf (.nInt 1, .bytes xy.1.val) = some (.x, xy.1) := by
    rw [coordinateOf, hxkey]
    show (if Int64.ofInt COSE_X = Int64.ofInt COSE_X then _ else _) = _
    rw [if_pos rfl, asBytes32_bytes]
    rfl
  have hy : coordinateOf (.nInt 2, .bytes xy.2.val) = some (.y, xy.2) := by
    rw [coordinateOf, hykey]
    show (if Int64.ofInt COSE_Y = Int64.ofInt COSE_X then _
      else if Int64.ofInt COSE_Y = Int64.ofInt COSE_Y then _ else _) = _
    rw [if_neg (by decide), if_pos rfl, asBytes32_bytes]
    rfl
  have hkty : coordinateOf (.uInt 1, .uInt 2) = none := by decide
  have halg : coordinateOf (.uInt 3, .nInt 24) = none := by decide
  have hcrv : coordinateOf (.nInt 0, .uInt 1) = none := by decide
  show agreementOf [_, _, _, _, _] = some xy
  rw [agreementOf]
  simp only [List.foldl_cons, List.foldl_nil, Coordinates.turn, hx, hy, hkty, halg, hcrv]
  rfl

theorem sized_coseP256Public (xy : Bytes32 × Bytes32) : (coseP256Public xy).Sized := by
  have hx : xy.1.val.length < 2 ^ 64 := by rw [xy.1.property]; decide
  have hy : xy.2.val.length < 2 ^ 64 := by rw [xy.2.property]; decide
  have hfive : 5 < 2 ^ 64 := by decide
  exact ⟨hfive, ⟨trivial, trivial⟩, ⟨trivial, trivial⟩, ⟨trivial, trivial⟩, ⟨trivial, hx⟩,
    ⟨trivial, hy⟩, trivial⟩

/-! ### The exchanges before a command -/

variable {Key : Type} {c : PinCrypto Key} (auth : PinAuthenticator c)

/-- The link after one request. -/
def linkAfter (l : Link PinState) (payload : List UInt8) : Link PinState :=
  { state := (auth.respond l.state payload).2, sent := l.sent ++ [payload] }

theorem transactPin_run (payload : List UInt8) (l : Link PinState) :
    transactPin auth.device payload l =
      (.ok (auth.respond l.state payload).1, linkAfter auth l payload) := rfl

theorem dispatchPin_run (req : List UInt8) (l : Link PinState) :
    dispatchPin auth.device req l =
      ((readPinResponse (auth.respond l.state (CTAP2_CLIENT_PIN :: req)).1).mapError .ctap,
        linkAfter auth l (CTAP2_CLIENT_PIN :: req)) := by
  rw [dispatchPin, PinOp.bind_ok (transactPin_run auth _ l)]
  rfl

theorem getInfo_run (l : Link PinState) :
    getInfo auth.device l = (.ok auth.info, { l with sent := l.sent ++ [[CTAP2_GET_INFO]] }) := by
  have hrespond : auth.respond l.state [CTAP2_GET_INFO] =
      (0x00 :: encode (.map auth.entries), l.state) := if_pos rfl
  have hdecode : decodeFirst (encode (.map auth.entries)) = .ok (.map auth.entries) := by
    rw [decodeFirst, decode_encode_nil auth.entries_sized auth.entries_nesting]
  rw [getInfo, PinOp.bind_ok (transactPin_run auth _ l), linkAfter, hrespond]
  show ((decodeFirst (encode (.map auth.entries)) >>= parseAuthenticatorInfo).mapError _, _) = _
  rw [hdecode]
  rfl

theorem negotiateProtocol_run (l : Link PinState) : negotiateProtocol auth.device l =
    (.ok (selectPinProtocol auth.protocols), { l with sent := l.sent ++ [[CTAP2_GET_INFO]] }) := by
  rw [negotiateProtocol, PinOp.bind_ok (getInfo_run auth l)]
  rfl

theorem mem_of_select_two {protocols : List UInt64} (h : selectPinProtocol protocols = .v2) :
    2 ∈ protocols := by
  induction protocols with
  | nil => cases h
  | cons p protocols ih =>
      rw [selectPinProtocol] at h
      split at h
      · rename_i hp
        exact List.mem_cons.mpr (.inl hp.symm)
      split at h
      · cases h
      · exact List.mem_cons_of_mem _ (ih h)

theorem mem_of_select_one {protocols : List UInt64} (h : selectPinProtocol protocols = .v1) :
    1 ∈ protocols ∨ 2 ∉ protocols := by
  induction protocols with
  | nil => exact .inr List.not_mem_nil
  | cons p protocols ih =>
      rw [selectPinProtocol] at h
      split at h
      · cases h
      · rename_i htwo
        split at h
        · rename_i hone
          exact .inl (List.mem_cons.mpr (.inl hone.symm))
        rcases ih h with h | h
        · exact .inl (List.mem_cons_of_mem _ h)
        · refine .inr fun hmem => ?_
          rcases List.mem_cons.mp hmem with hp | hmem
          · exact htwo hp.symm
          · exact h hmem

/-- The host picks a protocol that the authenticator speaks. -/
theorem protocolOf_select (protocols : List UInt64) :
    PinAuthenticator.protocolOf protocols (selectPinProtocol protocols).version.toUInt64 =
      some (selectPinProtocol protocols) := by
  cases h : selectPinProtocol protocols with
  | v1 =>
      exact (if_neg fun hno => absurd hno.1 (by decide)).trans
        (if_pos ⟨rfl, mem_of_select_one h⟩)
  | v2 => exact if_pos ⟨rfl, mem_of_select_two h⟩

/-! ### The key agreement -/

/-- The request for the authenticator's public key. -/
def agreementPayload (chosen : SelectedPinProtocol) : List UInt8 :=
  CTAP2_CLIENT_PIN :: buildRequestExtra chosen.version SUB_GET_KEY_AGREEMENT []

def agreementRequest (chosen : SelectedPinProtocol) : PinRequest :=
  .ofValue (.map (requestEntries chosen.version SUB_GET_KEY_AGREEMENT []))

theorem ofPayload_agreement (chosen : SelectedPinProtocol) :
    PinRequest.ofPayload (agreementPayload chosen) = some (agreementRequest chosen) :=
  ofPayload_request ⟨of_decide_eq_true rfl, ⟨trivial, trivial⟩, ⟨trivial, trivial⟩, trivial⟩
    (of_decide_eq_true rfl)

theorem turn_agreement (xy : Bytes32 × Bytes32) :
    PinResponse.turn .empty (.uInt 1, coseP256Public xy) =
      { PinResponse.empty with keyAgreement := some xy } := by
  rw [PinResponse.turn]
  simp only [Value.asUInt, if_true, agreementOf_coseP256Public]

theorem readPinResponse_agreement (st : PinState) (chosen : SelectedPinProtocol) :
    readPinResponse (auth.agreementResponse st chosen) =
      .ok { PinResponse.empty with
        keyAgreement := some (c.publicXy (auth.keys chosen st.turn)) } := by
  have hsized : (Value.map
      [(.uInt 1, coseP256Public (c.publicXy (auth.keys chosen st.turn)))]).Sized :=
    ⟨of_decide_eq_true rfl, ⟨trivial, sized_coseP256Public _⟩, trivial⟩
  rw [PinAuthenticator.agreementResponse, readPinResponse_map hsized (of_decide_eq_true rfl),
    List.foldl_cons, List.foldl_nil, turn_agreement]

/-- Host and authenticator agree on a secret, and the request names the protocol it is for. -/
theorem keyAgreement_run (own : Key) {chosen : SelectedPinProtocol}
    (hknown : PinAuthenticator.protocolOf auth.protocols chosen.version.toUInt64 = some chosen)
    (l : Link PinState) : ∃ proto,
      c.sharedSecret chosen (auth.keys chosen l.state.turn) (c.publicXy own) = .ok proto ∧
      keyAgreement auth.device c own chosen l =
        (.ok proto, { l with sent := l.sent ++ [agreementPayload chosen] }) := by
  obtain ⟨proto, hown, hpeer⟩ := sharedSecret_shared (c := c) chosen own
    (auth.keys chosen l.state.turn)
  have hhandle : auth.handle l.state (agreementRequest chosen) =
      (auth.agreementResponse l.state chosen, l.state) := by
    have hsub : (agreementRequest chosen).subCommand = some 2 := rfl
    have hprotocol : (agreementRequest chosen).protocol = some chosen.version.toUInt64 := rfl
    rw [PinAuthenticator.handle, hsub, if_neg (by decide), if_pos rfl,
      PinAuthenticator.handleAgreement, hprotocol, Option.bind_some, hknown]
  have hrespond : auth.respond l.state (agreementPayload chosen) =
      (auth.agreementResponse l.state chosen, l.state) := by
    rw [PinAuthenticator.respond, if_neg (by intro h; cases h), ofPayload_agreement]
    exact hhandle
  have hget : getKeyAgreement auth.device chosen.version l =
      (.ok (c.publicXy (auth.keys chosen l.state.turn)),
        { l with sent := l.sent ++ [agreementPayload chosen] }) := by
    have hdispatch := dispatchPin_run auth
      (buildRequestExtra chosen.version SUB_GET_KEY_AGREEMENT []) l
    have hpayload : CTAP2_CLIENT_PIN :: buildRequestExtra chosen.version SUB_GET_KEY_AGREEMENT [] =
        agreementPayload chosen := rfl
    rw [linkAfter, hpayload, hrespond, readPinResponse_agreement] at hdispatch
    rw [getKeyAgreement, PinOp.bind_ok hdispatch]
    rfl
  refine ⟨proto, hpeer, ?_⟩
  rw [keyAgreement, PinOp.bind_ok hget, hown]
  rfl

/-! ### A command under a shared secret -/

/-- The entries of a command: the host's public key first. -/
def commandEntries (c : PinCrypto Key) (chosen : SelectedPinProtocol) (sub : UInt8) (own : Key)
    (rest : List (Value × Value)) : List (Value × Value) :=
  requestEntries chosen.version sub
    ((.uInt KEY_KEY_AGREEMENT, coseP256Public (c.publicXy own)) :: rest)

def commandRequest (c : PinCrypto Key) (chosen : SelectedPinProtocol) (sub : UInt8) (own : Key)
    (rest : List (Value × Value)) : PinRequest :=
  .ofValue (.map (commandEntries c chosen sub own rest))

/-- Entries of a command that are strings and numbers, and few. -/
def Plain (rest : List (Value × Value)) : Prop :=
  rest.length ≤ 3 ∧ SizedEntries rest ∧ nestingEntries rest ≤ 1

theorem ofPayload_command (chosen : SelectedPinProtocol) (sub : UInt8) (own : Key)
    {rest : List (Value × Value)} (hrest : Plain rest) :
    PinRequest.ofPayload
        (CTAP2_CLIENT_PIN :: encode (.map (commandEntries c chosen sub own rest))) =
      some (commandRequest c chosen sub own rest) := by
  obtain ⟨hlen, hsized, hnesting⟩ := hrest
  refine ofPayload_request ⟨?_, ⟨trivial, trivial⟩, ⟨trivial, trivial⟩,
    ⟨trivial, sized_coseP256Public _⟩, hsized⟩ ?_
  · exact Nat.lt_of_le_of_lt (Nat.add_le_add_right hlen 3) (of_decide_eq_true rfl)
  · show max 1 (max 1 (max 2 (nestingEntries rest))) ≤ 16
    omega

theorem secretFor_command {chosen : SelectedPinProtocol} (sub : UInt8) {own : Key}
    (rest : List (Value × Value)) {st : PinState} {proto : PinProtocol}
    (hknown : PinAuthenticator.protocolOf auth.protocols chosen.version.toUInt64 = some chosen)
    (hsecret : c.sharedSecret chosen (auth.keys chosen st.turn) (c.publicXy own) = .ok proto) :
    auth.secretFor st (commandRequest c chosen sub own rest) = some proto := by
  have hagreement : (commandRequest c chosen sub own rest).keyAgreement = some (c.publicXy own) :=
    agreementOf_coseP256Public _
  have hprotocol : (commandRequest c chosen sub own rest).protocol =
      some chosen.version.toUInt64 := rfl
  rw [PinAuthenticator.secretFor, hagreement, hprotocol, Option.bind_some, hknown,
    Option.bind_some, Option.bind_some, hsecret]
  rfl

/-- A command gets what the authenticator makes of its request. -/
theorem dispatchPin_command (chosen : SelectedPinProtocol) (sub : UInt8) (own : Key)
    {rest : List (Value × Value)} (hrest : Plain rest) (l : Link PinState) :
    dispatchPin auth.device (encode (.map (commandEntries c chosen sub own rest))) l =
      ((readPinResponse (auth.handle l.state (commandRequest c chosen sub own rest)).1).mapError
          .ctap,
        { state := (auth.handle l.state (commandRequest c chosen sub own rest)).2
          sent := l.sent ++
            [CTAP2_CLIENT_PIN :: encode (.map (commandEntries c chosen sub own rest))] }) := by
  have hrespond : auth.respond l.state
      (CTAP2_CLIENT_PIN :: encode (.map (commandEntries c chosen sub own rest))) =
        auth.handle l.state (commandRequest c chosen sub own rest) := by
    rw [PinAuthenticator.respond, if_neg (by intro h; cases h),
      ofPayload_command chosen sub own hrest]
  rw [dispatchPin_run, linkAfter, hrespond]

/-! ### The commands -/

/-- A command was sent between two links, after a key agreement for its own protocol. The
authenticator, as it was before, reads it as `r` and comes to the secret of `proto` for it. -/
structure PinAsked (l l' : Link PinState) (r : PinRequest) (proto : PinProtocol) : Prop where
  sent : ∃ front agreement request a, l'.sent = l.sent ++ (front ++ [agreement, request]) ∧
    PinRequest.ofPayload agreement = some a ∧ a.subCommand = some 2 ∧ a.protocol = r.protocol ∧
    PinRequest.ofPayload request = some r
  secret : auth.secretFor l.state r = some proto

theorem PinAsked.of_negotiated {l l' : Link PinState} {r : PinRequest} {proto : PinProtocol}
    (h : PinAsked auth { l with sent := l.sent ++ [[CTAP2_GET_INFO]] } l' r proto) :
    PinAsked auth l l' r proto := by
  obtain ⟨⟨front, agreement, request, a, hsent, hrest⟩, hsecret⟩ := h
  refine ⟨⟨[CTAP2_GET_INFO] :: front, agreement, request, a, ?_, hrest⟩, hsecret⟩
  rw [hsent, List.append_assoc]
  rfl

/-- A command after its key agreement, whatever its entries are made of. -/
theorem command_run {chosen : SelectedPinProtocol} (sub : UInt8) (own : Key)
    {rest : PinProtocol → List (Value × Value)} (hplain : ∀ proto, Plain (rest proto))
    (hknown : PinAuthenticator.protocolOf auth.protocols chosen.version.toUInt64 = some chosen)
    (l : Link PinState) : ∃ proto mid l',
      keyAgreement auth.device c own chosen l = (.ok proto, mid) ∧
      dispatchPin auth.device (encode (.map (commandEntries c chosen sub own (rest proto)))) mid =
        ((readPinResponse
            (auth.handle l.state (commandRequest c chosen sub own (rest proto))).1).mapError .ctap,
          l') ∧
      l'.state = (auth.handle l.state (commandRequest c chosen sub own (rest proto))).2 ∧
      PinAsked auth l l' (commandRequest c chosen sub own (rest proto)) proto := by
  obtain ⟨proto, hsecret, hagree⟩ := keyAgreement_run auth own hknown l
  refine ⟨proto, _, _, hagree, dispatchPin_command auth chosen sub own (hplain proto) _, rfl,
    ⟨⟨[], _, _, _, List.append_assoc _ _ _, ofPayload_agreement chosen, rfl, rfl,
      ofPayload_command chosen sub own (hplain proto)⟩,
      secretFor_command auth sub (rest proto) hknown hsecret⟩⟩

/-- What `set_pin` sends beside the public key. -/
def setEntries (c : PinCrypto Key) (proto : PinProtocol) (newPinEnc : List UInt8) :
    List (Value × Value) :=
  [(.uInt ClientPin.KEY_PIN_UV_AUTH_PARAM, .bytes (proto.authenticate c newPinEnc)),
    (.uInt KEY_NEW_PIN_ENC, .bytes newPinEnc)]

/-- What `change_pin` sends beside the public key. -/
def changeEntries (c : PinCrypto Key) (proto : PinProtocol) (newPinEnc pinHashEnc : List UInt8) :
    List (Value × Value) :=
  [(.uInt ClientPin.KEY_PIN_UV_AUTH_PARAM, .bytes (proto.authenticate c (newPinEnc ++ pinHashEnc))),
    (.uInt KEY_NEW_PIN_ENC, .bytes newPinEnc), (.uInt KEY_PIN_HASH_ENC, .bytes pinHashEnc)]

theorem length_param (proto : PinProtocol) (data : List UInt8) :
    (proto.authenticate c data).length < 2 ^ 64 :=
  Nat.lt_of_le_of_lt (proto.length_authenticate_le data) (by decide)

theorem length_pinHashEnc (proto : PinProtocol) (iv : Iv) (pin : RustStr) :
    (proto.encrypt c iv (c.left16Sha256 pin.asBytes)).length < 2 ^ 64 := by
  have hlen := c.length_left16Sha256 pin.asBytes
  have hle := proto.length_encrypt_le (c := c) iv (Dvd.intro 1 hlen.symm)
  omega

theorem length_newPinEnc (proto : PinProtocol) (iv : Iv) {pin : RustStr} (h : pin.len ≤ 64) :
    (proto.encrypt c iv (padPinTo64 pin)).length < 2 ^ 64 := by
  have hlen := length_padPinTo64 h
  have hle := proto.length_encrypt_le (c := c) iv (Dvd.intro 4 hlen.symm)
  omega

theorem plain_setEntries (proto : PinProtocol) {newPinEnc : List UInt8}
    (hnew : newPinEnc.length < 2 ^ 64) : Plain (setEntries c proto newPinEnc) :=
  ⟨of_decide_eq_true rfl, ⟨⟨trivial, length_param proto _⟩, ⟨trivial, hnew⟩, trivial⟩,
    of_decide_eq_true rfl⟩

theorem plain_changeEntries (proto : PinProtocol) {newPinEnc pinHashEnc : List UInt8}
    (hnew : newPinEnc.length < 2 ^ 64) (hhash : pinHashEnc.length < 2 ^ 64) :
    Plain (changeEntries c proto newPinEnc pinHashEnc) :=
  ⟨of_decide_eq_true rfl,
    ⟨⟨trivial, length_param proto _⟩, ⟨trivial, hnew⟩, ⟨trivial, hhash⟩, trivial⟩,
    of_decide_eq_true rfl⟩

theorem plain_tokenEntries {pinHashEnc : List UInt8} (hhash : pinHashEnc.length < 2 ^ 64)
    (permissions : UInt32) {rpId : Option RustStr} (hrp : ∀ rp ∈ rpId, rp.len < 2 ^ 64) :
    Plain ((.uInt KEY_PIN_HASH_ENC, .bytes pinHashEnc) :: permissionEntries permissions rpId) := by
  cases rpId with
  | none =>
      exact ⟨of_decide_eq_true rfl, ⟨⟨trivial, hhash⟩, ⟨trivial, trivial⟩, trivial⟩,
        of_decide_eq_true rfl⟩
  | some rp =>
      exact ⟨of_decide_eq_true rfl,
        ⟨⟨trivial, hhash⟩, ⟨trivial, trivial⟩, ⟨trivial, hrp rp rfl⟩, trivial⟩,
        of_decide_eq_true rfl⟩

theorem plain_legacyEntries {pinHashEnc : List UInt8} (hhash : pinHashEnc.length < 2 ^ 64) :
    Plain [(.uInt KEY_PIN_HASH_ENC, .bytes pinHashEnc)] :=
  ⟨of_decide_eq_true rfl, ⟨⟨trivial, hhash⟩, trivial⟩, of_decide_eq_true rfl⟩

theorem len_of_validatePin {pin : RustStr} (h : validatePin pin = .ok ()) : pin.len ≤ 64 := by
  rw [validatePin] at h
  split at h
  · omega
  · cases h

/-- A command that answers with a status alone. -/
def statusOf (answer : PinAnswer) : Except PinFailure Unit :=
  ((readPinResponse answer.1).mapError .ctap).map fun _ => ()

theorem handle_setPin {st : PinState} {r : PinRequest} {proto : PinProtocol}
    (hsub : r.subCommand = some 3) (hsecret : auth.secretFor st r = some proto) :
    auth.handle st r = auth.handleSetPin st r proto := by
  rw [PinAuthenticator.handle, hsub, if_neg (by decide), if_neg (by decide), hsecret]
  exact if_pos rfl

theorem handle_changePin {st : PinState} {r : PinRequest} {proto : PinProtocol}
    (hsub : r.subCommand = some 4) (hsecret : auth.secretFor st r = some proto) :
    auth.handle st r = auth.handleChangePin st r proto := by
  rw [PinAuthenticator.handle, hsub, if_neg (by decide), if_neg (by decide), hsecret]
  exact (if_neg (by decide)).trans (if_pos rfl)

theorem handle_token {st : PinState} {r : PinRequest} {proto : PinProtocol}
    (hsub : r.subCommand = some 5 ∨ r.subCommand = some 9)
    (hsecret : auth.secretFor st r = some proto) :
    auth.handle st r = auth.handleToken st r proto := by
  rcases hsub with hsub | hsub
  · rw [PinAuthenticator.handle, hsub, if_neg (by decide), if_neg (by decide), hsecret]
    exact (if_neg (by decide)).trans ((if_neg (by decide)).trans (if_pos (by decide)))
  · rw [PinAuthenticator.handle, hsub, if_neg (by decide), if_neg (by decide), hsecret]
    exact (if_neg (by decide)).trans ((if_neg (by decide)).trans (if_pos (by decide)))

/-- **Setting a PIN.** The authenticator is asked to set what decrypts to the padded PIN, and the
parameter authenticates that ciphertext. -/
theorem setPin_run (own : Key) (iv : Iv) {newPin : RustStr} (hvalid : validatePin newPin = .ok ())
    (l : Link PinState) : ∃ r proto l',
      setPin auth.device c own iv newPin l =
        (statusOf (auth.handleSetPin l.state r proto), l') ∧
      l'.state = (auth.handleSetPin l.state r proto).2 ∧ PinAsked auth l l' r proto ∧
      r.newPinEnc = some (proto.encrypt c iv (padPinTo64 newPin)) ∧ r.pinHashEnc = none ∧
      r.pinUvAuthParam =
        some (proto.authenticate c (proto.encrypt c iv (padPinTo64 newPin))) := by
  have hlen := len_of_validatePin hvalid
  obtain ⟨proto, mid, l', hagree, hdispatch, hstate, hasked⟩ := command_run auth SUB_SET_PIN own
    (fun proto => plain_setEntries (c := c) proto (length_newPinEnc (c := c) proto iv hlen))
    (protocolOf_select auth.protocols) { l with sent := l.sent ++ [[CTAP2_GET_INFO]] }
  have hhandle := handle_setPin auth rfl hasked.secret
  rw [hhandle] at hdispatch hstate
  refine ⟨_, proto, l', ?_, hstate, hasked.of_negotiated, rfl, rfl, rfl⟩
  have hpin : PinOp.ofExcept (validatePin newPin) l = (.ok (), l) := by
    rw [hvalid]
    rfl
  rw [setPin, PinOp.bind_ok hpin, PinOp.bind_ok (negotiateProtocol_run auth l),
    PinOp.bind_ok hagree]
  exact PinOp.bind_ofExcept hdispatch

/-- **Changing a PIN.** The request also presents the hash of the old PIN, and the parameter
authenticates both ciphertexts. -/
theorem changePin_run (own : Key) (iv iv' : Iv) (oldPin : RustStr) {newPin : RustStr}
    (hvalid : validatePin newPin = .ok ()) (l : Link PinState) : ∃ r proto l',
      changePin auth.device c own iv iv' oldPin newPin l =
        (statusOf (auth.handleChangePin l.state r proto), l') ∧
      l'.state = (auth.handleChangePin l.state r proto).2 ∧ PinAsked auth l l' r proto ∧
      r.newPinEnc = some (proto.encrypt c iv (padPinTo64 newPin)) ∧
      r.pinHashEnc = some (proto.encrypt c iv' (c.left16Sha256 oldPin.asBytes)) ∧
      r.pinUvAuthParam = some (proto.authenticate c (proto.encrypt c iv (padPinTo64 newPin) ++
        proto.encrypt c iv' (c.left16Sha256 oldPin.asBytes))) := by
  have hlen := len_of_validatePin hvalid
  obtain ⟨proto, mid, l', hagree, hdispatch, hstate, hasked⟩ := command_run auth SUB_CHANGE_PIN own
    (fun proto => plain_changeEntries (c := c) proto (length_newPinEnc (c := c) proto iv hlen)
      (length_pinHashEnc proto iv' oldPin))
    (protocolOf_select auth.protocols) { l with sent := l.sent ++ [[CTAP2_GET_INFO]] }
  have hhandle := handle_changePin auth rfl hasked.secret
  rw [hhandle] at hdispatch hstate
  refine ⟨_, proto, l', ?_, hstate, hasked.of_negotiated, rfl, rfl, rfl⟩
  have hpin : PinOp.ofExcept (validatePin newPin) l = (.ok (), l) := by
    rw [hvalid]
    rfl
  rw [changePin, PinOp.bind_ok hpin, PinOp.bind_ok (negotiateProtocol_run auth l),
    PinOp.bind_ok hagree]
  exact PinOp.bind_ofExcept hdispatch

theorem dispatchTokenRequest_of {σ : Type} {dev : Device σ} {req : List UInt8} {l l' : Link σ}
    {r : Except PinFailure PinResponse} (h : dispatchPin dev req l = (r, l')) :
    dispatchTokenRequest dev req l = (r.mapError tokenFailure, l') := by
  rw [dispatchTokenRequest, h]

/-- What the host makes of the answer to a token command. -/
def tokenResult (c : PinCrypto Key) (name : String) (proto : PinProtocol)
    (chosen : SelectedPinProtocol) (answer : PinAnswer) : Except PinFailure PinUvAuthToken :=
  ((readPinResponse answer.1).mapError .ctap).mapError tokenFailure >>= fun resp =>
    (tokenOf c name proto chosen resp).mapError .ctap

/-- **Taking a token.** The request presents the hash of the PIN. -/
theorem tokenRequest_run {sub : UInt8} (name : String) {more : List (Value × Value)} (own : Key)
    (iv : Iv) (pin : RustStr) {chosen : SelectedPinProtocol}
    (hsub : sub.toUInt64 = 5 ∨ sub.toUInt64 = 9)
    (hplain : ∀ {pinHashEnc : List UInt8}, pinHashEnc.length < 2 ^ 64 →
      Plain ((.uInt KEY_PIN_HASH_ENC, .bytes pinHashEnc) :: more))
    (hknown : PinAuthenticator.protocolOf auth.protocols chosen.version.toUInt64 = some chosen)
    (l : Link PinState) : ∃ r proto l',
      tokenRequest auth.device c sub name more own iv pin chosen l =
        (tokenResult c name proto chosen (auth.handleToken l.state r proto), l') ∧
      l'.state = (auth.handleToken l.state r proto).2 ∧ PinAsked auth l l' r proto ∧
      r.pinHashEnc = some (proto.encrypt c iv (c.left16Sha256 pin.asBytes)) := by
  obtain ⟨proto, mid, l', hagree, hdispatch, hstate, hasked⟩ := command_run auth sub own
    (fun proto => hplain (length_pinHashEnc (c := c) proto iv pin)) hknown l
  have hcommand : (commandRequest c chosen sub own ((.uInt KEY_PIN_HASH_ENC,
      .bytes (proto.encrypt c iv (c.left16Sha256 pin.asBytes))) :: more)).subCommand =
        some sub.toUInt64 := rfl
  have hhandle := handle_token auth
    (hsub.imp (fun h => hcommand.trans (congrArg some h)) fun h =>
      hcommand.trans (congrArg some h)) hasked.secret
  rw [hhandle] at hdispatch hstate
  refine ⟨_, proto, l', ?_, hstate, hasked, rfl⟩
  rw [tokenRequest, PinOp.bind_ok hagree]
  exact PinOp.bind_ofExcept (dispatchTokenRequest_of hdispatch)

end Keyroost.Ctap
