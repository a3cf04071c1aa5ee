import Keyroost.Ctap.PinRuns
import Keyroost.Proto.Sha

/-!
# The PIN that was set

Against an authenticator that follows the rules: what it keeps of a PIN that was set or changed by
`keyroost-ctap/src/client_pin.rs`, and whether the same PIN opens it later. A PIN is padded with
zeros, and the authenticator takes zeros at the end for padding.

`PinOpens` is what is asked of a PIN: that it is kept as it was given, and that it can be presented
for a change and for a token of either kind. `PinRuns` has the exchanges; here are the two ends of
them, what the authenticator finds in a request (`presentedHash_of`, `newPinOf_of`) and what the
host makes of the answer. `pinOpens_iff` says for which PINs all of this holds, and
`trailingZero_lost` is one for which it fails. The sample has real key pairs, and real hashes and
ciphertexts for the PINs in it.
-/

namespace Keyroost.Ctap

open Cbor ClientPin PinAuthenticator

variable {Key : Type} {c : PinCrypto Key} (auth : PinAuthenticator c)

/-! ### What is asked of the commands -/

/-- A command for a token, with what its caller gives beside the PIN. Texts have less than 2^64
bytes, and what `get_info` told was told by this authenticator. -/
inductive TokenCommand where
  | pinToken
  | withPermissions (permissions : UInt32) (rpId : Option {rp : RustStr // rp.len < 2 ^ 64})
  | negotiated (permissions : UInt32) (info : PinInfo)
    (hinfo : info.pinUvAuthProtocols = auth.protocols) (hforce : info.forcePinChange ≠ some true)

def TokenCommand.run (own : Key) (iv : Iv) (pin : RustStr) :
    TokenCommand auth → PinOp PinState PinUvAuthToken
  | pinToken => getPinToken auth.device c own iv pin
  | withPermissions permissions rpId =>
      getPinUvAuthTokenWithPermissions auth.device c own iv pin permissions
        (rpId.map Subtype.val)
  | negotiated permissions info _ _ => getPinUvAuthToken auth.device c own iv pin info permissions

/-- The states after `newPin` was set or changed to, up to what leaves the PIN as it is. The key
pairs and the initialisation vectors of the commands are any. -/
inductive AfterSet (newPin : RustStr) : PinState → Prop
  | set {own : Key} {iv : Iv} {l l' : Link PinState}
      (h : setPin auth.device c own iv newPin l = (.ok (), l')) : AfterSet newPin l'.state
  | change {own : Key} {iv iv' : Iv} {oldPin : RustStr} {l l' : Link PinState}
      (h : changePin auth.device c own iv iv' oldPin newPin l = (.ok (), l')) :
      AfterSet newPin l'.state
  | later {st st' : PinState} (h : AfterSet newPin st) (hpin : st'.pin = st.pin) :
      AfterSet newPin st'

/-- **The PIN that was set is the PIN that opens the key.** It is kept as it was given, and when it
is presented for a change or for a token its hash is the one that is kept. Either command that
stores a PIN covers what it sends with its parameter, the old PIN's hash included. -/
structure PinOpens (newPin : RustStr) : Prop where
  stored : ∀ st, AfterSet auth newPin st → st.pin = some newPin.asBytes
  presentedByChange : ∀ own iv iv' another m m' result, AfterSet auth newPin m.state →
    validatePin another = .ok () →
    changePin auth.device c own iv iv' newPin another m = (result, m') →
    ∃ r proto, PinAsked auth m m' r proto ∧ presentedHash c proto r = storedHash c m.state
  presentedForToken : ∀ (cmd : TokenCommand auth) own iv m m' result,
    AfterSet auth newPin m.state → cmd.run auth own iv newPin m = (result, m') →
    ∃ r proto, PinAsked auth m m' r proto ∧ presentedHash c proto r = storedHash c m.state ∧
      (∀ t, result = .ok t → m'.state.token = some t.token) ∧
      (m.state.retries ≠ 0 → auth.permits r = true → ∃ t, result = .ok t)
  coveredBySet : ∀ own iv l l' result, setPin auth.device c own iv newPin l = (result, l') →
    ∃ r proto newPinEnc, PinAsked auth l l' r proto ∧ r.newPinEnc = some newPinEnc ∧
      r.pinHashEnc = none ∧ r.pinUvAuthParam = some (proto.authenticate c newPinEnc) ∧
      paramValid c proto r = true
  coveredByChange : ∀ own iv iv' oldPin l l' result,
    changePin auth.device c own iv iv' oldPin newPin l = (result, l') →
    ∃ r proto newPinEnc pinHashEnc, PinAsked auth l l' r proto ∧ r.newPinEnc = some newPinEnc ∧
      r.pinHashEnc = some pinHashEnc ∧
      r.pinUvAuthParam = some (proto.authenticate c (newPinEnc ++ pinHashEnc)) ∧
      paramValid c proto r = true

/-! ### What the authenticator finds in a request -/

theorem presentedHash_of {r : PinRequest} {proto : PinProtocol} {iv : Iv} {pin : RustStr}
    (h : r.pinHashEnc = some (proto.encrypt c iv (c.left16Sha256 pin.asBytes))) :
    presentedHash c proto r = some (c.left16Sha256 pin.asBytes) := by
  have hlen := c.length_left16Sha256 pin.asBytes
  have hne : c.left16Sha256 pin.asBytes ≠ [] := by
    intro hnil
    rw [hnil] at hlen
    cases hlen
  rw [presentedHash, h, Option.bind_some, proto.decrypt_encrypt iv hne (Dvd.intro 1 hlen.symm)]
  rfl

theorem newPinOf_of {r : PinRequest} {proto : PinProtocol} {iv : Iv} {pin : RustStr}
    (hpin : pin.len ≤ 64) (h : r.newPinEnc = some (proto.encrypt c iv (padPinTo64 pin))) :
    newPinOf c proto r = some (Padding.strip 0 pin.asBytes) := by
  have hlen := length_padPinTo64 hpin
  have hne : padPinTo64 pin ≠ [] := by
    intro hnil
    rw [hnil] at hlen
    cases hlen
  rw [newPinOf, h, Option.bind_some, proto.decrypt_encrypt iv hne (Dvd.intro 4 hlen.symm)]
  show (if (padPinTo64 pin).length = 64 then some (Padding.strip 0 (padPinTo64 pin)) else none) = _
  rw [if_pos hlen, strip_padPinTo64]

theorem paramValid_of {r : PinRequest} {proto : PinProtocol} {message : List UInt8}
    (hmessage : r.ciphertexts = message)
    (h : r.pinUvAuthParam = some (proto.authenticate c message)) :
    paramValid c proto r = true := by
  rw [paramValid, h, hmessage]
  exact decide_eq_true rfl

/-! ### What the host makes of an answer -/

theorem statusOf_refuse {status : UInt8} (hstatus : status ≠ 0) (st : PinState) :
    statusOf (refuse status st) = .error (.ctap (.statusCode status)) := by
  have hread : readPinResponse [status] = .error (.statusCode status) := by
    show splitStatus [status] >>= _ = _
    rw [splitStatus, if_pos hstatus]
    rfl
  rw [statusOf, refuse, hread]
  rfl

theorem storePin_ok {st : PinState} {pin : List UInt8}
    (h : statusOf (auth.storePin st (some pin)) = .ok ()) :
    auth.accepts pin = true ∧ (auth.storePin st (some pin)).2.pin = some pin := by
  rw [storePin] at h ⊢
  by_cases haccepts : auth.accepts pin = false
  · rw [if_pos haccepts, statusOf_refuse (by decide)] at h
    cases h
  · rw [if_neg haccepts]
    exact ⟨eq_true_of_ne_false haccepts, rfl⟩

theorem storePin_accepted {st : PinState} {pin : List UInt8} (h : auth.accepts pin = true) :
    statusOf (auth.storePin st (some pin)) = .ok () := by
  rw [storePin, if_neg (ne_false_of_eq_true h)]
  rfl

/-- The one way past the check of a PIN; on every other the answer is a refusal. -/
theorem checkPin_cases (st : PinState) (r : PinRequest) (proto : PinProtocol) :
    (∃ hash, storedHash c st = some hash ∧ st.retries ≠ 0 ∧ presentedHash c proto r = some hash ∧
        checkPin c st r proto = .ok { st with retries := MAX_RETRIES }) ∨
      ∃ status st', status ≠ 0 ∧ checkPin c st r proto = .error (refuse status st') := by
  rw [checkPin]
  cases hstored : storedHash c st with
  | none => exact .inr ⟨_, _, by decide, rfl⟩
  | some hash =>
      by_cases hretries : st.retries = 0
      · exact .inr ⟨_, _, by decide, if_pos hretries⟩
      by_cases hpresented : presentedHash c proto r = some hash
      · exact .inl ⟨hash, rfl, hretries, hpresented,
          (if_neg hretries).trans (if_pos hpresented)⟩
      · exact .inr ⟨_, _, by decide, (if_neg hretries).trans (if_neg hpresented)⟩

/-- The right PIN passes as long as attempts are left. -/
theorem checkPin_right {st : PinState} {r : PinRequest} {proto : PinProtocol}
    (hpresented : presentedHash c proto r = storedHash c st)
    (hset : (storedHash c st).isSome = true) (hretries : st.retries ≠ 0) :
    checkPin c st r proto = .ok { st with retries := MAX_RETRIES } := by
  obtain ⟨hash, hhash⟩ := Option.isSome_iff_exists.mp hset
  rw [checkPin, hhash]
  exact (if_neg hretries).trans (if_pos (hpresented.trans hhash))

theorem tokenResult_refuse (name : String) (proto : PinProtocol) (chosen : SelectedPinProtocol)
    {status : UInt8} (hstatus : status ≠ 0) (st : PinState) (t : PinUvAuthToken) :
    tokenResult c name proto chosen (refuse status st) ≠ .ok t := by
  have hread : readPinResponse [status] = .error (.statusCode status) := by
    show splitStatus [status] >>= _ = _
    rw [splitStatus, if_pos hstatus]
    rfl
  rw [tokenResult, refuse, hread]
  nofun

/-- The host decrypts the token that the authenticator encrypted. -/
theorem tokenResult_response (name : String) (proto : PinProtocol) (chosen : SelectedPinProtocol)
    (st st' : PinState) : tokenResult c name proto chosen (auth.tokenResponse st proto, st') =
      .ok { protocol := chosen.version, token := (auth.tokens st.turn).val } := by
  have hlen := (auth.tokens st.turn).property
  have hdvd : 16 ∣ (auth.tokens st.turn).val.length := by omega
  have hne : (auth.tokens st.turn).val ≠ [] := by
    intro hnil
    rw [hnil] at hlen
    exact absurd hlen (by decide)
  have hshort := proto.length_encrypt_le (c := c) (auth.ivs st.turn) hdvd
  have hsized : (Value.map [(.uInt 2, .bytes (proto.encrypt c (auth.ivs st.turn)
      (auth.tokens st.turn).val))]).Sized :=
    ⟨of_decide_eq_true rfl, ⟨trivial, Nat.lt_of_le_of_lt hshort (by omega)⟩, trivial⟩
  have htoken : tokenOf c name proto chosen { PinResponse.empty with
      pinTokenEnc := some (proto.encrypt c (auth.ivs st.turn) (auth.tokens st.turn).val) } =
        .ok { protocol := chosen.version, token := (auth.tokens st.turn).val } := by
    simp only [tokenOf, proto.decrypt_encrypt _ hne hdvd, checkTokenLen, if_pos hlen]
    rfl
  rw [tokenResult, tokenResponse, readPinResponse_map hsized (of_decide_eq_true rfl)]
  show (tokenOf c name proto chosen _).mapError _ = _
  exact congrArg (Except.mapError PinFailure.ctap) htoken

/-! ### What is kept -/

theorem validatePin_of_setPin {own : Key} {iv : Iv} {newPin : RustStr} {l l' : Link PinState}
    (h : setPin auth.device c own iv newPin l = (.ok (), l')) : validatePin newPin = .ok () := by
  cases hvalid : validatePin newPin with
  | ok u => rfl
  | error e =>
      have hpin : PinOp.ofExcept (validatePin newPin) l = (.error e, l) := by
        rw [hvalid]
        rfl
      rw [setPin, PinOp.bind_error hpin] at h
      cases h

theorem validatePin_of_changePin {own : Key} {iv iv' : Iv} {oldPin newPin : RustStr}
    {l l' : Link PinState} (h : changePin auth.device c own iv iv' oldPin newPin l = (.ok (), l')) :
    validatePin newPin = .ok () := by
  cases hvalid : validatePin newPin with
  | ok u => rfl
  | error e =>
      have hpin : PinOp.ofExcept (validatePin newPin) l = (.error e, l) := by
        rw [hvalid]
        rfl
      rw [changePin, PinOp.bind_error hpin] at h
      cases h

/-- A PIN that was set is kept without the zeros it ends in, and was accepted without them. -/
theorem setPin_keeps {own : Key} {iv : Iv} {newPin : RustStr} {l l' : Link PinState}
    (h : setPin auth.device c own iv newPin l = (.ok (), l')) :
    auth.accepts (Padding.strip 0 newPin.asBytes) = true ∧
      l'.state.pin = some (Padding.strip 0 newPin.asBytes) := by
  have hvalid := validatePin_of_setPin auth h
  obtain ⟨r, proto, l₁, hrun, hstate, -, hnew, -, -⟩ := setPin_run auth own iv hvalid l
  obtain ⟨hstatus, rfl⟩ := Prod.mk.inj (hrun.symm.trans h)
  rw [hstate]
  rw [handleSetPin, newPinOf_of (len_of_validatePin hvalid) hnew] at hstatus ⊢
  split at hstatus
  · rw [statusOf_refuse (by decide)] at hstatus
    cases hstatus
  · rename_i hno
    rw [if_neg hno]
    exact storePin_ok auth hstatus

theorem changePin_keeps {own : Key} {iv iv' : Iv} {oldPin newPin : RustStr} {l l' : Link PinState}
    (h : changePin auth.device c own iv iv' oldPin newPin l = (.ok (), l')) :
    auth.accepts (Padding.strip 0 newPin.asBytes) = true ∧
      l'.state.pin = some (Padding.strip 0 newPin.asBytes) := by
  have hvalid := validatePin_of_changePin auth h
  obtain ⟨r, proto, l₁, hrun, hstate, -, hnew, -, -⟩ :=
    changePin_run auth own iv iv' oldPin hvalid l
  obtain ⟨hstatus, rfl⟩ := Prod.mk.inj (hrun.symm.trans h)
  rw [hstate]
  rw [handleChangePin, newPinOf_of (len_of_validatePin hvalid) hnew] at hstatus ⊢
  split at hstatus
  · rw [statusOf_refuse (by decide)] at hstatus
    cases hstatus
  · rename_i hno
    rw [if_neg hno]
    rcases checkPin_cases (c := c) l.state r proto with ⟨hash, -, -, -, hcheck⟩ |
      ⟨status, st, hne, hcheck⟩
    · rw [hcheck] at hstatus ⊢
      exact storePin_ok auth hstatus
    · rw [hcheck] at hstatus
      exact absurd (hstatus.symm.trans (statusOf_refuse hne st)) nofun

theorem pin_of_afterSet {newPin : RustStr} {st : PinState} (h : AfterSet auth newPin st) :
    auth.accepts (Padding.strip 0 newPin.asBytes) = true ∧
      st.pin = some (Padding.strip 0 newPin.asBytes) := by
  induction h with
  | set h => exact setPin_keeps auth h
  | change h => exact changePin_keeps auth h
  | later _ hpin ih => exact ⟨ih.1, hpin.trans ih.2⟩

/-- A PIN that the authenticator accepts is set where none is. -/
theorem setPin_succeeds (own : Key) (iv : Iv) {newPin : RustStr}
    (hvalid : validatePin newPin = .ok ())
    (haccepts : auth.accepts (Padding.strip 0 newPin.asBytes) = true) {l : Link PinState}
    (hnone : l.state.pin = none) :
    ∃ l', setPin auth.device c own iv newPin l = (.ok (), l') := by
  obtain ⟨r, proto, l', hrun, -, -, hnew, hhash, hparam⟩ := setPin_run auth own iv hvalid l
  have hmessage : r.ciphertexts = proto.encrypt c iv (padPinTo64 newPin) := by
    rw [PinRequest.ciphertexts, hnew, hhash]
    exact List.append_nil _
  have hok : ¬(l.state.pin.isSome = true ∨ paramValid c proto r = false) := by
    rintro (hsome | hinvalid)
    · rw [hnone] at hsome
      cases hsome
    · rw [paramValid_of hmessage hparam] at hinvalid
      cases hinvalid
  rw [handleSetPin, if_neg hok, newPinOf_of (len_of_validatePin hvalid) hnew,
    storePin_accepted auth haccepts] at hrun
  exact ⟨l', hrun⟩

/-! ### Tokens -/

theorem tokenRequest_opens {sub : UInt8} (name : String) {more : List (Value × Value)} {own : Key}
    {iv : Iv} {pin : RustStr} {chosen : SelectedPinProtocol}
    (hsub : sub.toUInt64 = 5 ∨ sub.toUInt64 = 9)
    (hplain : ∀ {pinHashEnc : List UInt8}, pinHashEnc.length < 2 ^ 64 →
      Plain ((.uInt KEY_PIN_HASH_ENC, .bytes pinHashEnc) :: more))
    (hknown : PinAuthenticator.protocolOf auth.protocols chosen.version.toUInt64 = some chosen)
    {m m' : Link PinState} {result : Except PinFailure PinUvAuthToken}
    (hpin : m.state.pin = some pin.asBytes)
    (h : tokenRequest auth.device c sub name more own iv pin chosen m = (result, m')) :
    ∃ r proto, PinAsked auth m m' r proto ∧ presentedHash c proto r = storedHash c m.state ∧
      (∀ t, result = .ok t → m'.state.token = some t.token) ∧
      (m.state.retries ≠ 0 → auth.permits r = true → ∃ t, result = .ok t) := by
  obtain ⟨r, proto, l', hrun, hstate, hasked, hhash⟩ :=
    tokenRequest_run auth name own iv pin hsub hplain hknown m
  obtain ⟨rfl, rfl⟩ := Prod.mk.inj (hrun.symm.trans h)
  have hstored : storedHash c m.state = some (c.left16Sha256 pin.asBytes) := by
    rw [storedHash, hpin]
    rfl
  have hpresented : presentedHash c proto r = storedHash c m.state :=
    (presentedHash_of hhash).trans hstored.symm
  refine ⟨r, proto, hasked, hpresented, ?_, ?_⟩
  · intro t ht
    rw [hstate]
    rw [handleToken] at ht ⊢
    split at ht
    · exact absurd ht (tokenResult_refuse name proto chosen (by decide) _ t)
    · rename_i hno
      rw [if_neg hno]
      rcases checkPin_cases (c := c) m.state r proto with ⟨hash, -, -, -, hcheck⟩ |
        ⟨status, st, hne, hcheck⟩
      · rw [hcheck] at ht ⊢
        obtain rfl :=
          Except.ok.inj ((tokenResult_response auth name proto chosen _ _).symm.trans ht)
        rfl
      · rw [hcheck] at ht
        exact absurd ht (tokenResult_refuse name proto chosen hne st t)
  · intro hretries hpermits
    rw [handleToken, if_neg (ne_false_of_eq_true hpermits),
      checkPin_right hpresented (hstored ▸ rfl) hretries]
    exact ⟨_, tokenResult_response auth name proto chosen _ _⟩

theorem TokenCommand.opens (cmd : TokenCommand auth) {own : Key} {iv : Iv} {pin : RustStr}
    {m m' : Link PinState} {result : Except PinFailure PinUvAuthToken}
    (hpin : m.state.pin = some pin.asBytes) (h : cmd.run auth own iv pin m = (result, m')) :
    ∃ r proto, PinAsked auth m m' r proto ∧ presentedHash c proto r = storedHash c m.state ∧
      (∀ t, result = .ok t → m'.state.token = some t.token) ∧
      (m.state.retries ≠ 0 → auth.permits r = true → ∃ t, result = .ok t) := by
  have hknown := protocolOf_select auth.protocols
  cases cmd with
  | pinToken =>
      rw [run, getPinToken, PinOp.bind_ok (negotiateProtocol_run auth m)] at h
      obtain ⟨r, proto, hasked, hrest⟩ :=
        tokenRequest_opens auth _ (.inl rfl) (fun hhash => plain_legacyEntries hhash) hknown
          (m := { m with sent := m.sent ++ [[CTAP2_GET_INFO]] }) hpin h
      exact ⟨r, proto, hasked.of_negotiated, hrest⟩
  | withPermissions permissions rpId =>
      have hrp : ∀ rp ∈ rpId.map Subtype.val, rp.len < 2 ^ 64 := by
        intro rp hmem
        obtain ⟨s, -, rfl⟩ := Option.mem_map.mp hmem
        exact s.property
      rw [run, getPinUvAuthTokenWithPermissions, PinOp.bind_ok (negotiateProtocol_run auth m)] at h
      obtain ⟨r, proto, hasked, hrest⟩ := tokenRequest_opens auth _ (.inr rfl)
        (fun hhash => plain_tokenEntries hhash permissions hrp) hknown
        (m := { m with sent := m.sent ++ [[CTAP2_GET_INFO]] }) hpin h
      exact ⟨r, proto, hasked.of_negotiated, hrest⟩
  | negotiated permissions info hinfo hforce =>
      rw [run, getPinUvAuthToken, if_neg hforce, hinfo] at h
      split at h
      · exact tokenRequest_opens auth _ (.inr rfl)
          (fun hhash => plain_tokenEntries hhash permissions (fun rp hrp =>
            absurd hrp (Option.not_mem_none rp))) hknown
          hpin h
      · exact tokenRequest_opens auth _ (.inl rfl) (fun hhash => plain_legacyEntries hhash) hknown
          hpin h

/-! ### When the PIN opens the key -/

/-- A PIN that is kept as it was typed ends in no zero. -/
theorem strip_of_opens {newPin : RustStr} (hvalid : validatePin newPin = .ok ())
    (haccepts : auth.accepts (Padding.strip 0 newPin.asBytes) = true)
    (h : PinOpens auth newPin) : Padding.strip 0 newPin.asBytes = newPin.asBytes := by
  obtain ⟨l', hset⟩ := setPin_succeeds auth (auth.keys .v1 0) Iv.zero hvalid haccepts
    (l := { state := { pin := none, retries := MAX_RETRIES, turn := 0, token := none }
            sent := [] }) rfl
  have hstored := h.stored _ (.set hset)
  rw [(setPin_keeps auth hset).2] at hstored
  exact Option.some.inj hstored

theorem opens_of_strip {newPin : RustStr} (hvalid : validatePin newPin = .ok ())
    (hstrip : auth.accepts (Padding.strip 0 newPin.asBytes) = true →
      Padding.strip 0 newPin.asBytes = newPin.asBytes) : PinOpens auth newPin where
  stored st hst := by
    obtain ⟨haccepts, hpin⟩ := pin_of_afterSet auth hst
    rwa [hstrip haccepts] at hpin
  presentedByChange own iv iv' another m m' result hm hanother h := by
    obtain ⟨haccepts, hpin⟩ := pin_of_afterSet auth hm
    rw [hstrip haccepts] at hpin
    obtain ⟨r, proto, l', hrun, -, hasked, -, hhash, -⟩ :=
      changePin_run auth own iv iv' newPin hanother m
    obtain ⟨rfl, rfl⟩ := Prod.mk.inj (hrun.symm.trans h)
    refine ⟨r, proto, hasked, ?_⟩
    rw [presentedHash_of hhash, storedHash, hpin]
    rfl
  presentedForToken cmd own iv m m' result hm h := by
    obtain ⟨haccepts, hpin⟩ := pin_of_afterSet auth hm
    rw [hstrip haccepts] at hpin
    exact cmd.opens auth hpin h
  coveredBySet own iv l l' result h := by
    obtain ⟨r, proto, l', hrun, -, hasked, hnew, hhash, hparam⟩ := setPin_run auth own iv hvalid l
    obtain ⟨rfl, rfl⟩ := Prod.mk.inj (hrun.symm.trans h)
    refine ⟨r, proto, _, hasked, hnew, hhash, hparam, paramValid_of ?_ hparam⟩
    rw [PinRequest.ciphertexts, hnew, hhash]
    exact List.append_nil _
  coveredByChange own iv iv' oldPin l l' result h := by
    obtain ⟨r, proto, l', hrun, -, hasked, hnew, hhash, hparam⟩ :=
      changePin_run auth own iv iv' oldPin hvalid l
    obtain ⟨rfl, rfl⟩ := Prod.mk.inj (hrun.symm.trans h)
    refine ⟨r, proto, _, _, hasked, hnew, hhash, hparam, paramValid_of ?_ hparam⟩
    rw [PinRequest.ciphertexts, hnew, hhash]
    rfl

/-- **Exactly the PINs that end in no zero byte open the key**, but for those that the
authenticator does not accept without their zeros at the end: these are never set. The PIN is any of
an allowed length; the authenticator's policy, the key pairs and the IVs are any. -/
theorem pinOpens_iff {newPin : RustStr} (hvalid : validatePin newPin = .ok ()) :
    PinOpens auth newPin ↔ newPin.asBytes.getLast? ≠ some 0 ∨
      auth.accepts (Padding.strip 0 newPin.asBytes) = false := by
  rw [← Padding.strip_eq_self_iff]
  constructor
  · intro h
    cases haccepts : auth.accepts (Padding.strip 0 newPin.asBytes) with
    | true => exact .inl (strip_of_opens auth hvalid haccepts h)
    | false => exact .inr rfl
  · rintro (hstrip | hrefused)
    · exact opens_of_strip auth hvalid fun _ => hstrip
    · refine opens_of_strip auth hvalid fun haccepts => ?_
      rw [haccepts] at hrefused
      cases hrefused

/-! ### A PIN with a zero at its end -/

theorem length_zeroBytes : (List.replicate 32 (0 : UInt8)).length = 32 := List.length_replicate

def zeroPoint : Bytes32 := ⟨List.replicate 32 0, length_zeroBytes⟩

/-! The key pairs of a host and an authenticator on P-256, their shared secret for the first
protocol, and what AES-256 under that secret makes of the two PINs `1234` and `2580`. -/

inductive SamplePair where
  | host
  | authenticator
deriving DecidableEq, Repr

/-- The private key is the bytes `1` to `32`. -/
def HOST_X : Bytes32 :=
  ⟨[0x51, 0x5c, 0x3d, 0x6e, 0xb9, 0xe3, 0x96, 0xb9, 0x04, 0xd3, 0xfe, 0xca, 0x7f, 0x54, 0xfd, 0xcd,
     0x0c, 0xc1, 0xe9, 0x97, 0xbf, 0x37, 0x5d, 0xca, 0x51, 0x5a, 0xd0, 0xa6, 0xc3, 0xb4, 0x03,
     0x5f],
    rfl⟩

def HOST_Y : Bytes32 :=
  ⟨[0x45, 0x36, 0xbe, 0x3a, 0x50, 0xf3, 0x18, 0xfb, 0xf9, 0xa5, 0x47, 0x59, 0x02, 0xa2, 0x21, 0x50,
     0x2b, 0xef, 0x0d, 0x57, 0xe0, 0x8c, 0x53, 0xb2, 0xcc, 0x0a, 0x56, 0xf1, 0x7d, 0x9f, 0x93,
     0x54],
    rfl⟩

/-- The private key is the bytes `33` to `64`. -/
def AUTHENTICATOR_X : Bytes32 :=
  ⟨[0x1f, 0x14, 0x01, 0x46, 0xbf, 0xb1, 0xb2, 0x51, 0xf8, 0x4f, 0x4d, 0xdb, 0xe0, 0xd4, 0xcd, 0xcf,
     0xd7, 0x7a, 0xfd, 0x98, 0x4a, 0x95, 0x20, 0xe3, 0x57, 0x94, 0x02, 0x1f, 0x83, 0x12, 0xbb,
     0x9e],
    rfl⟩

def AUTHENTICATOR_Y : Bytes32 :=
  ⟨[0xec, 0x99, 0x5a, 0x08, 0xb1, 0xfa, 0x77, 0x04, 0xdf, 0x3d, 0xcc, 0x0b, 0x50, 0xa9, 0x66, 0x52,
     0x63, 0xfb, 0x77, 0x11, 0xf9, 0x5f, 0x9f, 0x8a, 0x44, 0x9c, 0x50, 0x96, 0xe4, 0x7c, 0x89,
     0x2b],
    rfl⟩

/-- The x coordinate that the two agree on. -/
def AGREED_X : Bytes32 :=
  ⟨[0x4f, 0xe2, 0x43, 0x90, 0x8f, 0x37, 0x8a, 0xa1, 0xc2, 0xa6, 0x95, 0x38, 0x82, 0x2e, 0x6e, 0xd9,
     0x08, 0xc3, 0x22, 0x5d, 0x86, 0x92, 0x57, 0x55, 0x07, 0xc6, 0x49, 0x90, 0x12, 0x45, 0x15,
     0x0a],
    rfl⟩

/-- The x coordinates that each would agree on with itself. -/
def HOST_TWICE_X : Bytes32 :=
  ⟨[0xb4, 0xf1, 0xfc, 0xce, 0x40, 0x73, 0x5f, 0x83, 0x6a, 0xf8, 0xd6, 0x31, 0x2d, 0x24, 0x8d, 0x1a,
     0x83, 0x48, 0x40, 0x56, 0x69, 0xa1, 0x95, 0xfa, 0xc5, 0x35, 0x04, 0x06, 0xba, 0x76, 0xbc,
     0xce],
    rfl⟩

def AUTHENTICATOR_TWICE_X : Bytes32 :=
  ⟨[0x0a, 0xc0, 0x9c, 0xcc, 0x40, 0x85, 0x81, 0xb6, 0x26, 0x22, 0xbf, 0x72, 0x52, 0xc3, 0x08, 0x36,
     0x80, 0x40, 0xff, 0x6e, 0xb2, 0xae, 0x01, 0xb7, 0x70, 0x23, 0x04, 0xe1, 0x4d, 0x58, 0xca,
     0x08],
    rfl⟩

/-- SHA-256 of `AGREED_X`. -/
def SECRET : Bytes32 :=
  ⟨[0x1e, 0xc0, 0x2c, 0xfb, 0x04, 0x21, 0xe2, 0xa0, 0x32, 0x8e, 0x67, 0x37, 0xa6, 0xc0, 0x8e, 0xbe,
     0xc1, 0xb8, 0x02, 0x8a, 0x23, 0x48, 0x8b, 0xa3, 0x7e, 0x64, 0xaa, 0xc2, 0xea, 0xc8, 0x9d,
     0xb3],
    rfl⟩

/-- The first block of the padded PIN, and the four that AES-256 makes one from the other: all
other blocks of the PIN are zeros. -/
def BLOCKS_1234 : List (List UInt8) :=
  [[0x31, 0x32, 0x33, 0x34, 0x00, 0x00, 0x00, 0x00, 0x00, 0x00, 0x00, 0x00, 0x00, 0x00, 0x00,
      0x00],
    [0xca, 0xf3, 0x26, 0x01, 0x21, 0xa0, 0x3e, 0x36, 0x1f, 0x6f, 0xe3, 0x95, 0xb0, 0x5a, 0xc0,
      0x96],
    [0xea, 0xb4, 0x27, 0x4b, 0x24, 0x57, 0xf8, 0x7d, 0xf6, 0xbd, 0x8f, 0x33, 0xad, 0xb6, 0x83,
      0xda],
    [0xa4, 0xbf, 0xe6, 0x8e, 0xe1, 0xd4, 0xab, 0xce, 0xfa, 0x87, 0x3a, 0xeb, 0xe3, 0xfe, 0x8f,
      0x95],
    [0x15, 0x2a, 0xd7, 0xc6, 0xce, 0xe9, 0x1f, 0x56, 0x80, 0xc5, 0xf1, 0xa8, 0xcb, 0xf4, 0x25,
      0x0d]]

/-- The same for the other PIN. -/
def BLOCKS_2580 : List (List UInt8) :=
  [[0x32, 0x35, 0x38, 0x30, 0x00, 0x00, 0x00, 0x00, 0x00, 0x00, 0x00, 0x00, 0x00, 0x00, 0x00,
      0x00],
    [0x04, 0x22, 0x8c, 0xb9, 0x44, 0x57, 0xfd, 0xdc, 0x58, 0xca, 0x29, 0x0a, 0xd2, 0x2c, 0xfe,
      0xef],
    [0x2b, 0x3f, 0x17, 0xac, 0x86, 0x06, 0xd3, 0xe1, 0xd0, 0xf4, 0x95, 0xf6, 0xe0, 0x64, 0x37,
      0x6e],
    [0x4d, 0x01, 0x24, 0x94, 0x6e, 0x1b, 0x67, 0x69, 0x5a, 0x3b, 0xaa, 0xa1, 0x24, 0x65, 0x46,
      0x26],
    [0x84, 0xe0, 0x19, 0x3c, 0x17, 0xfb, 0x9e, 0x2f, 0xd5, 0xe8, 0x60, 0xd0, 0x8e, 0x99, 0x9e,
      0xd1]]

/-- The first half of the PIN's SHA-256, and its cipher. -/
def HASH_1234 : List (List UInt8) :=
  [[0x03, 0xac, 0x67, 0x42, 0x16, 0xf3, 0xe1, 0x5c, 0x76, 0x1e, 0xe1, 0xa5, 0xe2, 0x55, 0xf0,
      0x67],
    [0x82, 0xe6, 0x2e, 0xeb, 0xf6, 0x95, 0x63, 0xc7, 0xc6, 0x85, 0xef, 0x81, 0x60, 0xbc, 0x91,
      0x7c]]

/-- The same for the other PIN. -/
def HASH_2580 : List (List UInt8) :=
  [[0xed, 0x94, 0x6f, 0x65, 0xd2, 0xc7, 0x85, 0xd9, 0x0e, 0x82, 0x7c, 0x5f, 0xfd, 0x87, 0x9c,
      0xe3],
    [0x01, 0xfb, 0xb0, 0xb0, 0xf3, 0xf2, 0x4d, 0xbe, 0x3f, 0xda, 0x8e, 0x3e, 0xe2, 0x77, 0x92,
      0xff]]

def sampleChains : List (List (List UInt8)) := [BLOCKS_1234, BLOCKS_2580, HASH_1234, HASH_2580]

def samplePublic : SamplePair → Bytes32 × Bytes32
  | .host => (HOST_X, HOST_Y)
  | .authenticator => (AUTHENTICATOR_X, AUTHENTICATOR_Y)

def sampleAgreed : SamplePair → SamplePair → Bytes32
  | .host, .host => HOST_TWICE_X
  | .authenticator, .authenticator => AUTHENTICATOR_TWICE_X
  | _, _ => AGREED_X

def sampleRawEcdh (own : SamplePair) (point : Bytes32 × Bytes32) : Option Bytes32 :=
  if point = samplePublic .host then some (sampleAgreed own .host)
  else if point = samplePublic .authenticator then some (sampleAgreed own .authenticator)
  else none

theorem sampleRawEcdh_public (own peer : SamplePair) :
    sampleRawEcdh own (samplePublic peer) = some (sampleAgreed own peer) := by
  cases own <;> cases peer <;> decide

theorem length_samplePerm (block : List UInt8) (h : block.length = 16) :
    (Cycles.perm sampleChains block).length = 16 :=
  @Cycles.perm_keeps _ _ (fun b : List UInt8 => b.length = 16) sampleChains (by decide) _ h

def samplePinCrypto : PinCrypto SamplePair where
  sha256 := Proto.Sha256.digest
  hmacSha256 := Proto.Sha256.hmac
  aesGcmEncrypt _ _ plain _ := plain
  aesGcmDecrypt _ _ ciphertext _ := some ciphertext
  inflate block _ := some block
  length_sha256 := Proto.Sha256.length_digest
  length_hmacSha256 := Proto.Sha256.length_hmac
  publicXy := samplePublic
  rawEcdh := sampleRawEcdh
  aesEncrypt _ block := Cycles.perm sampleChains block
  aesDecrypt _ block := (Cycles.perm sampleChains).symm block
  ecdh_shared own peer := by
    refine ⟨sampleAgreed own peer, sampleRawEcdh_public own peer, ?_⟩
    rw [sampleRawEcdh_public]
    cases own <;> cases peer <;> rfl
  length_aesEncrypt _ := length_samplePerm
  aesDecrypt_aesEncrypt _ _ _ := Equiv.symm_apply_apply _ _

/-- `{6: [1]}`: the first protocol alone. -/
def sampleEntries : List (Value × Value) := [(.uInt 6, .array [.uInt 1])]

theorem sampleEntries_sized : (Value.map sampleEntries).Sized :=
  ⟨by decide, ⟨trivial, by decide, trivial, trivial⟩, trivial⟩

theorem sampleEntries_nesting : (Value.map sampleEntries).nesting ≤ DECODE_DEPTH_LIMIT := by decide

def sampleToken : {t : List UInt8 // t.length = 16 ∨ t.length = 32} :=
  ⟨zeroPoint.val, .inr zeroPoint.property⟩

/-- An authenticator that accepts PINs of four bytes and more. -/
def sampleAuthenticator : PinAuthenticator samplePinCrypto where
  entries := sampleEntries
  keys _ _ := .authenticator
  ivs _ := Iv.zero
  tokens _ := sampleToken
  accepts pin := decide (4 ≤ pin.length)
  grants _ _ := true
  entries_sized := sampleEntries_sized
  entries_nesting := sampleEntries_nesting

/-- "1234". -/
def plainPin : RustStr := ['1', '2', '3', '4']

/-- "1234" and a zero. -/
def zeroPin : RustStr := ['1', '2', '3', '4', Char.ofNat 0]

/-- The host's secret, the PIN under it and the tag are the known ones, and the PIN opens the key
as the theorem says. -/
theorem pinOpens_iff_plainPin :
    samplePinCrypto.sharedSecret .v1 .host (samplePublic .authenticator) = .ok (.v1 SECRET) ∧
    (PinProtocol.v1 SECRET).encrypt samplePinCrypto Iv.zero (padPinTo64 plainPin) =
      BLOCKS_1234.tail.flatten ∧
    validatePin plainPin = .ok () ∧
    (PinOpens sampleAuthenticator plainPin ↔ plainPin.asBytes.getLast? ≠ some 0 ∨
      sampleAuthenticator.accepts (Padding.strip 0 plainPin.asBytes) = false) := by
  have hvalid : validatePin plainPin = .ok () := by decide
  exact ⟨by decide +kernel, by decide, hvalid, pinOpens_iff sampleAuthenticator hvalid⟩

/-- The PIN is taken for the one without the zero: what was typed does not open the key. -/
theorem trailingZero_lost :
    validatePin zeroPin = .ok () ∧ ¬PinOpens sampleAuthenticator zeroPin := by
  have hvalid : validatePin zeroPin = .ok () := by decide
  refine ⟨hvalid, fun h => ?_⟩
  have hstrip := strip_of_opens sampleAuthenticator hvalid (by decide) h
  exact absurd hstrip (by decide)

end Keyroost.Ctap
