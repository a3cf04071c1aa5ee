import Keyroost.Transport.OathSession

/-!
# A session and its applet

The applet at the other end of an `OathSession`: it holds a key or none, says so in its SELECT
answer, checks VALIDATE and SET CODE, and forgets an unlock when it likes. Answers may be lost. What
the session keeps stays in step with what the applet holds.

The applet reads commands from their bytes (`readCommand`), so the first part shows what it makes of
each command that a session builds. `InStep` relates the key that the session keeps to the one that
the applet holds; each operation has its lemma (`ensures_send`, `Call.ensures_inStep`), and
`session_stays_in_step` is the induction over the calls. The exceptions are there to be read:
`InDoubt` is an answer lost to a change of the key, `Collided` two proofs under different keys that
agree.

`set_password_opens_next_session` goes on with a new session after a password was set.
-/

namespace Keyroost.Transport

open Proto Oath
open Dialogue (Device Asked)

/-! ### The applet -/

/-- A VALIDATE that the applet accepted. The challenges are kept with it: two keys that agree on
them cannot be told apart (`Collided`). -/
structure AcceptedKey where
  key : List UInt8
  challenge : List UInt8
  host : List UInt8
deriving DecidableEq, Repr

/-- What a NAME TLV holds. -/
abbrev DeviceId : Type := { id : List UInt8 // id.length < 256 }

/-- An applet, with whatever accounts it stores. A reset may give it another device id; those that
it had before are kept here, since a session may still go by one of them. -/
structure OathApplet (γ : Type) where
  deviceId : DeviceId
  formerIds : List DeviceId
  key : Option (List UInt8)
  challenge : List UInt8
  authorized : Bool
  accepted : List AcceptedKey
  store : γ
deriving DecidableEq, Repr

variable {γ : Type}

/-- A command as the applet reads it. What it does with the account commands does not touch the
password, so they are all `other`. -/
inductive AppletCommand where
  | select
  | validate (response host : List UInt8)
  | setCode (key challenge response : List UInt8)
  | clearCode
  | reset
  | malformed
  | other
deriving DecidableEq, Repr

/-- The data behind the length byte. -/
def commandData : List UInt8 → List UInt8
  | lc :: rest => rest.take lc.toNat
  | [] => []

def readValidate : List Tlv → AppletCommand
  | [response, host] =>
      if response.tag = RESPONSE ∧ host.tag = CHALLENGE then .validate response.value host.value
      else .malformed
  | _ => .malformed

def readSetCode : List Tlv → AppletCommand
  | [key] => if key.tag = Tag.key.code ∧ key.value = [] then .clearCode else .malformed
  | [key, challenge, response] =>
      if key.tag = Tag.key.code ∧ challenge.tag = CHALLENGE ∧ response.tag = RESPONSE then
        .setCode (key.value.drop 1) challenge.value response.value
      else .malformed
  | _ => .malformed

def readTlvs (read : List Tlv → AppletCommand) (body : List UInt8) : AppletCommand :=
  match parseTlvs (commandData body) with
  | .ok tlvs => read tlvs
  | .error _ => .malformed

def readCommand : List UInt8 → AppletCommand
  | _ :: ins :: p1 :: _ :: body =>
      if ins = INS_SELECT ∧ p1 = 0x04 then .select
      else if ins = INS_VALIDATE then readTlvs readValidate body
      else if ins = INS_SET_CODE then readTlvs readSetCode body
      else if ins = 0x04 then .reset
      else .other
  | _ => .other

/-- What SELECT says of an applet. An empty challenge counts as none, as the source takes it. -/
structure Describes (tlvs : List Tlv) (s : OathApplet γ) : Prop where
  deviceId : findTag tlvs Tag.name.code = some s.deviceId.val
  challenge : (findTag tlvs CHALLENGE).filter (fun c => !c.isEmpty) =
    if s.key.isSome then some s.challenge else none

/-- One command about the password, and its answer. The challenge may change with any of
them; an unlock that a VALIDATE gives lasts to the next command at least. -/
inductive OathApplet.Handles (s : OathApplet γ) :
    AppletCommand → List UInt8 → FinalSw → OathApplet γ → Prop
  | select (challenge : List UInt8) (tlvs : List Tlv) (authorized : Bool)
      (h : Describes tlvs { s with challenge }) :
      Handles s .select (frames tlvs) SUCCESS { s with challenge, authorized }
  | validated (key response host challenge : List UInt8) (tlvs : List Tlv)
      (hkey : s.key = some key) (hresponse : response = respond key s.challenge)
      (hreply : findTag tlvs RESPONSE = some (respond key host)) :
      Handles s (.validate response host) (frames tlvs) SUCCESS
        { s with
          challenge
          authorized := true
          accepted := s.accepted ++ [⟨key, s.challenge, host⟩] }
  | notValidated (response host challenge data : List UInt8) (sw : FinalSw) (authorized : Bool)
      (hkey : ∀ key, s.key = some key → response ≠ respond key s.challenge)
      (hsw : sw.value ≠ 0x9000) :
      Handles s (.validate response host) data sw { s with challenge, authorized }
  | codeSet (key hostChallenge response challenge : List UInt8) (authorized : Bool)
      (hauthorized : s.authorized = true) (hresponse : response = respond key hostChallenge) :
      Handles s (.setCode key hostChallenge response) [] SUCCESS
        { s with key := some key, challenge, authorized }
  | codeCleared (challenge : List UInt8) (authorized : Bool) (hauthorized : s.authorized = true) :
      Handles s .clearCode [] SUCCESS { s with key := none, challenge, authorized }
  | wiped (deviceId : DeviceId) (challenge : List UInt8) (authorized : Bool) (store : γ) :
      Handles s .reset [] SUCCESS
        { s with
          deviceId
          formerIds := s.formerIds ++ [s.deviceId]
          key := none
          challenge
          authorized
          store }
  | refused (command : AppletCommand) (data : List UInt8) (sw : FinalSw)
      (challenge : List UInt8) (authorized : Bool) (hcommand : command ≠ .select)
      (hvalidate : ∀ response host, command ≠ .validate response host) (hother : command ≠ .other)
      (hsw : sw.value ≠ 0x9000) :
      Handles s command data sw { s with challenge, authorized }

/-- The same key under the same device id. -/
structure OathApplet.Same (s t : OathApplet γ) : Prop where
  deviceId : t.deviceId = s.deviceId
  formerIds : t.formerIds = s.formerIds
  key : t.key = s.key
  accepted : t.accepted = s.accepted

/-- A device id that the applet has, or had before some reset. -/
def OathApplet.Had (s : OathApplet γ) (id : List UInt8) : Prop :=
  ∃ d, (d = s.deviceId ∨ d ∈ s.formerIds) ∧ d.val = id

/-- One APDU and its answer. Where answers may be lost, a command may have been carried out or
not. Commands that have nothing to do with the password are answered in any way. -/
inductive OathApplet.Step (lossy : Bool) : Device CardAnswer (OathApplet γ)
  | other {s t : OathApplet γ} {apdu : List UInt8} {answer : CardAnswer apdu}
      (hother : readCommand apdu = .other) (hsame : s.Same t) : Step lossy s apdu answer t
  | answered {s t : OathApplet γ} {apdu data : List UInt8} {sw : FinalSw}
      (hfits : data.length + 2 ≤ RECV_BUFFER)
      (h : s.Handles (readCommand apdu) data sw t) :
      Step lossy s apdu (.ok (data ++ [sw.sw1, sw.sw2])) t
  | lost {s t : OathApplet γ} {apdu : List UInt8} (e : PcscError) (hlossy : lossy = true)
      (h : t = s ∨ ∃ data sw, s.Handles (readCommand apdu) data sw t) :
      Step lossy s apdu (.error e) t

/-! ### Commands read back -/

theorem pushTlv_eq {tag : UInt8} {value : List UInt8} (h : value.length < 256) :
    pushTlv tag value = Tlv.frame ⟨tag, value, h⟩ := rfl

theorem readTlvs_buildApdu (read : List Tlv → AppletCommand) (tail : List UInt8)
    {tlvs : List Tlv} (hfits : (frames tlvs).length < 256) :
    readTlvs read ((frames tlvs).length.toUInt8 :: (frames tlvs ++ tail)) = read tlvs := by
  have hlen : (frames tlvs).length.toUInt8.toNat = (frames tlvs).length :=
    Nat.mod_eq_of_lt hfits
  rw [readTlvs, commandData, hlen, List.take_left, parseTlvs_frames]

theorem length_respond (key challenge : List UInt8) : (respond key challenge).length = 20 :=
  length_hmacSha1 _ _

theorem readCommand_validate (key : AccessKey) (cardChallenge : List UInt8)
    (hostChallenge : HostChallenge) :
    readCommand (validate key.val cardChallenge hostChallenge.val) =
      .validate (respond key.val cardChallenge) hostChallenge.val := by
  have hresponse : (respond key.val cardChallenge).length < 256 := by
    rw [length_respond]
    decide
  have hhost : hostChallenge.val.length < 256 := by
    rw [hostChallenge.property]
    decide
  have hframes : pushTlv RESPONSE (respond key.val cardChallenge) ++
      pushTlv CHALLENGE hostChallenge.val =
        frames [⟨RESPONSE, _, hresponse⟩, ⟨CHALLENGE, _, hhost⟩] := by
    rw [pushTlv_eq hresponse, pushTlv_eq hhost, frames, List.flatMap_cons, List.flatMap_cons,
      List.flatMap_nil, List.append_nil]
  have hfits : (frames [⟨RESPONSE, _, hresponse⟩, ⟨CHALLENGE, _, hhost⟩]).length < 256 := by
    rw [← hframes]
    simp [pushTlv, length_respond, hostChallenge.property]
  have hread := readTlvs_buildApdu readValidate [0x00] hfits
  rw [← hframes] at hread
  exact hread

theorem readCommand_setCode (key : AccessKey) (challenge : HostChallenge) :
    readCommand (setCode key.val challenge.val) =
      .setCode key.val challenge.val (respond key.val challenge.val) := by
  have hkey : (prefixByte .totp .sha1 :: key.val).length < 256 := by
    rw [List.length_cons, key.property]
    decide
  have hchallenge : challenge.val.length < 256 := by
    rw [challenge.property]
    decide
  have hresponse : (respond key.val challenge.val).length < 256 := by
    rw [length_respond]
    decide
  have hframes : pushTlv Tag.key.code (prefixByte .totp .sha1 :: key.val) ++
      pushTlv CHALLENGE challenge.val ++ pushTlv RESPONSE (respond key.val challenge.val) =
        frames [⟨Tag.key.code, _, hkey⟩, ⟨CHALLENGE, _, hchallenge⟩, ⟨RESPONSE, _, hresponse⟩] := by
    rw [pushTlv_eq hkey, pushTlv_eq hchallenge, pushTlv_eq hresponse, frames, List.flatMap_cons,
      List.flatMap_cons, List.flatMap_cons, List.flatMap_nil, List.append_nil, List.append_assoc]
  have hfits : (frames [⟨Tag.key.code, _, hkey⟩, ⟨CHALLENGE, _, hchallenge⟩,
      ⟨RESPONSE, _, hresponse⟩]).length < 256 := by
    rw [← hframes]
    simp [pushTlv, length_respond, challenge.property, key.property, ACCESS_KEY_LEN]
  have hread := readTlvs_buildApdu readSetCode [] hfits
  rw [← hframes, List.append_nil] at hread
  exact hread

theorem readCommand_clearCode : readCommand clearCode = .clearCode := by
  have hfits : (frames [⟨Tag.key.code, [], by decide⟩]).length < 256 := by decide
  exact readTlvs_buildApdu readSetCode [] hfits

theorem readCommand_harmless {apdu : List UInt8} (h : OathSession.Harmless apdu = true) :
    readCommand apdu = .other := by
  rcases apdu with _ | ⟨cla, _ | ⟨ins, _ | ⟨p1, _ | ⟨p2, body⟩⟩⟩⟩
  · rfl
  · rfl
  · rfl
  · rfl
  · simp only [OathSession.Harmless, ne_eq, Bool.and_eq_true, decide_eq_true_eq,
      Bool.not_eq_true'] at h
    obtain ⟨⟨⟨hvalidate, hset⟩, hreset⟩, hselect⟩ := h
    have hother : ¬ (ins = INS_SELECT ∧ p1 = 0x04) := by
      rintro ⟨rfl, rfl⟩
      cases hselect
    rw [readCommand, if_neg hother, if_neg hvalidate, if_neg hset, if_neg hreset]

/-! ### One command -/

namespace OathSession

open Session

variable {lossy : Bool} {m : OathSession} {s : OathApplet γ}

theorem success_value : SUCCESS.value = 0x9000 := by decide

/-- A command about the password: its answer comes at once, or is lost. -/
theorem ensures_transmitFull {apdu : List UInt8} {command : AppletCommand}
    {Post : Attempt (List UInt8 × UInt16) → OathSession → OathApplet γ → Prop}
    (hread : readCommand apdu = command) (hcommand : command ≠ .other)
    (hlost : ∀ e t, lossy = true → (t = s ∨ ∃ data sw, s.Handles command data sw t) →
      Post (.error (.transport (.pcsc e))) m t)
    (hanswer : ∀ data sw t, s.Handles command data sw t → Post (.ok (data, sw.value)) m t) :
    Ensures (OathApplet.Step lossy) Post (transmitFull apdu) m s := by
  have hmore := (Applet.oath (moreData m.selectInfo)).moreDataSw_eq
  refine Dialogue.Always.bind ?_
  rw [transmitApplet, MAX_RESPONSE_CHUNKS, transmitLoop]
  intro answer t hstep
  cases hstep with
  | other hother =>
      rw [hread] at hother
      exact absurd hother hcommand
  | answered hfits h =>
      rename_i data sw
      rw [hread] at h
      have hreceived : received (.ok (data ++ [sw.sw1, sw.sw2])) =
          .ok (data ++ [sw.sw1, sw.sw2]) := received_of_le (by simpa using hfits)
      simp only [hreceived, splitSw_append, advanceExchange, classifySw, hmore,
        if_neg sw.final.1, if_neg sw.final.2]
      exact hanswer data sw t h
  | lost e hlossy h =>
      rw [hread] at h
      exact hlost e t hlossy h

/-! ### Staying in step -/

/-- What the session keeps is what the applet holds. A session may keep no key while the applet
holds one; then it knows that a password is required. -/
structure InStep (m : OathSession) (s : OathApplet γ) : Prop where
  key : ∀ key, m.accessKey = some key → s.key = some key.val
  passwordRequired : m.selectInfo.passwordRequired = s.key.isSome

/-- The applet accepted the key that a password of these calls gives under a device id of its own
for another key: the two give the same answer to a challenge that the host drew. -/
def Collided (calls : List Call) (s : OathApplet γ) : Prop :=
  ∃ x ∈ s.accepted, ∃ random password id, .unlock random password ∈ calls ∧ s.Had id ∧
    (deriveAccessKey password id).val ≠ x.key ∧
    respond (deriveAccessKey password id).val x.host = respond x.key x.host

def Call.changesKey : Call → Bool
  | .setPassword _ _ | .clearPassword | .factoryReset => true
  | _ => false

/-- A change of the key of which no answer came. -/
def InDoubt (call : Call) (result : Attempt Unit) : Prop :=
  call.changesKey = true ∧ ∃ e, result = .error (.transport (.pcsc e))

theorem parseSelect_of_describes {tlvs : List Tlv} (h : Describes tlvs s) :
    ∃ info, parseSelect (frames tlvs) = .ok info ∧ info.deviceId = s.deviceId.val ∧
      info.challenge = if s.key.isSome then some s.challenge else none := by
  rw [parseSelect, parseTlvs_frames]
  exact ⟨_, rfl, by rw [h.deviceId]; rfl, h.challenge⟩

theorem Handles_select {data : List UInt8} {sw : FinalSw} {t : OathApplet γ}
    (h : s.Handles .select data sw t) : s.Same t ∧ t.store = s.store ∧ ∃ tlvs, data = frames tlvs ∧ sw = SUCCESS ∧
      Describes tlvs t := by
  cases h with
  | select challenge tlvs authorized h =>
      exact ⟨⟨rfl, rfl, rfl, rfl⟩, rfl, tlvs, rfl, rfl, ⟨h.deviceId, h.challenge⟩⟩
  | refused _ _ _ _ _ hcommand => exact absurd rfl hcommand

/-- SELECT tells the session how the applet stands, and changes no key. -/
theorem ensures_select : Ensures (OathApplet.Step lossy) (fun r n t => s.Same t ∧
    t.store = s.store ∧ n.accessKey = m.accessKey ∧ (∀ e, r = .error e → n = m ∧ lossy = true) ∧
    (r = .ok () → n.selectInfo.deviceId = t.deviceId.val ∧
      n.selectInfo.challenge = if t.key.isSome then some t.challenge else none)) select m s := by
  refine ensures_andThen (ensures_transmitFull (show readCommand _ = .select from rfl) nofun ?_ ?_)
  · intro e t hlossy h
    have hsame : s.Same t ∧ t.store = s.store := by
      rcases h with rfl | ⟨data, sw, h⟩
      · exact ⟨⟨rfl, rfl, rfl, rfl⟩, rfl⟩
      · exact ⟨(Handles_select h).1, (Handles_select h).2.1⟩
    exact ⟨fun _ _ => ⟨hsame.1, hsame.2, rfl, fun _ _ => ⟨rfl, hlossy⟩, nofun⟩, nofun⟩
  · intro data sw t h
    obtain ⟨hsame, hstore, tlvs, rfl, rfl, hdescribes⟩ := Handles_select h
    obtain ⟨info, hparse, hdevice, hchallenge⟩ := parseSelect_of_describes hdescribes
    refine ⟨nofun, fun a ha => ?_⟩
    cases ha
    have hok : okOrApdu "select oath applet" SUCCESS.value = .ok () := rfl
    simp only [hok, hparse]
    exact ⟨hsame, hstore, rfl, nofun, fun _ => ⟨hdevice, hchallenge⟩⟩

/-- What a VALIDATE leaves: the applet holds the key it held. It succeeds only where applet and host
gave the same answers to both challenges, and always then, unless an answer is lost. -/
structure Validated (random : RandomChallenge) (key : AccessKey) (answered : List UInt8)
    (s : OathApplet γ) (lossy : Bool) (r : Attempt Unit) (t : OathApplet γ) : Prop where
  deviceId : t.deviceId = s.deviceId
  formerIds : t.formerIds = s.formerIds
  held : t.key = s.key
  store : t.store = s.store
  accepted : r = .ok () → ∃ held host, s.key = some held ∧ random = some host ∧
    t.authorized = true ∧ ⟨held, s.challenge, host.val⟩ ∈ t.accepted ∧
    respond key.val answered = respond held s.challenge ∧
    respond key.val host.val = respond held host.val
  taken : ∀ held host, lossy = false → s.key = some held → random = some host →
    respond key.val answered = respond held s.challenge →
    respond key.val host.val = respond held host.val → r = .ok ()

theorem findTag_frames (tlvs : List Tlv) (key : AccessKey) (host reply : List UInt8)
    (hreply : findTag tlvs RESPONSE = some reply) :
    verifyValidate key.val host (frames tlvs) = .ok (ctEq reply (respond key.val host)) := by
  rw [verifyValidate, parseTlvs_frames]
  simp only [hreply]

theorem judgeValidate_ne_ok {key : AccessKey} {host : HostChallenge} {data : List UInt8}
    {sw : UInt16} (h : sw ≠ 0x9000) : judgeValidate key host data sw ≠ .ok () :=
  fun hok => h (judgeValidate_eq_ok hok).1

theorem judgeValidate_success {key : AccessKey} {host : HostChallenge} {tlvs : List Tlv}
    {held : List UInt8} (hreply : findTag tlvs RESPONSE = some (respond held host.val)) :
    judgeValidate key host (frames tlvs) SUCCESS.value = .ok () ↔
      respond key.val host.val = respond held host.val := by
  constructor
  · intro hok
    have hverify := (judgeValidate_eq_ok hok).2
    rw [findTag_frames tlvs key host.val _ hreply] at hverify
    exact (ctEq_iff.mp (Except.ok.inj hverify)).symm
  · intro heq
    have hverify := findTag_frames tlvs key host.val _ hreply
    rw [ctEq_iff.mpr heq.symm] at hverify
    have hsw : ¬ (SUCCESS.value = 0x6A80 ∨ SUCCESS.value = 0x6982) := by decide
    have hok : okOrApdu "oath validate" SUCCESS.value = .ok () := rfl
    rw [judgeValidate, if_neg hsw, hok]
    simp only [hverify]

theorem ensures_validateWith {random : RandomChallenge} {key : AccessKey}
    {answered : List UInt8} (hchallenge : m.selectInfo.challenge = some answered) :
    Ensures (OathApplet.Step lossy)
      (fun r n t => n = m ∧ Validated random key answered s lossy r t)
      (validateWith random key) m s := by
  unfold validateWith
  refine ensures_bind (ensures_get ?_)
  simp only [hchallenge]
  rcases random with _ | host
  · exact ensures_pure ⟨rfl, rfl, rfl, rfl, rfl, nofun, nofun⟩
  · refine ensures_andThen (ensures_transmitFull (readCommand_validate key answered host) nofun
      ?_ ?_)
    · intro e t hlossy h
      obtain ⟨hid, hformer, hkey, hstore⟩ : t.deviceId = s.deviceId ∧ t.formerIds = s.formerIds ∧
          t.key = s.key ∧ t.store = s.store := by
        rcases h with rfl | ⟨data, sw, h⟩
        · exact ⟨rfl, rfl, rfl, rfl⟩
        · cases h <;> exact ⟨rfl, rfl, rfl, rfl⟩
      refine ⟨fun _ _ => ⟨rfl, hid, hformer, hkey, hstore, nofun, fun _ _ hreliable => ?_⟩, nofun⟩
      rw [hlossy] at hreliable
      cases hreliable
    · intro data sw t h
      refine ⟨nofun, fun a ha => ?_⟩
      cases ha
      cases h with
      | validated held response host' challenge tlvs hkey hresponse hreply =>
          refine ensures_pure ⟨rfl, rfl, rfl, rfl, rfl, fun hok => ?_,
            fun held' host' _ hkey' hhost _ hagree => ?_⟩
          · exact ⟨held, host, hkey, rfl, rfl, by simp, hresponse,
              (judgeValidate_success hreply).mp hok⟩
          · obtain rfl := Option.some.inj hhost
            obtain rfl := Option.some.inj (hkey'.symm.trans hkey)
            exact (judgeValidate_success hreply).mpr hagree
      | notValidated response host' challenge data sw authorized hkey hsw =>
          refine ensures_pure ⟨rfl, rfl, rfl, rfl, rfl,
            fun hok => absurd hok (judgeValidate_ne_ok hsw), fun held host' _ hheld _ hanswer _ => ?_⟩
          exact absurd hanswer (hkey held hheld)
      | refused _ _ _ _ _ _ hvalidate => exact absurd rfl (hvalidate _ _)

theorem accepted_step {s t : OathApplet γ} {apdu : List UInt8} {answer : CardAnswer apdu}
    {x : AcceptedKey} (h : OathApplet.Step lossy s apdu answer t) (hx : x ∈ s.accepted) :
    x ∈ t.accepted := by
  have hhandles : ∀ {command data sw t}, s.Handles command data sw t → x ∈ t.accepted := by
    intro command data sw t h
    cases h with
    | validated => exact List.mem_append_left _ hx
    | _ => exact hx
  cases h with
  | other _ hsame =>
      rw [hsame.accepted]
      exact hx
  | answered _ h => exact hhandles h
  | lost _ _ h =>
      rcases h with rfl | ⟨data, sw, h⟩
      · exact hx
      · exact hhandles h

theorem had_of_same {t : OathApplet γ} {id : List UInt8} (hid : t.deviceId = s.deviceId)
    (hformer : t.formerIds = s.formerIds) (h : s.Had id) : t.Had id := by
  obtain ⟨d, hd, rfl⟩ := h
  refine ⟨d, ?_, rfl⟩
  rwa [hid, hformer]

theorem had_handles {command : AppletCommand} {data : List UInt8} {sw : FinalSw}
    {t : OathApplet γ} {id : List UInt8} (h : s.Handles command data sw t) (hid : s.Had id) :
    t.Had id := by
  cases h with
  | wiped =>
      obtain ⟨d, rfl | hd, rfl⟩ := hid
      · exact ⟨_, .inr (List.mem_append_right _ List.mem_cons_self), rfl⟩
      · exact ⟨d, .inr (List.mem_append_left _ hd), rfl⟩
  | _ => exact had_of_same rfl rfl hid

theorem had_step {s t : OathApplet γ} {apdu : List UInt8} {answer : CardAnswer apdu}
    {id : List UInt8} (h : OathApplet.Step lossy s apdu answer t) (hid : s.Had id) : t.Had id := by
  cases h with
  | other _ hsame => exact had_of_same hsame.deviceId hsame.formerIds hid
  | answered _ h => exact had_handles h hid
  | lost _ _ h =>
      rcases h with rfl | ⟨data, sw, h⟩
      · exact hid
      · exact had_handles h hid

/-! ### The device id that a session goes by -/

/-- The session goes by a device id that the applet has or had. -/
def KnowsId (m : OathSession) (s : OathApplet γ) : Prop := s.Had m.selectInfo.deviceId

abbrev KeepsId {α : Type} (lossy : Bool) (γ : Type) (p : OathM α) : Prop :=
  Keeps (OathApplet.Step (γ := γ) lossy) KnowsId p

theorem keepsId_transmitFull (apdu : List UInt8) : KeepsId lossy γ (transmitFull apdu) := by
  intro m s hid
  have hkeeps : (transmitApplet (Applet.oath (moreData m.selectInfo)).io apdu).Always
      (OathApplet.Step lossy) (fun _ t => KnowsId m t) s :=
    Dialogue.Always.keeps (fun _ _ _ _ hstep => had_step hstep) hid
  exact Dialogue.Always.bind (hkeeps.mono fun _ _ ht => ht)

theorem keepsId_modify {f : OathSession → OathSession}
    (hf : ∀ m, (f m).selectInfo.deviceId = m.selectInfo.deviceId) :
    KeepsId lossy γ (modify f) := by
  refine .modify fun m s hid => ?_
  rwa [KnowsId, hf]

theorem keepsId_send {apdu : List UInt8} {judge : UInt16 → Attempt Unit}
    {change : OathSession → OathSession}
    (hchange : ∀ m, (change m).selectInfo.deviceId = m.selectInfo.deviceId) :
    KeepsId lossy γ (send apdu judge change) := by
  refine (keepsId_transmitFull apdu).andThen fun (_, sw) => ?_
  dsimp only
  split
  · exact .pure
  · exact (keepsId_modify hchange).bind fun _ => .pure

theorem keepsId_select : KeepsId lossy γ select := by
  intro m s hid
  refine ensures_select.mono ?_
  rintro (e | u) n t ⟨hsame, -, -, herror, hok⟩
  · obtain ⟨rfl, -⟩ := herror e rfl
    exact had_of_same hsame.deviceId hsame.formerIds hid
  · exact ⟨t.deviceId, .inl rfl, (hok rfl).1.symm⟩

theorem keepsId_validateWith {random : RandomChallenge} {key : AccessKey} :
    KeepsId lossy γ (validateWith random key) := by
  refine Keeps.get.bind fun m => ?_
  rcases m.selectInfo.challenge with _ | answered
  · exact .pure
  · rcases random with _ | host
    · exact .pure
    · exact (keepsId_transmitFull _).andThen fun _ => .pure

theorem Call.keepsId (call : Call) : KeepsId lossy γ call.perform := by
  cases haccess : call.access with
  | false =>
      intro m s hid
      refine ((Call.quiet haccess).keeps _ (fun t => KnowsId m t)
        (fun _ _ _ _ _ hstep => had_step hstep) m s hid).mono ?_
      rintro r n t ⟨rfl, ht⟩
      exact ht
  | true =>
      cases call with
      | unlock random password =>
          refine Keeps.get.bind fun m => ?_
          split
          · exact .pure
          · refine keepsId_validateWith.andThen fun _ => ?_
            refine (keepsId_modify ?_).bind fun _ => .pure
            exact fun _ => rfl
      | reauthenticate random =>
          refine Keeps.andThen (Keeps.get.bind fun m => ?_) fun _ => .pure
          split
          · exact .pure
          · refine keepsId_select.andThen fun _ => Keeps.get.bind fun n => ?_
            split
            · exact .pure
            · exact keepsId_validateWith.andThen fun _ => .pure
      | setPassword random password =>
          refine Keeps.get.bind fun m => ?_
          rcases random with _ | challenge
          · exact .pure
          · exact keepsId_send fun _ => rfl
      | clearPassword => exact keepsId_send fun _ => rfl
      | factoryReset => exact Keeps.get.bind fun _ => keepsId_send fun _ => rfl
      | _ => cases haccess

/-! ### One call -/

/-- How a SET CODE or RESET ends: taken, refused, or with its answer lost. -/
def Sent (command : AppletCommand) (change : OathSession → OathSession) (m : OathSession)
    (s : OathApplet γ) (r : Attempt Unit) (n : OathSession) (t : OathApplet γ) : Prop :=
  (r = .ok () ∧ n = change m ∧ s.Handles command [] SUCCESS t) ∨
    ((∃ e, r = .error e) ∧ n = m ∧ t.key = s.key ∧ t.deviceId = s.deviceId) ∨
    ∃ e, r = .error (.transport (.pcsc e))

theorem ensures_send {apdu : List UInt8} {command : AppletCommand}
    {judge : UInt16 → Attempt Unit} {change : OathSession → OathSession}
    (hread : readCommand apdu = command) (hselect : command ≠ .select)
    (hvalidate : ∀ response host, command ≠ .validate response host) (hother : command ≠ .other)
    (hjudge : ∀ sw, judge sw = .ok () ↔ sw = 0x9000) :
    Ensures (OathApplet.Step lossy) (Sent command change m s) (send apdu judge change) m s := by
  refine ensures_andThen (ensures_transmitFull hread hother ?_ ?_)
  · intro e t _ _
    refine ⟨fun e' he' => .inr (.inr ⟨e, ?_⟩), nofun⟩
    rw [Except.error.inj he']
  · intro data sw t h
    refine ⟨nofun, fun a ha => ?_⟩
    cases ha
    by_cases hsw : sw.value = 0x9000
    · have hok := (hjudge sw.value).mpr hsw
      simp only [hok]
      refine ensures_bind (ensures_modify (.inl ⟨rfl, rfl, ?_⟩))
      cases h with
      | select => exact absurd rfl hselect
      | validated => exact absurd rfl (hvalidate _ _)
      | notValidated => exact absurd rfl (hvalidate _ _)
      | codeSet _ _ _ challenge authorized hauthorized hresponse =>
          exact .codeSet _ _ _ challenge authorized hauthorized hresponse
      | codeCleared challenge authorized hauthorized =>
          exact .codeCleared challenge authorized hauthorized
      | wiped deviceId challenge authorized store => exact .wiped deviceId challenge authorized store
      | refused _ _ _ _ _ _ _ _ hrefused => exact absurd hsw hrefused
    · rcases hj : judge sw.value with e | u
      · simp only [hj]
        refine ensures_pure (show Sent command change m s _ _ _ from .inr (.inl ⟨⟨e, rfl⟩, rfl, ?_⟩))
        cases h with
        | select => exact absurd rfl hselect
        | validated => exact absurd rfl (hvalidate _ _)
        | notValidated => exact absurd rfl (hvalidate _ _)
        | refused => exact ⟨rfl, rfl⟩
        | _ => exact absurd success_value hsw
      · exact absurd ((hjudge sw.value).mp hj) hsw

theorem handles_setCode {key challenge response data : List UInt8} {t : OathApplet γ}
    (h : s.Handles (.setCode key challenge response) data SUCCESS t) : t.key = some key := by
  cases h with
  | codeSet => rfl
  | refused _ _ _ _ _ _ _ _ hsw => exact absurd success_value hsw

theorem okOrApdu_iff (label : String) (sw : UInt16) :
    okOrApdu label sw = .ok () ↔ sw = 0x9000 := okOrApdu_eq_ok

theorem writeAnswer_iff (label action : String) (sw : UInt16) :
    writeAnswer m label action sw = .ok () ↔ sw = 0x9000 := by
  refine ⟨writeAnswer_eq_ok, ?_⟩
  rintro rfl
  rw [writeAnswer, if_neg (by simp)]
  rfl

theorem InStep.same {t : OathApplet γ} (h : InStep m s) (hkey : t.key = s.key) : InStep m t :=
  ⟨fun key hm => hkey.trans (h.key key hm), by rw [h.passwordRequired, hkey]⟩

theorem ensures_reauthenticate {random : RandomChallenge} (h : InStep m s) :
    Ensures (OathApplet.Step lossy) (fun r n t => InStep n t ∧ n.accessKey = m.accessKey ∧
      t.key = s.key ∧ t.store = s.store ∧ (lossy = false → random.isSome = true → r = .ok m.accessKey.isSome ∧
        (m.accessKey.isSome = true → t.authorized = true))) (reauthenticate random) m s := by
  unfold reauthenticate
  refine ensures_bind (ensures_get ?_)
  rcases hkey : m.accessKey with _ | key
  · exact ensures_pure ⟨h, hkey, rfl, rfl, fun _ _ => ⟨rfl, nofun⟩⟩
  · have hheld := h.key key hkey
    refine ensures_andThen (ensures_select.mono ?_)
    rintro r n t ⟨hsame, hstore, hkept, herror, hok⟩
    constructor
    · intro e he
      obtain ⟨rfl, hlossy⟩ := herror e he
      refine ⟨h.same hsame.key, hkey, hsame.key, hstore, fun hreliable => ?_⟩
      rw [hlossy] at hreliable
      cases hreliable
    · intro u hu
      cases hu
      obtain ⟨-, hchallenge⟩ := hok rfl
      rw [hsame.key, hheld, Option.isSome_some, if_pos rfl] at hchallenge
      have hstep : InStep n t := by
        refine ⟨fun key' hkey' => hsame.key.trans (h.key key' (hkept.symm.trans hkey')), ?_⟩
        rw [SelectInfo.passwordRequired, hchallenge, hsame.key, hheld]
        rfl
      refine ensures_bind (ensures_get ?_)
      simp only [hchallenge, Option.isNone_some, Bool.false_eq_true, if_false]
      refine ensures_andThen ((ensures_validateWith hchallenge).mono ?_)
      rintro r n' t' ⟨rfl, hvalidated⟩
      constructor
      · intro e he
        refine ⟨hstep.same hvalidated.held, hkept.trans hkey, hvalidated.held.trans hsame.key,
          hvalidated.store.trans hstore, fun hreliable hrandom => ?_⟩
        obtain ⟨host, rfl⟩ := Option.isSome_iff_exists.mp hrandom
        have htaken := hvalidated.taken key.val host hreliable (hsame.key.trans hheld) rfl rfl rfl
        rw [he] at htaken
        cases htaken
      · intro u hu
        cases hu
        obtain ⟨_, _, _, _, hauthorized, _⟩ := hvalidated.accepted rfl
        exact ensures_pure ⟨hstep.same hvalidated.held, hkept.trans hkey,
          hvalidated.held.trans hsame.key, hvalidated.store.trans hstore,
          fun _ _ => ⟨rfl, fun _ => hauthorized⟩⟩

/-- What a call leaves: the session in step with the applet, unless a change of the key got no
answer or the applet took a wrong password. -/
def LeftBy (calls : List Call) (call : Call) (r : Attempt Unit) (n : OathSession)
    (t : OathApplet γ) : Prop :=
  InStep n t ∨ InDoubt call r ∨ Collided calls t

theorem quiet_inStep {calls : List Call} {call : Call} (haccess : call.access = false)
    (h : InStep m s) : Ensures (OathApplet.Step lossy) (LeftBy calls call) call.perform m s := by
  refine ((Call.quiet haccess).keeps _ (fun t => t.key = s.key) ?_ m s rfl).mono ?_
  · intro s' apdu answer t hharmless hstep hkey
    have hread := readCommand_harmless hharmless
    cases hstep with
    | other _ hsame => exact hsame.key.trans hkey
    | answered _ h =>
        rw [hread] at h
        cases h with
        | refused _ _ _ _ _ _ _ hother => exact absurd rfl hother
    | lost _ _ h =>
        rcases h with rfl | ⟨data, sw, h⟩
        · exact hkey
        · rw [hread] at h
          cases h with
          | refused _ _ _ _ _ _ _ hother => exact absurd rfl hother
  · rintro r n t ⟨rfl, hkey⟩
    exact .inl (h.same hkey)

theorem unlock_inStep {calls : List Call} {random : RandomChallenge} {password : RustStr}
    (hmem : .unlock random password ∈ calls) (hid : KnowsId m s) (h : InStep m s) :
    Ensures (OathApplet.Step lossy) (LeftBy calls (.unlock random password))
      (OathSession.unlock random password) m s := by
  unfold OathSession.unlock
  refine ensures_bind (ensures_get ?_)
  rcases hchallenge : m.selectInfo.challenge with _ | answered
  · exact ensures_pure (.inl h)
  · simp only [Option.isNone_some, Bool.false_eq_true, if_false]
    refine ensures_andThen ((ensures_validateWith hchallenge).mono ?_)
    rintro r n t ⟨rfl, hvalidated⟩
    refine ⟨fun _ _ => .inl (h.same hvalidated.held), fun u hu => ?_⟩
    cases hu
    obtain ⟨held, host, hheld, -, -, haccepted, -, hagree⟩ := hvalidated.accepted rfl
    refine ensures_bind (ensures_modify ?_)
    by_cases hsame : (deriveAccessKey password n.selectInfo.deviceId).val = held
    · refine .inl ⟨fun key hkey => ?_, (h.same hvalidated.held).passwordRequired⟩
      rw [← Option.some.inj hkey, hsame]
      exact hvalidated.held.trans hheld
    · have hid : t.Had n.selectInfo.deviceId :=
        had_of_same hvalidated.deviceId hvalidated.formerIds hid
      exact .inr (.inr ⟨_, haccepted, random, password, _, hmem, hid, hsame, hagree⟩)

/-- For any key: what a password derives to plays no part. -/
theorem setCode_inStep {calls : List Call} {random : RandomChallenge} {password : RustStr}
    (h : InStep m s) (key : AccessKey) (challenge : HostChallenge) :
    Ensures (OathApplet.Step lossy) (LeftBy calls (.setPassword random password))
      (send (setCode key.val challenge.val) (okOrApdu "oath set code") fun m =>
        { selectInfo := { m.selectInfo with challenge := some challenge.val },
          accessKey := some key }) m s := by
  refine (ensures_send (readCommand_setCode _ challenge) nofun nofun nofun
    (okOrApdu_iff _)).mono ?_
  rintro r n t (⟨-, rfl, hhandles⟩ | ⟨-, rfl, hkey, -⟩ | hlost)
  · have hset := handles_setCode hhandles
    refine .inl ⟨fun key' hkey => hset.trans ?_, ?_⟩
    · exact congrArg (fun k : AccessKey => some k.val) (Option.some.inj hkey)
    · rw [hset]
      rfl
  · exact .inl (h.same hkey)
  · exact .inr (.inl ⟨rfl, hlost⟩)

theorem setPassword_inStep {calls : List Call} {random : RandomChallenge} {password : RustStr}
    (h : InStep m s) : Ensures (OathApplet.Step lossy) (LeftBy calls (.setPassword random password))
      (OathSession.setPassword random password) m s := by
  unfold OathSession.setPassword
  refine ensures_bind (ensures_get ?_)
  generalize deriveAccessKey password m.selectInfo.deviceId = key
  rcases random with _ | challenge
  · exact ensures_pure (.inl h)
  · exact setCode_inStep h key challenge

theorem clearPassword_inStep {calls : List Call} (h : InStep m s) :
    Ensures (OathApplet.Step lossy) (LeftBy calls .clearPassword) OathSession.clearPassword
      m s := by
  refine (ensures_send readCommand_clearCode nofun nofun nofun (okOrApdu_iff _)).mono ?_
  rintro r n t (⟨-, rfl, hhandles⟩ | ⟨-, rfl, hkey, -⟩ | hlost)
  · cases hhandles with
    | codeCleared => exact .inl ⟨nofun, rfl⟩
    | refused _ _ _ _ _ _ _ _ hsw => exact absurd success_value hsw
  · exact .inl (h.same hkey)
  · exact .inr (.inl ⟨rfl, hlost⟩)

theorem factoryReset_inStep {calls : List Call} (h : InStep m s) :
    Ensures (OathApplet.Step lossy) (LeftBy calls .factoryReset) OathSession.factoryReset m s := by
  unfold OathSession.factoryReset
  refine ensures_bind (ensures_get ?_)
  refine (ensures_send (show readCommand _ = .reset from rfl) nofun nofun nofun
    (writeAnswer_iff _ _)).mono ?_
  rintro r n t (⟨-, rfl, hhandles⟩ | ⟨-, rfl, hkey, -⟩ | hlost)
  · cases hhandles with
    | wiped => exact .inl ⟨nofun, rfl⟩
    | refused _ _ _ _ _ _ _ _ hsw => exact absurd success_value hsw
  · exact .inl (h.same hkey)
  · exact .inr (.inl ⟨rfl, hlost⟩)

theorem Call.ensures_inStep {calls : List Call} {call : Call} (hmem : call ∈ calls)
    (hid : KnowsId m s) (h : InStep m s) :
    Ensures (OathApplet.Step lossy) (LeftBy calls call) call.perform m s := by
  cases haccess : call.access with
  | false => exact quiet_inStep haccess h
  | true =>
      cases call with
      | unlock random password => exact unlock_inStep hmem hid h
      | reauthenticate random =>
          refine ensures_andThen ((ensures_reauthenticate h).mono ?_)
          rintro r n t ⟨hstep, -⟩
          exact ⟨fun _ _ => .inl hstep, fun _ _ => ensures_pure (.inl hstep)⟩
      | setPassword random password => exact setPassword_inStep h
      | clearPassword => exact clearPassword_inStep h
      | factoryReset => exact factoryReset_inStep h
      | _ => cases haccess

/-! ### Runs -/

/-- Some change of the key in the run got no answer. -/
def AnyInDoubt (calls : List Call) (results : List (Attempt Unit)) : Prop :=
  ∃ x ∈ calls.zip results, InDoubt x.1 x.2

/-- Where a run leaves the session and the applet. -/
def Settles (all calls : List Call) (results : List (Attempt Unit)) (n : OathSession)
    (t : OathApplet γ) : Prop :=
  InStep n t ∨ AnyInDoubt calls results ∨ Collided all t

theorem ensures_collided {calls all : List Call} (h : Collided all s) :
    Ensures (OathApplet.Step lossy) (fun _ _ t => Collided all t) (performAll calls) m s := by
  obtain ⟨x, hx, random, password, id, hmem, hid, hrest⟩ := h
  have hkeeps : (performAll calls m).Always (OathApplet.Step lossy)
      (fun _ t => x ∈ t.accepted ∧ t.Had id) s :=
    Dialogue.Always.keeps (J := fun t : OathApplet γ => x ∈ t.accepted ∧ t.Had id)
      (fun _ _ _ _ hstep hboth => ⟨accepted_step hstep hboth.1, had_step hstep hboth.2⟩) ⟨hx, hid⟩
  exact hkeeps.mono fun _ t ht => ⟨x, ht.1, random, password, id, hmem, ht.2, hrest⟩

theorem ensures_performAll {all calls : List Call} (hall : ∀ call ∈ calls, call ∈ all)
    (hid : KnowsId m s) (h : InStep m s) : Ensures (OathApplet.Step lossy)
      (fun results n t => Settles all calls results n t) (performAll calls) m s := by
  induction calls generalizing m s with
  | nil => exact ensures_pure (.inl h)
  | cons call calls ih =>
      have hcalls : ∀ c ∈ calls, c ∈ all := fun c hc => hall c (List.mem_cons_of_mem _ hc)
      refine ensures_bind (((Call.ensures_inStep (hall call List.mem_cons_self) hid h).and
        (call.keepsId m s hid)).mono ?_)
      rintro r n t ⟨hstep | hdoubt | hcollided, hid⟩
      · refine ensures_bind ((ih hcalls hid hstep).mono ?_)
        rintro results k u (hstep | ⟨x, hx, hdoubt⟩ | hcollided)
        · exact ensures_pure (.inl hstep)
        · exact ensures_pure (.inr (.inl ⟨x, List.mem_cons_of_mem _ hx, hdoubt⟩))
        · exact ensures_pure (.inr (.inr hcollided))
      · have hends : (performAll calls n).Always (OathApplet.Step lossy) (fun _ _ => True) t :=
          Dialogue.Always.keeps (J := fun _ => True) (fun _ _ _ _ _ _ => trivial) trivial
        refine ensures_bind (Dialogue.Always.mono hends fun results u _ => ?_)
        exact ensures_pure (.inr (.inl ⟨_, List.mem_cons_self, hdoubt⟩))
      · exact ensures_bind ((ensures_collided hcollided).mono fun _ _ _ hcollided =>
          ensures_pure (.inr (.inr hcollided)))

/-- **A session stays in step with its applet.** After a successful SELECT and any calls, the
kept key is the one the applet holds and `password_required` says whether it holds one. There are
two exceptions: the answer to a change of the key was lost, or the applet took a wrong password
for its own, whose key under a device id of the applet answers one challenge as the right key
does. And where the two are in step and answers arrive, `reauthenticate` unlocks the applet for
the next command if a key is kept, and sends nothing if none is. The applet answers SELECT and the
password commands in one piece; `Step` leaves open what it answers to everything else. -/
theorem session_stays_in_step (lossy : Bool) (calls : List Call) (s : OathApplet γ) :
    Ensures (OathApplet.Step lossy)
      (fun r n t => ∀ results, r = .ok results →
        (InStep n t ∨ AnyInDoubt calls results ∨ Collided calls t) ∧
        (InStep n t → ∀ host, Ensures (OathApplet.Step false)
          (fun b k u => b = .ok n.accessKey.isSome ∧ InStep k u ∧
            (n.accessKey.isSome = true → u.authorized = true) ∧
            (n.accessKey = none → k = n ∧ u = t))
          (reauthenticate (some host)) n t))
      (andThen select fun _ => do return .ok (← performAll calls)) new s := by
  refine ensures_andThen (ensures_select.mono ?_)
  rintro r m t ⟨hsame, -, hkept, -, hok⟩
  refine ⟨fun e _ results heq => (by cases heq), fun u hu => ?_⟩
  cases hu
  obtain ⟨hdevice, hchallenge⟩ := hok rfl
  have hid : KnowsId m t := ⟨t.deviceId, .inl rfl, hdevice.symm⟩
  have hstep : InStep m t := by
    refine ⟨fun key hkey => ?_, ?_⟩
    · rw [hkept] at hkey
      cases hkey
    · rw [SelectInfo.passwordRequired, hchallenge]
      cases t.key.isSome <;> rfl
  refine ensures_bind ((ensures_performAll (fun _ h => h) hid hstep).mono ?_)
  intro results n t' hsettles
  refine ensures_pure ?_
  rintro results' heq
  cases heq
  refine ⟨hsettles, fun hin host => ?_⟩
  rcases hkey : n.accessKey with _ | key
  · unfold reauthenticate
    refine ensures_bind (ensures_get ?_)
    simp only [hkey]
    exact ensures_pure ⟨rfl, hin, fun h => absurd h Bool.false_ne_true, fun _ => ⟨rfl, rfl⟩⟩
  · have hreauth : Ensures (OathApplet.Step false) _ (reauthenticate (some host)) n t' :=
      ensures_reauthenticate hin
    refine hreauth.mono ?_
    rintro b k u ⟨hin', -, -, -, hdone⟩
    obtain ⟨hb, hauthorized⟩ := hdone rfl rfl
    rw [hkey] at hb hauthorized
    exact ⟨hb, hin', hauthorized, fun h => by cases h⟩

/-! ### The next session -/

/-- The keys that two device ids make of a password answer alike. -/
def Alike (password : RustStr) (ours theirs challenge host : List UInt8) : Prop :=
  respond (deriveAccessKey password ours).val challenge =
      respond (deriveAccessKey password theirs).val challenge ∧
    respond (deriveAccessKey password ours).val host =
      respond (deriveAccessKey password theirs).val host

/-- Unlocking an applet that holds the key of the password under some device id. -/
theorem ensures_unlock {password : RustStr} {theirs : List UInt8} {host : HostChallenge}
    (hkey : s.key = some (deriveAccessKey password theirs).val) :
    Ensures (OathApplet.Step false) (fun r n t => ∃ challenge,
      n.selectInfo.challenge = some challenge ∧ t.deviceId = s.deviceId ∧
        (r = .ok () ↔ Alike password s.deviceId.val theirs challenge host.val) ∧
        (r = .ok () → n.accessKey = some (deriveAccessKey password s.deviceId.val) ∧
          t.authorized = true))
      (andThen select fun _ => unlock (some host) password) new s := by
  refine ensures_andThen (ensures_select.mono ?_)
  rintro r m t ⟨hsame, -, -, herror, hok⟩
  refine ⟨fun e he => absurd (herror e he).2 Bool.false_ne_true, fun u hu => ?_⟩
  cases hu
  obtain ⟨hdevice, hchallenge⟩ := hok rfl
  rw [hsame.key, hkey, Option.isSome_some, if_pos rfl] at hchallenge
  unfold unlock
  refine ensures_bind (ensures_get ?_)
  simp only [hchallenge, Option.isNone_some, Bool.false_eq_true, if_false]
  have hours : m.selectInfo.deviceId = s.deviceId.val :=
    hdevice.trans (congrArg Subtype.val hsame.deviceId)
  rw [hours]
  refine ensures_andThen ((ensures_validateWith hchallenge).mono ?_)
  rintro r n t' ⟨rfl, hvalidated⟩
  have hheld : t.key = some (deriveAccessKey password theirs).val := hsame.key.trans hkey
  have hid : t'.deviceId = s.deviceId := hvalidated.deviceId.trans hsame.deviceId
  constructor
  · intro e he
    refine ⟨t.challenge, hchallenge, hid, ⟨nofun, fun halike => ?_⟩, nofun⟩
    have htaken := hvalidated.taken _ host rfl hheld rfl halike.1 halike.2
    rw [he] at htaken
    cases htaken
  · intro u hu
    cases hu
    obtain ⟨held, host', hheld', hhost, hauthorized, -, hanswer, hagree⟩ := hvalidated.accepted rfl
    obtain rfl := Option.some.inj hhost
    have hsamekey := Option.some.inj (hheld.symm.trans hheld')
    rw [← hsamekey] at hanswer hagree
    exact ensures_bind (ensures_modify (ensures_pure
      ⟨t.challenge, hchallenge, hid, ⟨fun _ => ⟨hanswer, hagree⟩, fun _ => rfl⟩,
        fun _ => ⟨rfl, hauthorized⟩⟩))

/-- **A password opens the next session.** Once `set_password` has succeeded, a new session in
which answers arrive is unlocked with the password if the applet still has the device id that
the old session read, and in general exactly when the keys of the two device ids give the same
answer to both challenges. -/
theorem set_password_opens_next_session (lossy : Bool) (m : OathSession) (s : OathApplet γ)
    (password : RustStr) (random : RandomChallenge) :
    Ensures (OathApplet.Step lossy)
      (fun r _ t => r = .ok () → ∀ host, Ensures (OathApplet.Step false)
        (fun r' n' u => ∃ challenge, n'.selectInfo.challenge = some challenge ∧
          (r' = .ok () ↔
            Alike password t.deviceId.val m.selectInfo.deviceId challenge host.val) ∧
          (m.selectInfo.deviceId = t.deviceId.val → r' = .ok () ∧
            n'.accessKey = some (deriveAccessKey password t.deviceId.val) ∧ u.authorized = true))
        (andThen select fun _ => unlock (some host) password) new t)
      (setPassword random password) m s := by
  unfold setPassword
  refine ensures_bind (ensures_get ?_)
  rcases random with _ | challenge
  · exact ensures_pure nofun
  · refine (ensures_send (readCommand_setCode _ challenge) nofun nofun nofun
      (okOrApdu_iff _)).mono ?_
    rintro r n t (⟨-, rfl, hhandles⟩ | ⟨⟨e, rfl⟩, -⟩ | ⟨e, rfl⟩)
    · intro _ host
      refine (ensures_unlock (handles_setCode hhandles)).mono ?_
      rintro r' n' u ⟨challenge', hchallenge, -, hiff, hdone⟩
      refine ⟨challenge', hchallenge, hiff, fun hsame => ?_⟩
      have hok : r' = .ok () := hiff.mpr ⟨by rw [hsame], by rw [hsame]⟩
      exact ⟨hok, hdone hok⟩
    · exact nofun
    · exact nofun

end OathSession

end Keyroost.Transport
