import Keyroost.Library.Session
import Keyroost.Oath.Access
import Keyroost.Piv.AdminData
import Keyroost.Piv.Commands
import Keyroost.Piv.StatusWord

/-!
# The management key

The key of a card that unlocks its administration, from `keyroost-transport/src/piv.rs` and
`keyroost-piv/src/lib.rs`. It is proved to the card by a witness and a challenge under a block
cipher whose algorithm has to be found out first, may be replaced, and may be stored on the card
where the PIN gives it out.

The cipher is a parameter. Random bytes, what the applet reports of its key, and the ways of the
applets that keep their key elsewhere are questions beside the APDUs, so that a run may answer them
in any way. Admin Data
and the stored copy are kept in step with the key after it was changed (`maintainPinProtectedData`);
a failure there is reported beside the result and does not undo it.

A session may remember the algorithm it found. `hints_change_no_answer` says that on a steady card
this saves questions and changes nothing else.
-/

namespace Keyroost.Piv

open Transport Proto Session

/-! ### Algorithms -/

namespace MgmtAlg

def id : MgmtAlg → UInt8
  | tripleDes => 0x03
  | aes128 => 0x08
  | aes192 => 0x0A
  | aes256 => 0x0C

def blockSize : MgmtAlg → Nat
  | tripleDes => 8
  | _ => 16

def keyLen : MgmtAlg → Nat
  | tripleDes | aes192 => 24
  | aes128 => 16
  | aes256 => 32

/-- The order in which a card is probed. -/
def ALL : List MgmtAlg := [tripleDes, aes128, aes192, aes256]

theorem id_injective {a b : MgmtAlg} (h : a.id = b.id) : a = b := by
  cases a <;> cases b <;> first | rfl | cases h

end MgmtAlg

def mgmtAlgsForKeyLen : Nat → List MgmtAlg
  | 16 => [.aes128]
  | 24 => [.tripleDes, .aes192]
  | 32 => [.aes256]
  | _ => []

/-- Of two algorithms with one key length, 3DES. -/
def pickMgmtAlg (accepted : List MgmtAlg) (keyLen : Nat) : Option MgmtAlg :=
  let byLen :=
    if accepted = [] then mgmtAlgsForKeyLen keyLen
    else accepted.filter fun alg => alg.keyLen = keyLen
  if .tripleDes ∈ byLen then some .tripleDes else byLen.head?

/-! ### Ciphers -/

/-- The block ciphers: on a key and a block of the algorithm's sizes, they are inverse. That is all
the exchange relies on, since each side undoes what the other did under the same key. -/
structure MgmtCipher where
  encrypt : MgmtAlg → List UInt8 → List UInt8 → List UInt8
  decrypt : MgmtAlg → List UInt8 → List UInt8 → List UInt8
  length_encrypt : ∀ alg key block, block.length = alg.blockSize →
    (encrypt alg key block).length = alg.blockSize
  decrypt_encrypt : ∀ alg key block, key.length = alg.keyLen → block.length = alg.blockSize →
    decrypt alg key (encrypt alg key block) = block

inductive CryptOp where
  | encrypt
  | decrypt
deriving DecidableEq, Repr

def MgmtCipher.run (cipher : MgmtCipher) :
    CryptOp → MgmtAlg → List UInt8 → List UInt8 → List UInt8
  | .encrypt => cipher.encrypt
  | .decrypt => cipher.decrypt

/-! ### Errors -/

/-- `parse` is an answer that is no authentication template, or a damaged one. -/
inductive MgmtError where
  | transport (e : TransportError)
  | badKeyLength
  | managementAuthFailed
  | pinProtectedKeyNotSet
  | parse
deriving DecidableEq, Repr

abbrev Mgmt (α : Type) : Type := Except MgmtError α

def blockCrypt (cipher : MgmtCipher) (alg : MgmtAlg) (key data : List UInt8) (op : CryptOp) :
    Mgmt (List UInt8) :=
  if data = [] ∨ data.length % alg.blockSize ≠ 0 then
    .error (.transport (.malformedResponse
      "PIV witness/challenge length is not a whole cipher block"))
  else if key.length ≠ alg.keyLen then .error .badKeyLength
  else .ok ((chunks alg.blockSize data).flatMap (cipher.run op alg key))

/-! ### Commands -/

def INS_GENERAL_AUTHENTICATE : UInt8 := 0x87
def INS_SET_MANAGEMENT_KEY : UInt8 := 0xFF
def KEY_REF_MANAGEMENT : UInt8 := 0x9B
def TAG_DYN_AUTH : UInt8 := 0x7C

def OBJECT_PIN_PROTECTED_DATA : List UInt8 := [0x5F, 0xC1, 0x09]
def OBJECT_ADMIN_DATA : List UInt8 := [0x5F, 0xFF, 0x00]

def generalAuthRequestWitness (alg : MgmtAlg) (keyRef : UInt8) : List UInt8 :=
  buildApduExt 0x00 INS_GENERAL_AUTHENTICATE alg.id keyRef [TAG_DYN_AUTH, 0x02, 0x80, 0x00]
    (some 256)

def generalAuthMutual (alg : MgmtAlg) (keyRef : UInt8) (decryptedWitness challenge : List UInt8) :
    List UInt8 :=
  buildApduExt 0x00 INS_GENERAL_AUTHENTICATE alg.id keyRef
    (pushTlv [TAG_DYN_AUTH] (pushTlv [0x80] decryptedWitness ++ pushTlv [0x81] challenge))
    (some 256)

/-- The source asserts that a key is at most 255 bytes. -/
def setManagementKeyApdu (alg : MgmtAlg) (key : List UInt8) (requireTouch : Bool) : List UInt8 :=
  buildApdu 0x00 INS_SET_MANAGEMENT_KEY 0xFF (if requireTouch then 0xFE else 0xFF)
    ([alg.id, KEY_REF_MANAGEMENT, key.length.toUInt8] ++ key)

/-- The content of an authentication template. -/
def authTemplate : List UInt8 → Option (List UInt8)
  | [] => none
  | tag :: rest =>
      if tag = TAG_DYN_AUTH then (readBerLen rest).bind fun len => slice? rest len.2 len.1
      else none

def parseGeneralAuth (buf : List UInt8) (innerTag : UInt8) : Mgmt (List UInt8) :=
  match (authTemplate buf).bind (findTlv · innerTag) with
  | some value => .ok value
  | none => .error .parse

/-- The value of the only entry of a template, whatever its tag. -/
def soleEntry : List UInt8 → Option (List UInt8)
  | [] => none
  | _ :: rest =>
      (readBerLen rest).bind fun len => (slice? rest len.2 len.1).bind fun value =>
        if len.2 + len.1 = rest.length then some value else none

def parseGeneralAuthPermissive (buf : List UInt8) : Mgmt (List UInt8) :=
  match (authTemplate buf).bind soleEntry with
  | some value => .ok value
  | none => .error .parse

def parsePinProtectedManagementKey (buf : List UInt8) : Option (List UInt8) := do
  let inner ← unwrapDataObject buf
  let tag88 ← findTlv inner 0x88
  findTlv tag88 0x89

def buildPinProtectedManagementKey (key : List UInt8) : List UInt8 :=
  pushTlv [0x88] (pushTlv [0x89] key)

/-! ### The session -/

/-- What the identity of the applet, resolved before, says of it. -/
structure MgmtApplet where
  hidCrescendo : Bool
  permissiveTag : Bool
deriving DecidableEq, Repr

inductive CurrentMgmtAuth where
  | key (key : List UInt8)
  | pin (pin : List UInt8)
deriving DecidableEq, Repr

/-- What a session asks for: an APDU through `transmit_full`, random bytes, the metadata of the
management key, or what only a HID Crescendo has. -/
inductive MgmtAsk where
  | transmit (apdu : List UInt8)
  | getrandom (len : Nat)
  | reportedManagementKeyAlgorithm
  | reportsManagementKey
  | authenticateAca (key : List UInt8)
  | putXauthKey (current : CurrentMgmtAuth) (alg : MgmtAlg) (key : List UInt8)
deriving DecidableEq, Repr

@[reducible] def MgmtAnswer : MgmtAsk → Type
  | .transmit _ => Except LinkError (List UInt8 × UInt16)
  | .getrandom len => Option { bytes : List UInt8 // bytes.length = len }
  | .reportedManagementKeyAlgorithm => Option MgmtAlg
  | .reportsManagementKey => Bool
  | .authenticateAca _ | .putXauthKey _ _ _ => Mgmt Unit

/-- A session keeps the algorithm that the last probe found. -/
abbrev MgmtM : Type → Type := Session MgmtAnswer (Option MgmtAlg)

def transmitMgmt (apdu : List UInt8) : MgmtM (Mgmt (List UInt8 × UInt16)) := do
  return (← ask (.transmit apdu) : Except LinkError (List UInt8 × UInt16)).mapError
    fun e => .transport e.toTransport

def lift (result : Except TransportError Unit) : Mgmt Unit := result.mapError .transport

/-! ### Which algorithm -/

def probeMgmtAlg (alg : MgmtAlg) : MgmtM (Mgmt Bool) :=
  andThen (transmitMgmt (generalAuthRequestWitness alg KEY_REF_MANAGEMENT)) fun (_, sw) =>
    return .ok (sw == SW_OK)

/-- Whether the probe of every algorithm would pick the remembered one again. -/
def hintStillPicked (hint : MgmtAlg) (keyLen : Nat) : MgmtM (Mgmt Bool) :=
  if hint.keyLen ≠ keyLen then return .ok false
  else andThen (probeMgmtAlg hint) fun accepted =>
    if !accepted then return .ok false
    else if hint ≠ .aes192 then return .ok true
    else andThen (probeMgmtAlg .tripleDes) fun accepted => return .ok !accepted

def probeAll : List MgmtAlg → MgmtM (Mgmt (List MgmtAlg))
  | [] => return .ok []
  | alg :: algs => andThen (probeMgmtAlg alg) fun accepted =>
      andThen (probeAll algs) fun rest => return .ok (if accepted then alg :: rest else rest)

/-- Probe every algorithm, and remember one that the card accepted. -/
def probeAndPick (keyLen : Nat) : MgmtM (Mgmt MgmtAlg) :=
  andThen (probeAll MgmtAlg.ALL) fun accepted =>
    match pickMgmtAlg accepted keyLen with
    | none => return .error .badKeyLength
    | some chosen => do
        set (if chosen ∈ accepted then some chosen else none)
        return .ok chosen

def resolveManagementKeyAlgorithm (keyLen : Nat) : MgmtM (Mgmt MgmtAlg) := do
  match (← ask .reportedManagementKeyAlgorithm : Option MgmtAlg) with
  | some alg => return if alg.keyLen ≠ keyLen then .error .badKeyLength else .ok alg
  | none =>
      match ← get with
      | none => probeAndPick keyLen
      | some hint =>
          andThen (hintStillPicked hint keyLen) fun still =>
            if still then return .ok hint else probeAndPick keyLen

/-! ### Authentication -/

section Authentication

variable (cipher : MgmtCipher) (applet : MgmtApplet)

def parseChallengeAnswer (resp : List UInt8) : Mgmt (List UInt8) :=
  if applet.permissiveTag then parseGeneralAuthPermissive resp else parseGeneralAuth resp 0x82

/-- What the answer to the second step means. -/
def judgeMutual (alg : MgmtAlg) (key challenge resp : List UInt8) (sw : UInt16) : Mgmt Unit :=
  if sw ≠ SW_OK then .error .managementAuthFailed
  -- The card does not prove itself.
  else if resp = [] then .ok ()
  else do
    let z2 ← parseChallengeAnswer applet resp
    let expected ← blockCrypt cipher alg key challenge .encrypt
    if Oath.ctEq z2 expected then return () else .error .managementAuthFailed

def decryptWitness (alg : MgmtAlg) (key resp : List UInt8) (sw : UInt16) : Mgmt (List UInt8) := do
  lift (okOrApdu "piv authenticate (request witness)" sw)
  let z1 ← parseGeneralAuth resp 0x80
  blockCrypt cipher alg key z1 .decrypt

def mutualAuthenticate (alg : MgmtAlg) (key : List UInt8) : MgmtM (Mgmt Unit) :=
  andThen (transmitMgmt (generalAuthRequestWitness alg KEY_REF_MANAGEMENT)) fun (resp, sw) =>
    match decryptWitness cipher alg key resp sw with
    | .error e => return .error e
    | .ok witness => do
        match (← ask (.getrandom alg.blockSize) : Option { c : List UInt8 // c.length = _ }) with
        | none => return .error (.transport .hostRngFailed)
        | some challenge =>
            andThen (transmitMgmt
                (generalAuthMutual alg KEY_REF_MANAGEMENT witness challenge.val)) fun (resp, sw) =>
              return judgeMutual cipher applet alg key challenge.val resp sw

def authenticateManagement (alg : MgmtAlg) (key : List UInt8) : MgmtM (Mgmt Unit) := do
  if key.length ≠ alg.keyLen then return .error .badKeyLength
  else if applet.hidCrescendo then
    if (← ask .reportsManagementKey : Bool) then mutualAuthenticate cipher applet alg key
    else ask (MgmtAsk.authenticateAca key)
  else mutualAuthenticate cipher applet alg key

/-- `PivSession::verify_pin`. -/
def verifyPinMgmt (pin : List UInt8) : MgmtM (Mgmt Unit) :=
  match verifyPin pin with
  | .error _ => return .error (.transport .pivBadPinLength)
  | .ok apdu => andThen (transmitMgmt apdu) fun (_, sw) => return lift (mapPinSw sw)

def authenticateManagementViaPin (pin : List UInt8) : MgmtM (Mgmt Unit) :=
  andThen (verifyPinMgmt pin) fun _ =>
    if applet.hidCrescendo then return .ok ()
    else andThen (transmitMgmt (getData OBJECT_PIN_PROTECTED_DATA)) fun (data, sw) =>
      if sw ≠ SW_OK then return .error .pinProtectedKeyNotSet
      else
        match parsePinProtectedManagementKey data with
        | none => return .error .pinProtectedKeyNotSet
        | some key => andThen (resolveManagementKeyAlgorithm key.length) fun alg =>
            authenticateManagement cipher applet alg key

def authenticateManagementCurrent (current : CurrentMgmtAuth) : MgmtM (Mgmt Unit) :=
  match current with
  | .key key => andThen (resolveManagementKeyAlgorithm key.length) fun alg =>
      authenticateManagement cipher applet alg key
  | .pin pin => authenticateManagementViaPin cipher applet pin

end Authentication

/-! ### Replacement -/

section Replacement

variable (applet : MgmtApplet)

def sendSetManagementKey (alg : MgmtAlg) (key : List UInt8) (requireTouch : Bool) :
    MgmtM (Mgmt Unit) :=
  andThen (transmitMgmt (setManagementKeyApdu alg key requireTouch)) fun (_, sw) =>
    return lift (okOrWrite "piv set management key" sw)

def setManagementKey (current : CurrentMgmtAuth) (alg : MgmtAlg) (key : List UInt8)
    (requireTouch : Bool) : MgmtM (Mgmt Unit) := do
  if key.length ≠ alg.keyLen then return .error .badKeyLength
  else if applet.hidCrescendo then
    if (← ask .reportsManagementKey : Bool) then sendSetManagementKey alg key requireTouch
    else ask (MgmtAsk.putXauthKey current alg key)
  else sendSetManagementKey alg key requireTouch

def readAdminDataInner : MgmtM (Mgmt (List UInt8)) :=
  andThen (transmitMgmt (getData OBJECT_ADMIN_DATA)) fun (data, sw) =>
    return .ok (if sw ≠ SW_OK then [] else (unwrapDataObject data).getD [])

/-- A card without this object refuses the write, which is no error. -/
def updateAdminDataPinProtectedFlag (set : Bool) : MgmtM (Mgmt Unit) :=
  andThen readAdminDataInner fun existing =>
    match setAdminDataPinProtectedFlag existing set with
    | none => return .ok ()
    | some patched => andThen (transmitMgmt (putData OBJECT_ADMIN_DATA patched)) fun _ =>
        return .ok ()

def putPinProtectedData (label : String) (inner : List UInt8) : MgmtM (Mgmt Unit) :=
  andThen (transmitMgmt (putData OBJECT_PIN_PROTECTED_DATA inner)) fun (_, sw) =>
    return lift (okOrWrite label sw)

def writePinProtectedManagementKey (key : List UInt8) : MgmtM (Mgmt Unit) :=
  putPinProtectedData "piv put pin-protected management key" (buildPinProtectedManagementKey key)

def clearPinProtectedManagementKey : MgmtM (Mgmt Unit) :=
  putPinProtectedData "piv clear pin-protected management key" []

/-- Bring the copy in step with the key. -/
def maintainPinProtectedData (key : List UInt8) (allowPinUnlock : Bool) : MgmtM (Mgmt Unit) :=
  if allowPinUnlock then writePinProtectedManagementKey key else clearPinProtectedManagementKey

inductive PinProtectMaintenance where
  | notApplicable
  | ran (printedData : Mgmt Unit)
deriving DecidableEq, Repr

/-- The key first; then the flag, and then the copy that the PIN gives out. -/
def setManagementKeyPinProtected (current : CurrentMgmtAuth) (alg : MgmtAlg) (key : List UInt8)
    (requireTouch allowPinUnlock : Bool) : MgmtM (Mgmt PinProtectMaintenance) :=
  andThen (setManagementKey applet current alg key requireTouch) fun _ =>
    if applet.hidCrescendo then return .ok .notApplicable
    else andThen (updateAdminDataPinProtectedFlag allowPinUnlock) fun _ => do
      return .ok (.ran (← maintainPinProtectedData key allowPinUnlock))

end Replacement

/-! ### A remembered algorithm -/

/-- A device that says of each algorithm whether it starts an authentication under it, and of
its key what it reports, and always the same. -/
structure Steady {σ : Type} (D : Dialogue.Device MgmtAnswer σ) (J : σ → Prop)
    (accepts : MgmtAlg → Bool) (reported : Option MgmtAlg) : Prop where
  probe : ∀ s alg a t, J s →
    D s (.transmit (generalAuthRequestWitness alg KEY_REF_MANAGEMENT)) a t →
      J t ∧ ∃ data sw, a = .ok (data, sw) ∧ (sw == SW_OK) = accepts alg
  reported : ∀ s a t, J s → D s .reportedManagementKeyAlgorithm a t → J t ∧ a = reported

/-- What a probe of every algorithm finds, where the card does not report one. -/
def resolvedAlgorithm (accepts : MgmtAlg → Bool) (reported : Option MgmtAlg) (keyLen : Nat) :
    Mgmt MgmtAlg :=
  match reported with
  | some alg => if alg.keyLen ≠ keyLen then .error .badKeyLength else .ok alg
  | none =>
      match pickMgmtAlg (MgmtAlg.ALL.filter accepts) keyLen with
      | none => .error .badKeyLength
      | some alg => .ok alg

section Remembered

variable {σ : Type} {D : Dialogue.Device MgmtAnswer σ} {J : σ → Prop}
  {accepts : MgmtAlg → Bool} {reported : Option MgmtAlg} {m : Option MgmtAlg} {s : σ}

theorem ensures_probeMgmtAlg (h : Steady D J accepts reported) (alg : MgmtAlg) (hs : J s) :
    Ensures D (fun r n t => r = .ok (accepts alg) ∧ n = m ∧ J t) (probeMgmtAlg alg) m s := by
  refine ensures_andThen (ensures_bind (ensures_ask fun a t hstep => ?_))
  obtain ⟨ht, data, sw, rfl, hsw⟩ := h.probe s alg a t hs hstep
  refine ensures_pure (ok_andThen ?_)
  exact ensures_pure ⟨congrArg Except.ok hsw, rfl, ht⟩

theorem ensures_probeAll (h : Steady D J accepts reported) (algs : List MgmtAlg) (hs : J s) :
    Ensures D (fun r n t => r = .ok (algs.filter accepts) ∧ n = m ∧ J t) (probeAll algs) m s := by
  induction algs generalizing s with
  | nil => exact ensures_pure ⟨rfl, rfl, hs⟩
  | cons alg algs ih =>
      refine ensures_andThen ((ensures_probeMgmtAlg h alg hs).mono ?_)
      rintro r n t ⟨rfl, rfl, ht⟩
      refine ok_andThen ?_
      refine ensures_andThen ((ih ht).mono ?_)
      rintro r n t ⟨rfl, rfl, ht⟩
      refine ok_andThen ?_
      refine ensures_pure ⟨?_, rfl, ht⟩
      rw [List.filter_cons]

/-- A hint that two questions confirm is what the probe of every algorithm would pick. -/
theorem pickMgmtAlg_of_confirmed {hint : MgmtAlg} (haccepts : accepts hint = true)
    (hfirst : hint = .aes192 → accepts .tripleDes = false) :
    pickMgmtAlg (MgmtAlg.ALL.filter accepts) hint.keyLen = some hint := by
  cases hint <;> rcases h3 : accepts .tripleDes <;> rcases h128 : accepts .aes128 <;>
    rcases h192 : accepts .aes192 <;> rcases h256 : accepts .aes256 <;>
    simp_all [MgmtAlg.ALL, pickMgmtAlg, MgmtAlg.keyLen]

theorem ensures_hintStillPicked (h : Steady D J accepts reported) (hint : MgmtAlg) (keyLen : Nat)
    (hs : J s) : Ensures D (fun r n t => n = m ∧ J t ∧ ∃ still, r = .ok still ∧ (still = true →
      pickMgmtAlg (MgmtAlg.ALL.filter accepts) keyLen = some hint)) (hintStillPicked hint keyLen)
      m s := by
  unfold hintStillPicked
  split
  · exact ensures_pure ⟨rfl, hs, false, rfl, fun h => absurd h Bool.false_ne_true⟩
  · next hlen =>
      have hlen : hint.keyLen = keyLen := not_not.mp hlen
      subst hlen
      refine ensures_andThen ((ensures_probeMgmtAlg h hint hs).mono ?_)
      rintro r n t ⟨rfl, rfl, ht⟩
      refine ok_andThen ?_
      rcases haccepts : accepts hint
      · exact ensures_pure ⟨rfl, ht, false, rfl, fun h => absurd h Bool.false_ne_true⟩
      · by_cases haes : hint = .aes192
        · simp only [Bool.not_true, Bool.false_eq_true, if_false, haes, ne_eq, not_true_eq_false]
          refine ensures_andThen ((ensures_probeMgmtAlg h .tripleDes ht).mono ?_)
          rintro r n u ⟨rfl, rfl, hu⟩
          refine ok_andThen ?_
          refine ensures_pure ⟨rfl, hu, _, rfl, fun hnot => ?_⟩
          exact haes ▸ pickMgmtAlg_of_confirmed haccepts fun _ => (Bool.not_eq_true' _).mp hnot
        · simp only [Bool.not_true, Bool.false_eq_true, if_false, haes, ne_eq, not_false_eq_true,
            if_true]
          exact ensures_pure ⟨rfl, ht, true, rfl, fun _ =>
            pickMgmtAlg_of_confirmed haccepts fun heq => absurd heq haes⟩

theorem ensures_probeAndPick (h : Steady D J accepts reported) (keyLen : Nat) (hs : J s) :
    Ensures D (fun r _ t => r = resolvedAlgorithm accepts none keyLen ∧ J t)
      (probeAndPick keyLen) m s := by
  refine ensures_andThen ((ensures_probeAll h MgmtAlg.ALL hs).mono ?_)
  rintro r n t ⟨rfl, rfl, ht⟩
  refine ok_andThen ?_
  rcases hpick : pickMgmtAlg (MgmtAlg.ALL.filter accepts) keyLen with _ | chosen
  · refine ensures_pure ⟨?_, ht⟩
    rw [resolvedAlgorithm, hpick]
  · refine ensures_bind (ensures_set (ensures_pure ⟨?_, ht⟩))
    rw [resolvedAlgorithm, hpick]

theorem ensures_resolveManagementKeyAlgorithm (h : Steady D J accepts reported) (keyLen : Nat)
    (hs : J s) : Ensures D (fun r _ t => r = resolvedAlgorithm accepts reported keyLen ∧ J t)
      (resolveManagementKeyAlgorithm keyLen) m s := by
  refine ensures_bind (ensures_ask fun a t hstep => ?_)
  obtain ⟨ht, rfl⟩ := h.reported s a t hs hstep
  rcases a with _ | alg
  · refine ensures_bind (ensures_get ?_)
    rcases m with _ | hint
    · exact ensures_probeAndPick h keyLen ht
    · refine ensures_andThen ((ensures_hintStillPicked h hint keyLen ht).mono ?_)
      rintro r n u ⟨rfl, hu, still, rfl, hstill⟩
      refine ok_andThen ?_
      rcases still
      · exact ensures_probeAndPick h keyLen hu
      · refine ensures_pure ⟨?_, hu⟩
        rw [resolvedAlgorithm, hstill rfl]
  · exact ensures_pure ⟨rfl, ht⟩

end Remembered

/-- Keys of these lengths, one after the other, in one session. -/
def resolveEach : List Nat → MgmtM (List (Mgmt MgmtAlg))
  | [] => return []
  | keyLen :: keyLens => do
      let first ← resolveManagementKeyAlgorithm keyLen
      let rest ← resolveEach keyLens
      return first :: rest

/-- **A remembered algorithm changes no answer.** Whatever a session remembers, each of its
questions is answered as the probe of every algorithm would answer it. -/
theorem hints_change_no_answer {σ : Type} {D : Dialogue.Device MgmtAnswer σ} {J : σ → Prop}
    {accepts : MgmtAlg → Bool} {reported : Option MgmtAlg} (h : Steady D J accepts reported)
    (keyLens : List Nat) (hint : Option MgmtAlg) {s : σ} (hs : J s) :
    Ensures D (fun answers _ _ => answers = keyLens.map (resolvedAlgorithm accepts reported))
      (resolveEach keyLens) hint s := by
  have hrun : Ensures D (fun answers _ t =>
      answers = keyLens.map (resolvedAlgorithm accepts reported) ∧ J t)
      (resolveEach keyLens) hint s := by
    induction keyLens generalizing hint s with
    | nil => exact ensures_pure ⟨rfl, hs⟩
    | cons keyLen keyLens ih =>
        refine ensures_bind ((ensures_resolveManagementKeyAlgorithm h keyLen hs).mono ?_)
        rintro _ n t ⟨rfl, ht⟩
        refine ensures_bind ((ih n ht).mono ?_)
        rintro _ n u ⟨rfl, hu⟩
        exact ensures_pure ⟨rfl, hu⟩
  exact hrun.mono fun _ _ _ hpost => hpost.1

/-- A card that starts an authentication under AES-192 only, and reports nothing. -/
def onlyAes192 : (q : MgmtAsk) → MgmtAnswer q
  | .transmit apdu =>
      .ok ([], if apdu = generalAuthRequestWitness .aes192 KEY_REF_MANAGEMENT then SW_OK
        else SW_CONDITIONS_NOT_SATISFIED)
  | .getrandom _ => none
  | .reportedManagementKeyAlgorithm => none
  | .reportsManagementKey => false
  | .authenticateAca _ => .error .badKeyLength
  | .putXauthKey _ _ _ => .error .badKeyLength

theorem steady_onlyAes192 : Steady (σ := Unit) (fun _ q a _ => a = onlyAes192 q) (fun _ => True)
    (· == .aes192) none := by
  constructor
  · rintro - alg a - - rfl
    exact ⟨trivial, _, _, rfl, by cases alg <;> decide⟩
  · rintro - a - - rfl
    exact ⟨trivial, rfl⟩

theorem hints_change_no_answer_onlyAes192 :
    Ensures (fun (_ : Unit) q a _ => a = onlyAes192 q)
      (fun answers _ _ => answers = [.ok .aes192, .error .badKeyLength])
      (resolveEach [24, 16]) (some .tripleDes) () :=
  (hints_change_no_answer steady_onlyAes192 [24, 16] (some .tripleDes) trivial).mono
    fun _ _ _ h => h.trans (by decide)

end Keyroost.Piv
