import Keyroost.Piv.SlotCard

/-!
# What an import says about the slot is so

Whatever the card answers: the checks come before the first write, the key comes after its
certificate, and what the ending says of the old key, the new key and the certificate holds of the
card. One ending is the exception: the delete that cleans up after a failed key write may have been
carried out with its answer lost, and is then reported as not done.

The card is that of `SlotCard`. Each step of `ImportRun` has one lemma that says what the slot holds
when the step ends in each of its ways, and `runs_writeSteps` puts them together. `ImportHolds` is
what is asked of an ending, and `LostCleanup` the runs of the exception, in terms of the
conversation alone: `run_import_holds_iff` is an equivalence, and `carried_out_cleanup_is_denied` is
such a run.
-/

namespace Keyroost.Piv

open Transport Dialogue

variable {κ : Type}

/-! ### What is asked -/

def HasIns (ins : UInt8) (q : ImportAsk) : Prop :=
  ∃ apdu, q = .transmit apdu ∧ apdu[1]? = some ins

/-- An APDU of a key write. -/
def IsKeyWrite (q : ImportAsk) : Prop := HasIns INS_IMPORT_KEY q

/-- An APDU of any write. -/
def IsWrite (q : ImportAsk) : Prop := HasIns INS_PUT_DATA q ∨ IsKeyWrite q

theorem HasIns.unique {ins ins' : UInt8} {q : ImportAsk} (h : HasIns ins q)
    (h' : HasIns ins' q) : ins = ins' := by
  obtain ⟨apdu, rfl, hins⟩ := h
  obtain ⟨apdu', happ, hins'⟩ := h'
  cases happ
  exact Option.some.inj (hins.symm.trans hins')

theorem ins_buildApduExt (cla ins p1 p2 : UInt8) (data : List UInt8) (le : Option UInt16) :
    (buildApduExt cla ins p1 p2 data le)[1]? = some ins := by
  unfold buildApduExt
  split <;> rfl

theorem ins_chainLinks {cla ins p1 p2 : UInt8} {le : Option UInt8} {links : List (List UInt8)} :
    ∀ apdu ∈ chainLinks cla ins p1 p2 le links, apdu[1]? = some ins := by
  induction links with
  | nil => exact nofun
  | cons chunk rest ih =>
      cases rest with
      | nil =>
          intro apdu hapdu
          rw [List.mem_singleton.mp hapdu]
          rfl
      | cons next rest =>
          intro apdu hapdu
          rw [chainLinks_cons] at hapdu
          rcases List.mem_cons.mp hapdu with rfl | hapdu
          · rfl
          · exact ih apdu hapdu

theorem ins_chainApdu {cla ins p1 p2 : UInt8} {data : List UInt8} {n : Nat}
    {le : Option UInt8} : ∀ apdu ∈ chainApdu cla ins p1 p2 data n le, apdu[1]? = some ins := by
  rw [chainApdu]
  split
  · intro apdu hapdu
    rw [List.mem_singleton.mp hapdu]
    rfl
  · exact ins_chainLinks

section Asks

variable {P : ImportAsk → Prop}

theorem asks_transmitChainWith {label : String} {apdus : List (List UInt8)}
    (h : ∀ apdu ∈ apdus, P (.transmit apdu)) :
    (transmitChainWith transmit label apdus).Asks P := by
  induction apdus with
  | nil => exact trivial
  | cons apdu rest ih =>
      have hfirst : (transmit apdu).Asks P := ⟨h apdu List.mem_cons_self, fun _ => trivial⟩
      cases rest with
      | nil => exact hfirst
      | cons next rest =>
          refine Asks.andThen hfirst fun (data, sw) => ?_
          dsimp only
          split
          · exact trivial
          · exact ih fun a ha => h a (List.mem_cons_of_mem _ ha)

theorem asks_sendLong {link : LongLink} {label : String} {single : List UInt8}
    {chained : List (List UInt8)} {retryOn : UInt16 → Bool} (hsingle : P (.transmit single))
    (hchained : ∀ apdu ∈ chained, P (.transmit apdu)) :
    (sendLong transmit link label single chained retryOn).Asks P := by
  have hlinks : (transmitChainWith transmit label chained).Asks P :=
    asks_transmitChainWith hchained
  have hchain := fun after => Asks.bind hlinks fun r =>
    show (Dialogue.done (LongSent.mk r after)).Asks P from trivial
  unfold sendLong
  split
  · exact hchain false
  · refine Asks.bind ⟨hsingle, fun _ => trivial⟩ fun direct => ?_
    split
    · exact hchain true
    · split
      · split
        · exact hchain false
        · exact trivial
      · exact trivial

theorem asks_sendCertificate {gzipMember : List UInt8 → List UInt8} {link : LongLink}
    {slot : Slot} {der : List UInt8} {compression : CertCompression} :
    (sendCertificate transmit gzipMember link slot der compression).Asks
      (HasIns INS_PUT_DATA) := by
  have hput : ∀ before info payload, (putCertificate transmit link slot der before info
      payload).Asks (HasIns INS_PUT_DATA) := by
    intro before info payload
    refine Asks.bind (Asks.bind (asks_sendLong ⟨_, rfl, ins_buildApduExt ..⟩ fun apdu hapdu =>
      ⟨_, rfl, ins_chainApdu apdu hapdu⟩) fun _ => trivial) ?_
    rintro ⟨e | sw, after⟩
    · exact trivial
    · exact trivial
  have hcompressed : ∀ tried after, (storeCompressed slot der (gzipMember der) tried
      (putCertificate transmit link slot der) after).Asks (HasIns INS_PUT_DATA) := by
    intro tried after
    refine Asks.bind (hput _ _ _) ?_
    rintro ⟨e | _, after⟩
    · cases e <;> exact trivial
    · exact trivial
  refine Asks.bind ?_ fun _ => trivial
  simp only [storeCertificate]
  split
  · refine Asks.bind (hput _ _ _) ?_
    rintro ⟨e | _, after⟩
    · cases e with
      | pivCertTooLarge s len c =>
          show Asks _ (if compression = .auto then _ else _)
          split
          · exact hcompressed _ _
          · exact trivial
      | _ => exact trivial
    · exact trivial
  · exact hcompressed _ _

end Asks

theorem no_keyWrite_of_put {q : ImportAsk} (h : HasIns INS_PUT_DATA q) : ¬ IsKeyWrite q :=
  fun hkey => absurd (h.unique hkey) (by decide)

theorem asks_clearCertificateOf (slot : Slot) :
    (clearCertificateOf slot).Asks (HasIns INS_PUT_DATA) :=
  Asks.andThen ⟨⟨_, rfl, ins_buildApduExt ..⟩, fun _ => trivial⟩ fun _ => trivial

/-- The certificate step writes no key. -/
theorem asks_certificateStep (libs : Libraries) (plan : ImportPlan)
    (compression : CertCompression) :
    (certificateStep libs plan compression).Asks (¬ IsKeyWrite ·) := by
  have hclear := fun slot => Asks.mono (fun _ => no_keyWrite_of_put)
    (asks_clearCertificateOf slot)
  unfold certificateStep
  split
  · next der _ =>
      have hstore : (storeCertificateUnchecked libs plan.slot der compression).Asks
          (¬ IsKeyWrite ·) := by
        refine ⟨nofun, fun link => Asks.andThen
          (Asks.mono (fun _ => no_keyWrite_of_put) asks_sendCertificate) fun stored => ?_⟩
        split
        · refine Asks.bind (Asks.andThen ⟨?_, fun _ => trivial⟩ fun _ => trivial)
            fun _ => trivial
          rintro ⟨apdu, happ, hins⟩
          cases happ
          cases hins
        · exact trivial
      refine Asks.bind hstore ?_
      rintro (error | stored)
      · dsimp only
        split
        · exact trivial
        · exact Asks.bind (hclear _) fun _ => trivial
      · exact trivial
  · refine Asks.bind (hclear _) ?_
    rintro (error | _)
    · exact trivial
    · exact trivial

/-! ### What an ending says -/

section Says

variable (imported : UInt8 → List UInt8 → κ) (libs : Libraries) (plan : ImportPlan)

/-- The key of the plan's entry, as the applet holds it. -/
def NewKey (k : κ) : Prop :=
  ∃ algId body, importKeyBodyFor ⟨plan.entry.key.alg, algId,
    importParts plan.entry.key plan.layout⟩ plan.pinPolicy plan.touchPolicy plan.layout =
      .ok body ∧ k = imported algId body

/-- The entry's own certificate, or none if it has none. -/
def OwnCertificate (x : SlotContent κ) : Prop :=
  (∀ der, plan.entry.certificate = some der → HoldsCertificate libs der x) ∧
    (plan.entry.certificate = none → x.cert = none)

/-- The certificate is the old one, none, or a written form of the entry's. -/
def AnyCertificate (old x : SlotContent κ) : Prop :=
  x.cert = old.cert ∨ x.cert = none ∨
    ∃ der, plan.entry.certificate = some der ∧ Written libs der x

/-- What an ending says of the slot, which held `old` and holds `x` now. A refusal says that nothing
was written, and of a certificate that was not stored the ending says what the clean-up came to. -/
def Tells (old x : SlotContent κ) : ImportEnd → Prop
  | .ok report | .error (.selfTestNotRun report _) | .error (.selfTestFailed report) =>
      report.slot = plan.slot ∧ report.cert.isSome = plan.entry.certificate.isSome ∧
        NewKey imported plan x.key ∧ OwnCertificate libs plan x
  | .error (.refused _) | .error (.pinNotVerified _) => x = old
  | .error (.certificateNotStored slot error storing cleared) =>
      slot = plan.slot ∧ storing = plan.entry.certificate.isSome ∧ x.key = old.key ∧
        (cleared = none → cardRefused error = true ∧ x.cert = old.cert) ∧
        (cleared = some true → x.cert = none) ∧
        (cleared = some false → AnyCertificate libs plan old x)
  | .error (.keyNotWritten slot error cleared) =>
      slot = plan.slot ∧ (cardRefused error = true → x.key = old.key) ∧
        (x.key = old.key ∨ NewKey imported plan x.key) ∧ (cleared = true → x.cert = none) ∧
        (cleared = false → plan.entry.certificate.isSome = true ∧ OwnCertificate libs plan x)

/-- The endings that say the certificate could not be cleared. -/
def SaysNotCleared : ImportEnd → Prop
  | .error (.certificateNotStored _ _ _ (some false)) | .error (.keyNotWritten _ _ false) => True
  | _ => False

/-- The new key with its own certificate or none, everything as it was, or no certificate. -/
def Consistent (old x : SlotContent κ) : Prop :=
  (NewKey imported plan x.key ∧ OwnCertificate libs plan x) ∨ x = old ∨ x.cert = none

/-- Everything an import promises, of one run: what its ending says of the slot is so; unless it
says otherwise, the slot has the new key with its own certificate, or what it had, or no
certificate; everything that can be checked is checked before the first write; and no key is written
after its certificate failed. -/
structure ImportHolds (pin : Option (List UInt8)) (log : List ImportLine) (r : ImportEnd)
    (old x : SlotContent κ) : Prop where
  tells : Tells imported libs plan old x r
  consistent : ¬ SaysNotCleared r → Consistent imported libs plan old x
  checked : ∀ before line after, log = before ++ line :: after → IsWrite line.1 →
    certificateBelongs libs plan.entry plan.entry.key.alg
      (plan.entry.key.publicKey libs.points) = true ∧
    (∃ algId body, importKeyBodyFor ⟨plan.entry.key.alg, algId,
      importParts plan.entry.key plan.layout⟩ plan.pinPolicy plan.touchPolicy plan.layout =
        .ok body) ∧
    ∀ p, pin = some p → ∃ apdu data, verifyPin p = .ok apdu ∧
      ⟨.transmit apdu, .ok (data, SW_OK)⟩ ∈ before
  keyAfter : ∀ slot e storing cleared, r = .error (.certificateNotStored slot e storing cleared) →
    ∀ line ∈ log, ¬ IsKeyWrite line.1

/-- The run ends with a delete of the certificate whose answer is lost. -/
def EndsLost (log : List ImportLine) : Prop :=
  ∃ p, log.getLast? = some ⟨.transmit (clearCertificate plan.slot), .error p⟩

/-- The delete that cleans up after a failed key write gets no answer. -/
def LostCleanup (log : List ImportLine) : Prop :=
  EndsLost plan log ∧ ∃ line ∈ log, IsKeyWrite line.1

end Says

/-! ### The steps -/

variable {imported : UInt8 → List UInt8 → κ} {libs : Libraries} {plan : ImportPlan}
  {s t : Card (SlotContent κ)} {log : List ImportLine}

theorem asks_verifyPinWith (pin : List UInt8) : (verifyPinWith pin).Asks (HasIns INS_VERIFY) := by
  unfold verifyPinWith
  split
  · exact trivial
  · next apdu hapdu =>
      obtain ⟨data, -, hins⟩ := readApdu_verifyPin hapdu
      exact Asks.andThen ⟨⟨apdu, rfl, hins⟩, fun _ => trivial⟩ fun _ => trivial

theorem not_isWrite_of_verify {q : ImportAsk} (h : HasIns INS_VERIFY q) : ¬ IsWrite q := by
  rintro (hput | hkey)
  · exact absurd (h.unique hput) (by decide)
  · exact absurd (h.unique hkey) (by decide)

theorem runs_pinStep {pin : Option (List UInt8)} (hidle : s.chain = none)
    {r : Except ImportFailure Unit}
    (h : Runs (importStep imported plan.slot) s (pinStep pin) log r t) :
    t.chain = none ∧ t.slots = s.slots ∧ (∀ line ∈ log, ¬ IsWrite line.1) ∧
      (∀ f, r = .error f → ∃ e, f = .pinNotVerified e) ∧
      (r = .ok () → ∀ p, pin = some p → ∃ apdu data, verifyPin p = .ok apdu ∧
        ⟨.transmit apdu, .ok (data, SW_OK)⟩ ∈ log) := by
  cases pin with
  | none =>
      obtain ⟨rfl, rfl, rfl⟩ := runs_done.mp h
      exact ⟨hidle, rfl, nofun, nofun, nofun⟩
  | some p =>
      obtain ⟨first, result, u, rest, rfl, hverify, hdone⟩ := runs_bind.mp h
      obtain ⟨rfl, rfl, rfl⟩ := runs_done.mp hdone
      rw [List.append_nil]
      obtain ⟨hnone, hslots⟩ := runs_verifyPinWith hidle hverify
      refine ⟨hnone, hslots, fun line hline => not_isWrite_of_verify
        ((asks_verifyPinWith p).spoken hverify.spoken line hline), fun f hf => ?_, fun hok => ?_⟩
      · rcases result with e | ⟨⟩
        · exact ⟨e, (Except.error.inj hf).symm⟩
        · cases hf
      · intro p' hp'
        cases hp'
        rcases result with e | ⟨⟩
        · cases hok
        · unfold verifyPinWith at hverify
          split at hverify
          · obtain ⟨-, hr, -⟩ := runs_done.mp hverify
            cases hr
          · next apdu hapdu =>
              rcases runs_andThen.mp hverify with ⟨e, hr, -⟩ |
                ⟨line, ⟨data, sw⟩, v, rest, rfl, hsend, hdone⟩
              · cases hr
              · obtain ⟨rfl, hr, -⟩ := runs_done.mp hdone
                obtain ⟨reply, rest, v, rfl, -, hreply⟩ := runs_ask.mp hsend
                obtain ⟨rfl, hreply, -⟩ := runs_done.mp hreply
                rcases reply with e | ⟨data', sw'⟩
                · cases hreply
                · cases hreply
                  rw [mapPinSw_eq_ok.mp hr.symm]
                  exact ⟨apdu, data, hapdu, List.mem_cons_self⟩

theorem consistent_of_slots {old x : SlotContent κ} (h : x = old) :
    Consistent imported libs plan old x := .inr (.inl h)

theorem runs_certificateStep {compression : CertCompression}
    (hfits : ∀ der, plan.entry.certificate = some der →
      CertFits libs.gzipMember plan.slot der compression) (hidle : s.chain = none)
    {r : Except ImportFailure (Option CertImport)} (h : Runs (importStep imported plan.slot) s
      (certificateStep libs plan compression) log r t) :
    t.chain = none ∧
      (∀ cert, r = .ok cert → cert.isSome = plan.entry.certificate.isSome ∧
        t.slots.key = s.slots.key ∧ OwnCertificate libs plan t.slots) ∧
      (∀ f, r = .error f → Tells imported libs plan s.slots t.slots (.error f) ∧
        (¬ SaysNotCleared (.error f) → Consistent imported libs plan s.slots t.slots)) := by
  unfold certificateStep at h
  split at h
  · next der hder =>
      have hown : ∀ {x : SlotContent κ}, HoldsCertificate libs der x →
          OwnCertificate libs plan x := by
        intro x hx
        refine ⟨fun der' hder' => ?_, fun hnone => ?_⟩
        · rw [hder] at hder'
          cases hder'
          exact hx
        · rw [hder] at hnone
          cases hnone
      obtain ⟨first, result, u, rest, rfl, hstore, hrest⟩ := runs_bind.mp h
      have hout := runs_storeCertificateUnchecked (hfits der hder) hidle hstore
      rcases result with e | stored
      · dsimp only at hrest
        split at hrest
        · next hcard =>
            obtain ⟨rfl, rfl, rfl⟩ := runs_done.mp hrest
            have hsame := hout.refused e rfl hcard
            refine ⟨hout.idle, nofun, fun f hf => ?_⟩
            cases hf
            refine ⟨⟨rfl, by rw [hder]; rfl, hout.key, fun _ => ⟨hcard, by rw [hsame]⟩, nofun,
              nofun⟩, fun _ => consistent_of_slots hsame⟩
        · obtain ⟨second, cleared, v, rest, rfl, hclear, hdone⟩ := runs_bind.mp hrest
          obtain ⟨rfl, rfl, rfl⟩ := runs_done.mp hdone
          have hclear := runs_clearCertificateOf hout.idle hclear
          refine ⟨hclear.idle, nofun, fun f hf => ?_⟩
          cases hf
          rcases hbool : cleared.isOk with _ | _
          · refine ⟨⟨rfl, by rw [hder]; rfl, by rw [hclear.key, hout.key], nofun, nofun,
              fun _ => ?_⟩, fun hnot => absurd trivial hnot⟩
            rcases cleared with e' | _
            · cases hcard : cardRefused e' with
              | true =>
                  rw [hclear.refused e' rfl hcard]
                  exact hout.either.imp (congrArg SlotContent.cert) fun hwritten =>
                    .inr ⟨der, hder, hwritten⟩
              | false => exact .inr (.inl (hclear.lost e' rfl hcard))
            · cases hbool
          · rcases cleared with e' | _
            · cases hbool
            · have hnone := hclear.cleared rfl
              exact ⟨⟨rfl, by rw [hder]; rfl, by rw [hclear.key, hout.key], nofun,
                fun _ => hnone, nofun⟩, fun _ => .inr (.inr hnone)⟩
      · obtain ⟨rfl, rfl, rfl⟩ := runs_done.mp hrest
        refine ⟨hout.idle, fun cert hcert => ?_, nofun⟩
        cases hcert
        exact ⟨by rw [hder]; rfl, hout.key, hown (hout.stored stored rfl)⟩
  · next hder =>
      obtain ⟨first, cleared, u, rest, rfl, hclear, hdone⟩ := runs_bind.mp h
      have hclear := runs_clearCertificateOf hidle hclear
      rcases cleared with e | ⟨⟩
      · obtain ⟨rfl, rfl, rfl⟩ := runs_done.mp hdone
        refine ⟨hclear.idle, nofun, fun f hf => ?_⟩
        cases hf
        cases hcard : cardRefused e with
        | true =>
            have hsame := hclear.refused e rfl hcard
            rw [if_pos rfl]
            exact ⟨⟨rfl, by rw [hder]; rfl, hclear.key, fun _ => ⟨hcard, by rw [hsame]⟩, nofun,
              nofun⟩, fun _ => consistent_of_slots hsame⟩
        | false =>
            have hnone := hclear.lost e rfl hcard
            rw [if_neg (by decide)]
            exact ⟨⟨rfl, by rw [hder]; rfl, hclear.key, nofun, nofun,
              fun _ => .inr (.inl hnone)⟩, fun _ => .inr (.inr hnone)⟩
      · obtain ⟨rfl, rfl, rfl⟩ := runs_done.mp hdone
        refine ⟨hclear.idle, fun cert hcert => ?_, nofun⟩
        cases hcert
        refine ⟨by rw [hder]; rfl, hclear.key, fun der hsome => ?_, fun _ => hclear.cleared rfl⟩
        rw [hder] at hsome
        cases hsome

theorem chainApdu_ne_nil (cla ins p1 p2 : UInt8) (data : List UInt8) {n : Nat} (hn : 0 < n)
    (le : Option UInt8) : chainApdu cla ins p1 p2 data n le ≠ [] := by
  rw [chainApdu]
  split
  · exact List.cons_ne_nil _ _
  · next hne =>
      cases hchunks : chunks n data with
      | nil => exact absurd hchunks (chunks_ne_nil hn hne)
      | cons chunk rest => exact chainLinks_ne_nil

/-- A key write sends something. -/
theorem sendImportKey_asks (link : LongLink) (slot : Slot) (algId : UInt8) (body : List UInt8) :
    ∃ q next, sendImportKey transmit link slot algId body = .ask q next ∧ IsKeyWrite q := by
  unfold sendImportKey sendLong
  split
  · have hins : ∀ apdu ∈ chainApdu 0x00 INS_IMPORT_KEY algId slot.keyRef body
        (max 1 (min CHAIN_CHUNK 255)) none, apdu[1]? = some INS_IMPORT_KEY := ins_chainApdu
    have hne := chainApdu_ne_nil 0x00 INS_IMPORT_KEY algId slot.keyRef body
      (by decide : 0 < max 1 (min CHAIN_CHUNK 255)) none
    rw [importKeyChained]
    generalize chainApdu 0x00 INS_IMPORT_KEY algId slot.keyRef body
      (max 1 (min CHAIN_CHUNK 255)) none = apdus at hins hne
    cases apdus with
    | nil => exact absurd rfl hne
    | cons apdu rest =>
        cases rest with
        | nil => exact ⟨_, _, rfl, apdu, rfl, hins apdu List.mem_cons_self⟩
        | cons next rest => exact ⟨_, _, rfl, apdu, rfl, hins apdu List.mem_cons_self⟩
  · exact ⟨_, _, rfl, _, rfl, ins_buildApduExt ..⟩

theorem not_put_of_key {q : ImportAsk} (h : IsKeyWrite q) : ¬ HasIns INS_PUT_DATA q :=
  fun hput => absurd (h.unique hput) (by decide)

theorem runs_writeImportKey_log {algId : UInt8} {body : List UInt8} {r : Tried Unit}
    (h : Runs (importStep imported plan.slot) s (writeImportKey plan.slot algId body) log r t) :
    (∃ line ∈ log, IsKeyWrite line.1) ∧ ∀ line ∈ log, ¬ HasIns INS_PUT_DATA line.1 := by
  constructor
  · obtain ⟨link, rest, s', rfl, -, hnext⟩ := runs_ask.mp h
    obtain ⟨q, next, hask, hkey⟩ := sendImportKey_asks link plan.slot algId body
    have hstarts : ∀ {log r u}, Runs (importStep imported plan.slot) s'
        (sendImportKey transmit link plan.slot algId body) log r u →
        ∃ line ∈ log, IsKeyWrite line.1 := by
      intro log r u hsend
      rw [hask] at hsend
      obtain ⟨a, rest, u', rfl, -⟩ := runs_ask.mp hsend
      exact ⟨_, List.mem_cons_self, hkey⟩
    rcases runs_andThen.mp hnext with ⟨e, -, hsend⟩ | ⟨first, a, u, rest, rfl, hsend, -⟩
    · obtain ⟨line, hline, hkey⟩ := hstarts hsend
      exact ⟨line, List.mem_cons_of_mem _ hline, hkey⟩
    · obtain ⟨line, hline, hkey⟩ := hstarts hsend
      exact ⟨line, List.mem_cons_of_mem _ (List.mem_append_left _ hline), hkey⟩
  · have hasks : (writeImportKey plan.slot algId body).Asks (¬ HasIns INS_PUT_DATA ·) := by
      refine ⟨nofun, fun link => Asks.andThen (Asks.bind (asks_sendLong ?_ fun apdu hapdu => ?_)
        fun _ => trivial) fun _ => ⟨nofun, fun _ => trivial⟩⟩
      · exact not_put_of_key ⟨_, rfl, ins_buildApduExt ..⟩
      · exact not_put_of_key ⟨_, rfl, ins_chainApdu apdu hapdu⟩
    exact hasks.spoken h.spoken

theorem not_endsLost {log : List ImportLine}
    (h : ∀ line ∈ log, ¬ HasIns INS_PUT_DATA line.1) : ¬ EndsLost plan log := by
  rintro ⟨p, hlast⟩
  exact h _ (List.mem_of_getLast? hlast) ⟨_, rfl, ins_buildApduExt ..⟩

/-- How a failed key step ends: the clean-up was answered or not needed, or its answer is lost
and the certificate is gone all the same. -/
theorem runs_keyStep {algId : UInt8} {body : List UInt8} {cert : Option CertImport}
    (hfits : body.length ≤ 0xFFFF) (hidle : s.chain = none)
    (hcert : cert = none → s.slots.cert = none) {r : Except ImportFailure Unit}
    (h : Runs (importStep imported plan.slot) s (keyStep plan algId body cert) log r t) :
    (∃ line ∈ log, IsKeyWrite line.1) ∧
      ((r = .ok () ∧ t.slots.key = imported algId body ∧ t.slots.cert = s.slots.cert) ∨
        ∃ e cleared, r = .error (.keyNotWritten plan.slot e cleared) ∧
          (cardRefused e = true → t.slots.key = s.slots.key) ∧
          (t.slots.key = s.slots.key ∨ t.slots.key = imported algId body) ∧
          (cleared = true → t.slots.cert = none ∧ ¬ EndsLost plan log) ∧
          (cleared = false → cert.isSome = true ∧
            (EndsLost plan log ∧ t.slots.cert = none ∨
              ¬ EndsLost plan log ∧ t.slots.cert = s.slots.cert))) := by
  obtain ⟨first, result, u, rest, rfl, hwrite, hrest⟩ := runs_bind.mp h
  obtain ⟨⟨line, hline, hkey⟩, hnoPut⟩ := runs_writeImportKey_log hwrite
  refine ⟨⟨line, List.mem_append_left _ hline, hkey⟩, ?_⟩
  have hout := runs_writeImportKey hfits hidle hwrite
  rcases result with e | ⟨⟩
  · right
    have hrefused : cardRefused e = true → u.slots.key = s.slots.key :=
      fun hcard => congrArg SlotContent.key (hout.refused e rfl hcard)
    dsimp only at hrest
    split at hrest
    · next hnone =>
        obtain ⟨rfl, rfl, rfl⟩ := runs_done.mp hrest
        rw [List.append_nil]
        refine ⟨e, true, rfl, hrefused, hout.either, fun _ => ⟨?_, not_endsLost hnoPut⟩, nofun⟩
        rw [hout.cert]
        exact hcert (Option.isNone_iff_eq_none.mp hnone)
    · next hsome =>
        obtain ⟨second, cleared, v, rest, rfl, hclear, hdone⟩ := runs_bind.mp hrest
        obtain ⟨rfl, rfl, rfl⟩ := runs_done.mp hdone
        rw [List.append_nil]
        have hclear := runs_clearCertificateOf hout.idle hclear
        obtain ⟨a, rfl, hloss⟩ := hclear.line
        have hlost : EndsLost plan (first ++ [⟨.transmit (clearCertificate plan.slot), a⟩]) ↔
            ∃ p, a = .error p := by
          constructor
          · rintro ⟨p, hlast⟩
            rw [List.getLast?_concat] at hlast
            cases hlast
            exact ⟨p, rfl⟩
          · rintro ⟨p, rfl⟩
            exact ⟨p, List.getLast?_concat⟩
        rw [hloss] at hlost
        rw [hlost]
        refine ⟨e, cleared.isOk, rfl, ?_, ?_, fun hok => ?_, fun hfail => ⟨?_, ?_⟩⟩
        · rw [hclear.key]
          exact hrefused
        · rw [hclear.key]
          exact hout.either
        · rcases cleared with e' | _
          · cases hok
          · exact ⟨hclear.cleared rfl, nofun⟩
        · cases cert with
          | none => exact absurd rfl hsome
          | some stored => rfl
        · rcases cleared with e' | _
          · cases hcard : cardRefused e' with
            | true =>
                right
                rw [hclear.refused e' rfl hcard]
                refine ⟨?_, hout.cert⟩
                rintro ⟨e'', he'', hcard'⟩
                cases he''
                rw [hcard] at hcard'
                cases hcard'
            | false => exact .inl ⟨⟨e', rfl, hcard⟩, hclear.lost e' rfl hcard⟩
          · cases hfail
  · obtain ⟨rfl, rfl, rfl⟩ := runs_done.mp hrest
    exact .inl ⟨rfl, hout.written rfl, hout.cert⟩

theorem runs_selfTestStep {alg : KeyAlg} {pubkey : PublicKey} {pin : Option (List UInt8)}
    {cert : Option CertImport} {r : ImportEnd}
    (h : Runs (importStep imported plan.slot) s (selfTestStep plan alg pubkey pin cert) log r t) :
    t = s ∧ ¬ EndsLost plan log ∧ ∃ report, report.slot = plan.slot ∧ report.cert = cert ∧
      (r = .ok report ∨ (∃ e, r = .error (.selfTestNotRun report e)) ∨
        r = .error (.selfTestFailed report)) := by
  obtain ⟨tested, rest, u, rfl, rfl, hdone⟩ := runs_ask.mp h
  have hlast : ∀ {a : ImportAnswer (.selfTest plan.slot alg pubkey pin)},
      ¬ EndsLost plan [⟨.selfTest plan.slot alg pubkey pin, a⟩] := by
    rintro a ⟨p, hp⟩
    cases hp
  rcases tested with e | results
  · obtain ⟨rfl, rfl, rfl⟩ := runs_done.mp hdone
    exact ⟨rfl, hlast, ⟨plan.slot, cert, []⟩, rfl, rfl, .inr (.inl ⟨e, rfl⟩)⟩
  · dsimp only at hdone
    split at hdone
    · obtain ⟨rfl, rfl, rfl⟩ := runs_done.mp hdone
      exact ⟨rfl, hlast, ⟨plan.slot, cert, results⟩, rfl, rfl, .inr (.inr rfl)⟩
    · obtain ⟨rfl, rfl, rfl⟩ := runs_done.mp hdone
      exact ⟨rfl, hlast, ⟨plan.slot, cert, results⟩, rfl, rfl, .inl rfl⟩

theorem endsLost_append {first rest : List ImportLine} (hrest : rest ≠ []) :
    EndsLost plan (first ++ rest) ↔ EndsLost plan rest := by
  rw [EndsLost, EndsLost, List.getLast?_append, List.getLast?_eq_some_getLast hrest,
    Option.some_or]

/-! ### The whole import -/

/-- The steps that write, and the self-test. -/
def writeSteps (libs : Libraries) (plan : ImportPlan) (compression : CertCompression)
    (pin : Option (List UInt8)) (algId : UInt8) (body : List UInt8) : ImportTalk ImportEnd :=
  (certificateStep libs plan compression).andThen fun cert =>
    (keyStep plan algId body cert).andThen fun _ =>
      selfTestStep plan plan.entry.key.alg (plan.entry.key.publicKey libs.points) pin cert

theorem not_lostCleanup {log : List ImportLine} (h : ∀ line ∈ log, ¬ IsKeyWrite line.1) :
    ¬ LostCleanup plan log :=
  fun ⟨_, line, hline, hkey⟩ => h line hline hkey

theorem OwnCertificate.congr {x y : SlotContent κ} (hcert : y.cert = x.cert)
    (h : OwnCertificate libs plan x) : OwnCertificate libs plan y := by
  refine ⟨fun der hder => ?_, fun hnone => hcert.trans (h.2 hnone)⟩
  obtain ⟨value, hvalue, hread⟩ := h.1 der hder
  exact ⟨value, hcert.trans hvalue, hread⟩

/-- A slot without a certificate does not hold an entry's own. -/
theorem not_ownCertificate {x : SlotContent κ} (hsome : plan.entry.certificate.isSome = true)
    (hnone : x.cert = none) : ¬ OwnCertificate libs plan x := by
  rintro ⟨hown, -⟩
  obtain ⟨der, hder⟩ := Option.isSome_iff_exists.mp hsome
  obtain ⟨value, hvalue, -⟩ := hown der hder
  rw [hnone] at hvalue
  cases hvalue

/-- The writing steps end with a lost clean-up, which their report denies, or with a report
that is true. -/
theorem runs_writeSteps {compression : CertCompression} {pin : Option (List UInt8)}
    {algId : UInt8} {body : List UInt8}
    (hfits : ∀ der, plan.entry.certificate = some der →
      CertFits libs.gzipMember plan.slot der compression)
    (hbody : importKeyBodyFor ⟨plan.entry.key.alg, algId,
      importParts plan.entry.key plan.layout⟩ plan.pinPolicy plan.touchPolicy plan.layout =
        .ok body)
    (hidle : s.chain = none) {r : ImportEnd} (h : Runs (importStep imported plan.slot) s
      (writeSteps libs plan compression pin algId body) log r t) :
    (∀ slot e storing cleared, r = .error (.certificateNotStored slot e storing cleared) →
      ∀ line ∈ log, ¬ IsKeyWrite line.1) ∧
    ((LostCleanup plan log ∧ ¬ Tells imported libs plan s.slots t.slots r) ∨
      (¬ LostCleanup plan log ∧ Tells imported libs plan s.slots t.slots r ∧
        (¬ SaysNotCleared r → Consistent imported libs plan s.slots t.slots))) := by
  rcases runs_andThen.mp h with ⟨f, rfl, hcert⟩ | ⟨certLog, cert, u, rest, rfl, hcert, hrest⟩
  · obtain ⟨-, -, hfailed⟩ := runs_certificateStep hfits hidle hcert
    obtain ⟨htells, hconsistent⟩ := hfailed f rfl
    have hno := (asks_certificateStep libs plan compression).spoken hcert.spoken
    exact ⟨fun _ _ _ _ _ => hno, .inr ⟨not_lostCleanup hno, htells, hconsistent⟩⟩
  · obtain ⟨hidleU, hstored, -⟩ := runs_certificateStep hfits hidle hcert
    obtain ⟨hsome, hkeyU, hown⟩ := hstored cert rfl
    have hnone : cert = none → u.slots.cert = none := by
      rintro rfl
      exact hown.2 (Option.isSome_eq_false_iff.mp hsome.symm |> Option.isNone_iff_eq_none.mp)
    have hnew : NewKey imported plan (imported algId body) := ⟨algId, body, hbody, rfl⟩
    have hlen := length_importKeyBodyFor hbody
    rcases runs_andThen.mp hrest with ⟨f, rfl, hkey⟩ | ⟨keyLog, _, v, last, rfl, hkey, htest⟩
    · obtain ⟨⟨line, hline, hwrite⟩, ⟨hok, -⟩ |
        ⟨e, cleared, hf, hrefused, heither, htrue, hfalse⟩⟩ :=
          runs_keyStep hlen hidleU hnone hkey
      · cases hok
      cases hf
      refine ⟨nofun, ?_⟩
      have hlost : LostCleanup plan (certLog ++ rest) ↔ EndsLost plan rest := by
        rw [LostCleanup, endsLost_append (List.ne_nil_of_mem hline)]
        exact and_iff_left ⟨line, List.mem_append_right _ hline, hwrite⟩
      rw [hkeyU] at hrefused heither
      have hkeys := heither.imp_right fun hkey => hkey ▸ hnew
      rw [hlost]
      cases cleared with
      | true =>
          obtain ⟨hgone, hanswered⟩ := htrue rfl
          exact .inr ⟨hanswered, ⟨rfl, hrefused, hkeys, fun _ => hgone, nofun⟩,
            fun _ => .inr (.inr hgone)⟩
      | false =>
          obtain ⟨hcertSome, ⟨hends, hgone⟩ | ⟨hanswered, hsame⟩⟩ := hfalse rfl
          · refine .inl ⟨hends, fun htells => ?_⟩
            obtain ⟨-, -, -, -, htells⟩ := htells
            exact not_ownCertificate (hsome ▸ hcertSome) hgone (htells rfl).2
          · exact .inr ⟨hanswered, ⟨rfl, hrefused, hkeys, nofun,
              fun _ => ⟨hsome ▸ hcertSome, hown.congr hsame⟩⟩, fun hnot => absurd trivial hnot⟩
    · obtain ⟨-, ⟨-, hkeyV, hcertV⟩ | ⟨e, cleared, hf, -⟩⟩ :=
        runs_keyStep hlen hidleU hnone hkey
      · obtain ⟨rfl, hnot, report, hslot, hcertReport, hr⟩ := runs_selfTestStep htest
        have hlog : last ≠ [] := by
          rintro rfl
          cases runs_ask.mp htest with
          | intro a h => exact absurd h.choose_spec.choose_spec.1 nofun
        have hkeyT : NewKey imported plan t.slots.key := hkeyV ▸ hnew
        have hownT := hown.congr hcertV
        have htells : Tells imported libs plan s.slots t.slots (.ok report) :=
          ⟨hslot, hcertReport ▸ hsome, hkeyT, hownT⟩
        have hlast : ¬ LostCleanup plan (certLog ++ (keyLog ++ last)) := by
          rintro ⟨hends, -⟩
          rw [← List.append_assoc, endsLost_append hlog] at hends
          exact hnot hends
        rcases hr with rfl | ⟨e, rfl⟩ | rfl
        · exact ⟨nofun, .inr ⟨hlast, htells, fun _ => .inl ⟨hkeyT, hownT⟩⟩⟩
        · exact ⟨nofun, .inr ⟨hlast, htells, fun _ => .inl ⟨hkeyT, hownT⟩⟩⟩
        · exact ⟨nofun, .inr ⟨hlast, htells, fun _ => .inl ⟨hkeyT, hownT⟩⟩⟩
      · cases hf

/-- What an import asks before the lines that write come before every one that does. -/
theorem before_of_append {first rest before after : List ImportLine} {line : ImportLine}
    (h : first ++ rest = before ++ line :: after) (hfirst : ∀ x ∈ first, ¬ IsWrite x.1)
    (hline : IsWrite line.1) : ∀ x ∈ first, x ∈ before := by
  rcases List.append_eq_append_iff.mp h with ⟨mid, rfl, -⟩ | ⟨mid, rfl, hmid⟩
  · exact fun x hx => List.mem_append_left _ hx
  · cases mid with
    | nil =>
        intro x hx
        rwa [List.append_nil] at hx
    | cons x mid =>
        cases hmid
        exact absurd hline (hfirst line (List.mem_append_right _ List.mem_cons_self))

theorem lostCleanup_append {first rest : List ImportLine}
    (hfirst : ∀ x ∈ first, ¬ IsWrite x.1) :
    LostCleanup plan (first ++ rest) ↔ LostCleanup plan rest := by
  have hkeys : (∃ line ∈ first ++ rest, IsKeyWrite line.1) ↔ ∃ line ∈ rest, IsKeyWrite line.1 := by
    constructor
    · rintro ⟨line, hline, hkey⟩
      rcases List.mem_append.mp hline with hline | hline
      · exact absurd (.inr hkey) (hfirst line hline)
      · exact ⟨line, hline, hkey⟩
    · rintro ⟨line, hline, hkey⟩
      exact ⟨line, List.mem_append_right _ hline, hkey⟩
  rw [LostCleanup, LostCleanup, hkeys]
  refine and_congr_left fun ⟨line, hline, _⟩ => ?_
  rw [endsLost_append (List.ne_nil_of_mem hline)]

/-- An import that ends before its first write holds to all it says. -/
theorem importHolds_unwritten {pin : Option (List UInt8)} {f : ImportFailure}
    {old x : SlotContent κ} (hf : (∃ e, f = .refused e) ∨ ∃ e, f = .pinNotVerified e)
    (hsame : x = old) (hno : ∀ line ∈ log, ¬ IsWrite line.1) :
    ImportHolds imported libs plan pin log (.error f) old x ↔ ¬ LostCleanup plan log := by
  refine iff_of_true ⟨?_, fun _ => consistent_of_slots hsame, ?_, fun _ _ _ _ _ line hline hkey =>
    hno line hline (.inr hkey)⟩ (not_lostCleanup fun line hline hkey => hno line hline (.inr hkey))
  · rcases hf with ⟨e, rfl⟩ | ⟨e, rfl⟩
    · exact hsame
    · exact hsame
  · rintro before line after rfl hline
    exact absurd hline (hno line (List.mem_append_right _ List.mem_cons_self))

/-- **An import says what is so, unless its last clean-up is lost.** The card is not in the middle
of a chain, and a certificate that is to be stored fits what one command can carry. The condition on
the right is one on the conversation: the clean-up after a failed write of the key was sent, and its
answer lost although it was carried out. -/
theorem run_import_holds_iff (libs : Libraries) (plan : ImportPlan)
    (compression : CertCompression) (pin : Option (List UInt8)) (hidle : s.chain = none)
    (hfits : ∀ der, plan.entry.certificate = some der →
      CertFits libs.gzipMember plan.slot der compression) {r : ImportEnd}
    (h : Runs (importStep imported plan.slot) s (runImportWith libs plan compression pin) log
      r t) :
    ImportHolds imported libs plan pin log r s.slots t.slots ↔ ¬ LostCleanup plan log := by
  unfold runImportWith at h
  dsimp only at h
  split at h
  · obtain ⟨rfl, rfl, rfl⟩ := runs_done.mp h
    exact importHolds_unwritten (.inl ⟨_, rfl⟩) rfl nofun
  next hbelongs =>
  rw [Bool.not_eq_true, Bool.not_eq_false'] at hbelongs
  obtain ⟨algId, rest, s', rfl, rfl, hnext⟩ := runs_ask.mp h
  have halg : ¬ IsWrite (.algorithmId plan.entry.key.alg) := by
    rintro (⟨_, hq, -⟩ | ⟨_, hq, -⟩)
    · cases hq
    · cases hq
  split at hnext
  · obtain ⟨rfl, rfl, rfl⟩ := runs_done.mp hnext
    refine importHolds_unwritten (.inl ⟨_, rfl⟩) rfl fun line hline => ?_
    rw [List.mem_singleton.mp hline]
    exact halg
  next body hbody =>
  have hfirst : ∀ {pinLog : List ImportLine}, (∀ line ∈ pinLog, ¬ IsWrite line.1) →
      ∀ line ∈ (⟨.algorithmId plan.entry.key.alg, algId⟩ : ImportLine) :: pinLog,
        ¬ IsWrite line.1 :=
    fun hpin line hline => (List.mem_cons.mp hline).elim (fun h => h ▸ halg) (hpin line)
  rcases runs_andThen.mp hnext with ⟨f, rfl, hpin⟩ | ⟨pinLog, _, u, wrest, rfl, hpin, hwrite⟩
  · obtain ⟨-, hslots, hno, hfailed, -⟩ := runs_pinStep hidle hpin
    exact importHolds_unwritten (.inr (hfailed f rfl)) hslots (hfirst hno)
  · obtain ⟨hidleU, hslots, hno, -, hverified⟩ := runs_pinStep hidle hpin
    obtain ⟨hkeyAfter, hend⟩ := runs_writeSteps hfits hbody hidleU hwrite
    rw [hslots] at hend
    change ImportHolds imported libs plan pin ((⟨_, algId⟩ :: pinLog) ++ wrest) r _ _ ↔
      ¬ LostCleanup plan ((⟨_, algId⟩ :: pinLog) ++ wrest)
    rw [lostCleanup_append (hfirst hno)]
    rcases hend with ⟨hlost, hfalse⟩ | ⟨hanswered, htells, hconsistent⟩
    · exact iff_of_false (fun hholds => hfalse hholds.tells) (not_not_intro hlost)
    · refine iff_of_true ⟨htells, hconsistent, fun before line after hlog hline => ?_, ?_⟩
        hanswered
      · have hbefore := before_of_append hlog (hfirst hno) hline
        refine ⟨hbelongs, ⟨algId, body, hbody⟩, fun p hp => ?_⟩
        obtain ⟨apdu, data, hapdu, hmem⟩ := hverified rfl p hp
        exact ⟨apdu, data, hapdu, hbefore _ (List.mem_cons_of_mem _ hmem)⟩
      · intro slot e storing cleared hr line hline hkey
        rcases List.mem_append.mp hline with hline | hline
        · exact hfirst hno line hline (.inr hkey)
        · exact hkeyAfter slot e storing cleared hr line hline hkey

/-! ### A small certificate and its key -/

def SEED : List UInt8 := List.replicate 32 0x05

def SMALL_CERT : List UInt8 := [0x30, 0x00]

def smallLibs : Libraries where
  gzipMember := id
  gunzip := .ok
  points := ⟨fun _ _ => none, id, id⟩
  certificateKey := fun _ => some (.ed25519, .ecc SEED)

def smallPlan : ImportPlan :=
  ⟨⟨.ed25519 SEED, some SMALL_CERT⟩, .signature, .yubico, .default, .default⟩

/-- The slot's key is the imported one (`true`) or the old one. -/
def importedMark (_ : UInt8) (_ : List UInt8) : Bool := true

def oldSlot : SlotContent Bool := ⟨false, some [0x01]⟩

def certSlot : SlotContent Bool := ⟨false, some (encodeCertificate SMALL_CERT .uncompressed)⟩

def putSmall : Command := certCommand .signature SMALL_CERT .uncompressed

def importSmall : Command := importCommand .signature 0xE0 (pushTlv [7] SEED)

def deleteCert : Command := putCommand Slot.signature.certObjectTag []

def REFUSED : Except PcscError (List UInt8 × UInt16) := .ok ([], 0x6A80)

def keyRefused : TransportError := .apdu KEY_LABEL 0x6A 0x80

theorem smallPlan_fits : ∀ der, smallPlan.entry.certificate = some der →
    CertFits smallLibs.gzipMember smallPlan.slot der .auto := by
  intro der hder
  cases hder
  exact ⟨fun _ => by decide, fun _ => by decide⟩

theorem effect_putSmall :
    SlotEffect importedMark .signature oldSlot putSmall [] certSlot :=
  .cert oldSlot (encodeCertificate SMALL_CERT .uncompressed) []

theorem effect_importSmall : SlotEffect importedMark .signature certSlot importSmall []
    { certSlot with key := true } := .key certSlot 0xE0 (pushTlv [7] SEED) []

theorem effect_deleteCert : SlotEffect importedMark .signature certSlot deleteCert []
    ⟨false, none⟩ := .cert certSlot [] []

/-- The certificate is stored, the key refused, and the delete is carried out unanswered. -/
theorem runs_lostCleanup : ∃ log, Runs (importStep importedMark .signature)
    ⟨none, [], [], oldSlot⟩ (runImportWith smallLibs smallPlan .auto none) log
    (.error (.keyNotWritten .signature keyRefused false))
    ⟨none, [putSmall, importSmall, deleteCert], [putSmall, deleteCert], ⟨false, none⟩⟩ := by
  apply Exists.intro
  apply Runs.ask (a := (0xE0 : UInt8)) (t := ⟨none, [], [], oldSlot⟩)
  · rfl
  apply Runs.ask (a := (⟨none⟩ : LongLink)) (t := ⟨none, [], [], oldSlot⟩)
  · rfl
  apply Runs.ask (a := ACCEPTED) (t := ⟨none, [putSmall], [putSmall], certSlot⟩)
  · exact ⟨⟨rfl, rfl, effect_putSmall, rfl⟩, nofun⟩
  apply Runs.ask (a := (⟨none⟩ : LongLink)) (t := ⟨none, [putSmall], [putSmall], certSlot⟩)
  · rfl
  apply Runs.ask (a := REFUSED) (t := ⟨none, [putSmall, importSmall], [putSmall], certSlot⟩)
  · exact ⟨⟨rfl, rfl, rfl, rfl⟩, nofun⟩
  apply Runs.ask (a := READER_FAILED) (t := ⟨none, [putSmall, importSmall, deleteCert],
    [putSmall, deleteCert], ⟨false, none⟩⟩)
  · refine ⟨⟨rfl, rfl, .inr ⟨[], effect_deleteCert, rfl⟩⟩, fun c e hc _ => ?_⟩
    cases hc
    exact ⟨[], effect_deleteCert, rfl⟩
  · exact .done

/-- **A clean-up that was carried out is reported as a certificate left behind.** -/
theorem carried_out_cleanup_is_denied : ∃ log t, Runs (importStep importedMark .signature)
    ⟨none, [], [], oldSlot⟩ (runImportWith smallLibs smallPlan .auto none) log
    (.error (.keyNotWritten .signature keyRefused false)) t ∧ t.slots.cert = none ∧
    ¬ ImportHolds importedMark smallLibs smallPlan none log
      (.error (.keyNotWritten .signature keyRefused false)) oldSlot t.slots := by
  obtain ⟨log, hrun⟩ := runs_lostCleanup
  refine ⟨log, _, hrun, rfl, fun hholds => ?_⟩
  obtain ⟨-, -, -, -, htells⟩ := hholds.tells
  exact not_ownCertificate rfl rfl (htells rfl).2

/-- Everything is answered `9000`, and the self-test passes. -/
theorem runs_smallImport : ∃ log, Runs (importStep importedMark .signature)
    ⟨none, [], [], oldSlot⟩ (runImportWith smallLibs smallPlan .auto none) log
    (.ok ⟨.signature, some ⟨false, 2, false⟩, [(.sign, .passed)]⟩)
    ⟨none, [putSmall, importSmall], [putSmall, importSmall], { certSlot with key := true }⟩ := by
  apply Exists.intro
  apply Runs.ask (a := (0xE0 : UInt8)) (t := ⟨none, [], [], oldSlot⟩)
  · rfl
  apply Runs.ask (a := (⟨none⟩ : LongLink)) (t := ⟨none, [], [], oldSlot⟩)
  · rfl
  apply Runs.ask (a := ACCEPTED) (t := ⟨none, [putSmall], [putSmall], certSlot⟩)
  · exact ⟨⟨rfl, rfl, effect_putSmall, rfl⟩, nofun⟩
  apply Runs.ask (a := (⟨none⟩ : LongLink)) (t := ⟨none, [putSmall], [putSmall], certSlot⟩)
  · rfl
  apply Runs.ask (a := ACCEPTED) (t := ⟨none, [putSmall, importSmall],
    [putSmall, importSmall], { certSlot with key := true }⟩)
  · exact ⟨⟨rfl, rfl, effect_importSmall, rfl⟩, nofun⟩
  apply Runs.ask (a := (none : Option (PinPolicy × TouchPolicy))) (t := ⟨none,
    [putSmall, importSmall], [putSmall, importSmall], { certSlot with key := true }⟩)
  · rfl
  apply Runs.ask (a := (.ok [(.sign, .passed)] : Tried (List (SelfTest × Outcome))))
    (t := ⟨none, [putSmall, importSmall], [putSmall, importSmall],
      { certSlot with key := true }⟩)
  · rfl
  · exact .done

theorem run_import_holds_iff_smallImport : ∃ log, ImportHolds importedMark smallLibs smallPlan
    none log (.ok ⟨.signature, some ⟨false, 2, false⟩, [(.sign, .passed)]⟩) oldSlot
    { certSlot with key := true } ↔ ¬ LostCleanup smallPlan log :=
  have ⟨log, hrun⟩ := runs_smallImport
  ⟨log, run_import_holds_iff smallLibs smallPlan .auto none rfl smallPlan_fits hrun⟩

end Keyroost.Piv
