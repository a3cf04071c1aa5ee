import Keyroost.Piv.ImportRun
import Keyroost.Piv.LongWriteHonest

/-!
# A slot with a key and a certificate

What the commands of an import do to a slot, and what each of the import's card operations says
about it. The slot is a card of `WriteCard` whose effects are those of a PIV slot (`SlotEffect`):
one command writes the key, one the certificate object, one reads it, and what does not concern the
slot leaves it alone.

For each operation that `ImportRun` calls there is one lemma on what the slot holds when it ends,
for each of its results: deleting a certificate, storing one, writing a key. That a command tells
what was written rests on its bytes (`putCommand_inj`).
-/

namespace Keyroost.Piv

open Transport Dialogue

variable {κ : Type}

/-! ### The slot -/

/-- A slot's key, and the value of its certificate object unless that is empty. -/
structure SlotContent (κ : Type) where
  key : κ
  cert : Option (List UInt8)

/-- The GET DATA of an object. -/
def getCommand (tag : List UInt8) : Command :=
  ⟨0x00, INS_GET_DATA, GET_DATA_P1, GET_DATA_P2, [TAG_OBJECT_SELECTOR, tag.length.toUInt8] ++ tag⟩

/-- The commands that write a slot or read its certificate. -/
def ConcernsSlot (slot : Slot) (c : Command) : Prop :=
  (∃ algId body, c = importCommand slot algId body) ∨
    (∃ value, c = putCommand slot.certObjectTag value) ∨ c = getCommand slot.certObjectTag

/-- What a command carried out does to a slot. `imported` is the key an IMPORT ASYMMETRIC KEY
leaves. -/
inductive SlotEffect (imported : UInt8 → List UInt8 → κ) (slot : Slot) :
    Effect (SlotContent κ)
  | key (x : SlotContent κ) (algId : UInt8) (body data : List UInt8) :
      SlotEffect imported slot x (importCommand slot algId body) data
        { x with key := imported algId body }
  | cert (x : SlotContent κ) (value data : List UInt8) :
      SlotEffect imported slot x (putCommand slot.certObjectTag value) data
        { x with cert := if value = [] then none else some value }
  | read (x : SlotContent κ) :
      SlotEffect imported slot x (getCommand slot.certObjectTag)
        (pushTlv [TAG_DATA_TEMPLATE] (x.cert.getD [])) x
  | other (x : SlotContent κ) (c : Command) (data : List UInt8) : ¬ ConcernsSlot slot c →
      SlotEffect imported slot x c data x

theorem length_pushBerLen_add_inj {a b : Nat}
    (h : (pushBerLen a).length + a = (pushBerLen b).length + b) : a = b := by
  have hlen : ∀ n, (pushBerLen n).length = if n < 0x80 then 1 else if n ≤ 0xFF then 2 else 3 := by
    intro n
    unfold pushBerLen
    split
    · rfl
    · split <;> rfl
  rw [hlen, hlen] at h
  split at h <;> split at h <;> grind

theorem putCommand_inj {tag value value' : List UInt8}
    (h : putCommand tag value = putCommand tag value') : value = value' := by
  have hdata : putDataBody tag value = putDataBody tag value' := congrArg Command.data h
  have htlv := List.append_cancel_left hdata
  rw [pushTlv, pushTlv, List.append_assoc, List.append_assoc] at htlv
  have hbody := List.append_cancel_left htlv
  have hlen := congrArg List.length hbody
  rw [List.length_append, List.length_append] at hlen
  rw [length_pushBerLen_add_inj hlen] at hbody
  exact List.append_cancel_left hbody

variable {imported : UInt8 → List UInt8 → κ} {slot : Slot} {x y : SlotContent κ}
  {data : List UInt8}

theorem slotEffect_key {algId : UInt8} {body : List UInt8}
    (h : SlotEffect imported slot x (importCommand slot algId body) data y) :
    y = { x with key := imported algId body } := by
  generalize hc : importCommand slot algId body = c at h
  cases h with
  | key _ algId' body' _ =>
      cases hc
      rfl
  | cert _ value _ => cases congrArg Command.ins hc
  | read => cases congrArg Command.ins hc
  | other _ _ _ hother => exact absurd (.inl ⟨algId, body, hc.symm⟩) hother

theorem slotEffect_cert {value : List UInt8}
    (h : SlotEffect imported slot x (putCommand slot.certObjectTag value) data y) :
    y = { x with cert := if value = [] then none else some value } := by
  generalize hc : putCommand slot.certObjectTag value = c at h
  cases h with
  | key _ algId' body' _ => cases congrArg Command.ins hc
  | cert _ value' _ => rw [putCommand_inj hc]
  | read => cases congrArg Command.ins hc
  | other _ _ _ hother => exact absurd (.inr (.inl ⟨value, hc.symm⟩)) hother

theorem slotEffect_read
    (h : SlotEffect imported slot x (getCommand slot.certObjectTag) data y) :
    y = x ∧ data = pushTlv [TAG_DATA_TEMPLATE] (x.cert.getD []) := by
  generalize hc : getCommand slot.certObjectTag = c at h
  cases h with
  | key _ algId' body' _ => cases congrArg Command.ins hc
  | cert _ value' _ => cases congrArg Command.ins hc
  | read => exact ⟨rfl, rfl⟩
  | other _ _ _ hother => exact absurd (.inr (.inr hc.symm)) hother

theorem slotEffect_other {c : Command} (hc : ¬ ConcernsSlot slot c)
    (h : SlotEffect imported slot x c data y) : y = x := by
  cases h with
  | key _ algId' body' _ => exact absurd (.inl ⟨algId', body', rfl⟩) hc
  | cert _ value' _ => exact absurd (.inr (.inl ⟨value', rfl⟩)) hc
  | read => rfl
  | other => rfl

/-! ### The device of an import -/

/-- Everything but an APDU leaves the card as it is. -/
def importStep (imported : UInt8 → List UInt8 → κ) (slot : Slot) :
    Device ImportAnswer (Card (SlotContent κ)) := fun s q =>
  match q with
  | .transmit apdu => fun reply t => lossyStep (SlotEffect imported slot) s apdu reply t
  | .algorithmId _ => fun _ t => t = s
  | .longLink => fun _ t => t = s
  | .slotPolicy _ => fun _ t => t = s
  | .selfTest .. => fun _ t => t = s

theorem sends_transmit : Sends (importStep imported slot) (SlotEffect imported slot) transmit :=
  fun _ _ _ h reply t hstep => h reply t hstep.1

theorem accounted_importStep {start s t : Card (SlotContent κ)} {q : ImportAsk}
    {a : ImportAnswer q} (hstep : importStep imported slot s q a t)
    (h : Accounted (SlotEffect imported slot) start s) :
    Accounted (SlotEffect imported slot) start t := by
  cases q with
  | transmit apdu => exact h.cardStep hstep.1
  | _ => exact hstep ▸ h

theorem runs_accounted {R : Type} {p : ImportTalk R} {s t : Card (SlotContent κ)}
    {log : List (Asked ImportAnswer)} {r : R} (h : Runs (importStep imported slot) s p log r t) :
    Accounted (SlotEffect imported slot) s t :=
  always_iff.mp (Always.keeps (J := Accounted (SlotEffect imported slot) s)
    (fun _ _ _ _ => accounted_importStep) (.refl _ s)) log r t h

/-! ### Certificates and keys written -/

theorem encodeCertificate_ne_nil (payload : List UInt8) (info : CertInfo) :
    encodeCertificate payload info ≠ [] := nofun

theorem follows_certs {cs : List Command} (h : Follows (SlotEffect imported slot) x cs y)
    (hours : ∀ c ∈ cs, ∃ payload info, c = certCommand slot payload info) :
    y.key = x.key ∧ (cs = [] → y = x) ∧ ∀ payload info,
      cs.getLast? = some (certCommand slot payload info) →
        y.cert = some (encodeCertificate payload info) := by
  induction h with
  | nil => exact ⟨rfl, fun _ => rfl, nofun⟩
  | snoc _ heffect ih =>
      obtain ⟨hkey, -, -⟩ := ih fun c hc => hours c (List.mem_append_left _ hc)
      obtain ⟨payload, info, rfl⟩ := hours _ (List.mem_append_right _ List.mem_cons_self)
      have hz := slotEffect_cert heffect
      rw [if_neg (encodeCertificate_ne_nil payload info)] at hz
      subst hz
      refine ⟨hkey, fun hnil => absurd hnil (List.append_ne_nil_of_right_ne_nil _ nofun), ?_⟩
      intro payload' info' hlast
      rw [List.getLast?_concat] at hlast
      exact congrArg some (putCommand_inj (Option.some.inj hlast))

theorem follows_keys {cs : List Command} {algId : UInt8} {body : List UInt8}
    (h : Follows (SlotEffect imported slot) x cs y)
    (hours : ∀ c ∈ cs, c = importCommand slot algId body) :
    y.cert = x.cert ∧ (cs = [] → y = x) ∧ (cs ≠ [] → y.key = imported algId body) := by
  induction h with
  | nil => exact ⟨rfl, fun _ => rfl, fun h => absurd rfl h⟩
  | snoc _ heffect ih =>
      obtain ⟨hcert, -, -⟩ := ih fun c hc => hours c (List.mem_append_left _ hc)
      rw [hours _ (List.mem_append_right _ List.mem_cons_self)] at heffect
      have hz := slotEffect_key heffect
      subst hz
      exact ⟨hcert, fun hnil => absurd hnil (List.append_ne_nil_of_right_ne_nil _ nofun),
        fun _ => rfl⟩

/-! ### One exchange -/

abbrev ImportLine : Type := Asked ImportAnswer

variable {s t : Card (SlotContent κ)} {log : List ImportLine}

theorem runs_transmit {apdu : List UInt8} {c : Command}
    (hread : readApdu apdu = some (false, c)) (hidle : s.chain = none) {r : Reply}
    (h : Runs (importStep imported slot) s (transmit apdu) log r t) :
    t.chain = none ∧ ((∃ data sw, r = .ok (data, sw) ∧
        log = [⟨.transmit apdu, .ok (data, sw)⟩] ∧
        if sw = SW_OK then CarriedOut (SlotEffect imported slot) s c data t else Untouched s t) ∨
      ∃ e, r = .error (.pcsc e) ∧ log = [⟨.transmit apdu, .error e⟩] ∧
        ∃ data, CarriedOut (SlotEffect imported slot) s c data t) := by
  obtain ⟨reply, rest, t', rfl, ⟨hstep, hloss⟩, hdone⟩ := runs_ask.mp h
  obtain ⟨rfl, rfl, rfl⟩ := runs_done.mp hdone
  rw [cardStep, hread] at hstep
  rw [hidle] at hstep hloss
  refine ⟨hstep.idle, ?_⟩
  rcases reply with e | ⟨data, sw⟩
  · exact .inr ⟨e, rfl, rfl, hloss c e hread rfl⟩
  · exact .inl ⟨data, sw, rfl, rfl, hstep.acts⟩

/-- A delete of the certificate, as its result and as its one exchange. The key is never touched;
after an answer that is lost the certificate is gone all the same. -/
structure ClearOutcome (slot : Slot) (s t : Card (SlotContent κ)) (r : Tried Unit)
    (log : List ImportLine) : Prop where
  idle : t.chain = none
  key : t.slots.key = s.slots.key
  cleared : r = .ok () → t.slots.cert = none
  refused : ∀ e, r = .error e → cardRefused e = true → t.slots = s.slots
  lost : ∀ e, r = .error e → cardRefused e = false → t.slots.cert = none
  line : ∃ a, log = [⟨.transmit (clearCertificate slot), a⟩] ∧
    ((∃ p, a = .error p) ↔ ∃ e, r = .error e ∧ cardRefused e = false)

theorem readApdu_clearCertificate (slot : Slot) :
    readApdu (clearCertificate slot) = some (false, putCommand slot.certObjectTag []) := by
  apply readApdu_buildApduExt
  cases slot <;> exact Nat.le_of_ble_eq_true rfl

theorem runs_clearCertificateOf (hidle : s.chain = none) {r : Tried Unit}
    (h : Runs (importStep imported slot) s (clearCertificateOf slot) log r t) :
    ClearOutcome slot s t r log := by
  have hcleared : ∀ {data}, CarriedOut (SlotEffect imported slot) s
      (putCommand slot.certObjectTag []) data t → t.slots = { s.slots with cert := none } :=
    fun hcarried => slotEffect_cert hcarried.1
  rcases runs_andThen.mp h with ⟨e, rfl, hsend⟩ | ⟨first, ⟨data, sw⟩, t', rest, rfl, hsend, hdone⟩
  · obtain ⟨hnone, ⟨data, sw, hr, -⟩ | ⟨p, hr, rfl, data, hcarried⟩⟩ :=
      runs_transmit (readApdu_clearCertificate slot) hidle hsend
    · cases hr
    · cases hr
      have hslots := hcleared hcarried
      refine ⟨hnone, by rw [hslots], nofun, fun e he hcard => ?_, fun _ _ _ => by rw [hslots],
        _, rfl, fun _ => ⟨_, rfl, rfl⟩, fun _ => ⟨p, rfl⟩⟩
      cases he
      cases hcard
  · obtain ⟨rfl, rfl, rfl⟩ := runs_done.mp hdone
    obtain ⟨hnone, ⟨data', sw', hr, rfl, hacts⟩ | ⟨p, hr, -⟩⟩ :=
      runs_transmit (readApdu_clearCertificate slot) hidle hsend
    · cases hr
      rw [List.append_nil]
      split at hacts
      · next hsw =>
          have hslots := hcleared hacts
          have hok : okOrWrite "piv clear certificate" sw = .ok () := okOrWrite_eq_ok.mpr hsw
          rw [hok]
          refine ⟨hnone, by rw [hslots], fun _ => by rw [hslots], nofun, nofun, _, rfl, ?_, ?_⟩
          · rintro ⟨p, hp⟩
            cases hp
          · rintro ⟨e, he, -⟩
            cases he
      · next hsw =>
          obtain ⟨e, he, hcard⟩ := okOrWrite_refused "piv clear certificate" hsw
          rw [he]
          refine ⟨hnone, by rw [hacts.1], nofun, fun _ _ _ => hacts.1, ?_, _, rfl, ?_, ?_⟩
          · intro e' he' hcard'
            rw [← Except.error.inj he', hcard] at hcard'
            cases hcard'
          · rintro ⟨p, hp⟩
            cases hp
          · rintro ⟨e', he', hcard'⟩
            rw [← Except.error.inj he', hcard] at hcard'
            cases hcard'
    · cases hr

/-! ### A certificate stored -/

/-- The certificate an object's value is read as. -/
def certificateIn (libs : Libraries) (value : List UInt8) :
    Except CertUnreadable (Option (List UInt8)) :=
  (certObjectDecode libs.gunzip (pushTlv [TAG_DATA_TEMPLATE] value)).map
    (Option.map StoredCert.der)

def HoldsCertificate (libs : Libraries) (der : List UInt8) (x : SlotContent κ) : Prop :=
  ∃ value, x.cert = some value ∧ certificateIn libs value = .ok (some der)

theorem length_encode_le (slot : Slot) (payload : List UInt8) (info : CertInfo) :
    payload.length ≤ (encodeCertificate payload info).length ∧
      (encodeCertificate payload info).length ≤ (certCommand slot payload info).data.length := by
  constructor
  · simp only [encodeCertificate, pushTlv, List.length_append]
    omega
  · simp only [certCommand, putCommand, putDataBody, pushTlv, List.length_append]
    omega

theorem certificateIn_encode (libs : Libraries) (slot : Slot) {der : List UInt8}
    (hfits : (certCommand slot der .uncompressed).data.length ≤ 0xFFFF) :
    certificateIn libs (encodeCertificate der .uncompressed) = .ok (some der) := by
  obtain ⟨hder, hvalue⟩ := length_encode_le slot der .uncompressed
  rw [certificateIn, certObjectDecode, TAG_DATA_TEMPLATE,
    unwrapDataObject_pushTlv (Nat.le_trans hvalue hfits), Option.bind_some,
    certObjectParts_encodeCertificate (Nat.le_trans hder (Nat.le_trans hvalue hfits))]
  rfl

/-- A write of the certificate, in either form. -/
def Written (libs : Libraries) (der : List UInt8) (x : SlotContent κ) : Prop :=
  x.cert = some (encodeCertificate der .uncompressed) ∨
    x.cert = some (encodeCertificate (libs.gzipMember der) .gzip)

structure StoreSlotOutcome (libs : Libraries) (der : List UInt8) (s t : Card (SlotContent κ))
    (r : Tried CertImport) : Prop where
  idle : t.chain = none
  key : t.slots.key = s.slots.key
  stored : ∀ a, r = .ok a → HoldsCertificate libs der t.slots
  refused : ∀ e, r = .error e → cardRefused e = true → t.slots = s.slots
  either : t.slots = s.slots ∨ Written libs der t.slots

theorem runs_sendCertificate {libs : Libraries} {link : LongLink} {der : List UInt8}
    {compression : CertCompression} (hfits : CertFits libs.gzipMember slot der compression)
    (hidle : s.chain = none)
    {r : Tried CertImport} (h : Runs (importStep imported slot) s
      (sendCertificate transmit libs.gzipMember link slot der compression) log r t) :
    t.chain = none ∧ t.slots.key = s.slots.key ∧
      (∀ a, r = .ok a → t.slots.cert = some (encodeCertificate (storedPayload der
          (libs.gzipMember der) a) (if a.compressed then .gzip else .uncompressed)) ∧
        (storedCommand slot der (libs.gzipMember der) a).data.length ≤ 0xFFFF) ∧
      (∀ e, r = .error e → cardRefused e = true → t.slots = s.slots) ∧
      (t.slots = s.slots ∨ Written libs der t.slots) := by
  obtain ⟨hstored, cs, ss, hreport⟩ := always_iff.mp (always_sendCertificate sends_transmit
    libs.gzipMember link slot der hfits hidle) log r t h
  obtain ⟨hkey, hnone, hlast⟩ := follows_certs
    ((runs_accounted h).follows hreport.applied) fun c hc => by
      rcases hreport.ours c hc with rfl | rfl
      · exact ⟨_, _, rfl⟩
      · exact ⟨_, _, rfl⟩
  refine ⟨hreport.idle, hkey, fun a ha =>
    ⟨hlast _ _ (hreport.honest.stored a ha), (hstored a ha).2⟩,
    fun e he hcard => hnone (hreport.honest.refused e he hcard), ?_⟩
  rcases List.eq_nil_or_concat cs with hnil | ⟨before, c, hcs⟩
  · exact .inl (hnone hnil)
  · have hmem : c ∈ cs := by
      rw [hcs, List.concat_eq_append]
      exact List.mem_append_right _ List.mem_cons_self
    have hget : cs.getLast? = some c := by
      rw [hcs, List.concat_eq_append]
      exact List.getLast?_concat
    right
    rcases hreport.ours c hmem with rfl | rfl
    · exact .inl (hlast _ _ hget)
    · exact .inr (hlast _ _ hget)

theorem readApdu_getData (slot : Slot) :
    readApdu (getData slot.certObjectTag) = some (false, getCommand slot.certObjectTag) := by
  cases slot <;> rfl

/-- A read of the certificate leaves the slot as it is, and tells what it holds or is an error
that no refused command gives. -/
theorem runs_readCertificate {libs : Libraries} (hidle : s.chain = none)
    {r : Tried (Option (List UInt8))}
    (h : Runs (importStep imported slot) s (readCertificate libs slot) log r t) :
    t.chain = none ∧ t.slots = s.slots ∧ (∀ e, r = .error e → cardRefused e = false) ∧
      ∀ der, r = .ok (some der) → certificateIn libs (s.slots.cert.getD []) = .ok (some der) := by
  have hread : ∀ {data}, CarriedOut (SlotEffect imported slot) s
      (getCommand slot.certObjectTag) data t →
      t.slots = s.slots ∧ data = pushTlv [TAG_DATA_TEMPLATE] (s.slots.cert.getD []) :=
    fun hcarried => slotEffect_read hcarried.1
  rcases runs_andThen.mp h with ⟨e, rfl, hsend⟩ | ⟨first, ⟨data, sw⟩, t', rest, rfl, hsend, hdone⟩
  · obtain ⟨hnone, ⟨data, sw, hr, -⟩ | ⟨p, hr, -, data, hcarried⟩⟩ :=
      runs_transmit (readApdu_getData slot) hidle hsend
    · cases hr
    · cases hr
      refine ⟨hnone, (hread hcarried).1, fun e he => ?_, nofun⟩
      cases he
      rfl
  · obtain ⟨rfl, rfl, rfl⟩ := runs_done.mp hdone
    obtain ⟨hnone, ⟨data', sw', hr, -, hacts⟩ | ⟨p, hr, -⟩⟩ :=
      runs_transmit (readApdu_getData slot) hidle hsend
    · cases hr
      refine ⟨hnone, ?_, fun e he => ?_, fun der hder => ?_⟩
      · split at hacts
        · exact (hread hacts).1
        · exact hacts.1
      · generalize (if sw = SW_OK then certObjectDecode libs.gunzip data else .ok none) = cert
          at he
        rcases cert with reason | cert
        · cases he
          rfl
        · cases he
      · split at hder
        · next hsw =>
            rw [if_pos hsw] at hacts
            rw [(hread hacts).2] at hder
            rw [certificateIn]
            revert hder
            unfold certResult
            generalize certObjectDecode libs.gunzip _ = cert
            rcases cert with reason | cert
            · exact nofun
            · intro h
              cases cert with
              | none => cases h
              | some stored =>
                  cases h
                  rfl
        · cases hder
    · cases hr

theorem checkReadback_ok {der : List UInt8} {back : Tried (Option (List UInt8))}
    (h : checkReadback slot der back = .ok ()) : back = .ok (some der) := by
  unfold checkReadback at h
  split at h
  · next got =>
      split at h
      · next hgot => rw [hgot]
      · cases h
  · cases h
  · cases h

theorem checkReadback_error {der : List UInt8} {back : Tried (Option (List UInt8))}
    (hback : ∀ e, back = .error e → cardRefused e = false) {e : TransportError}
    (h : checkReadback slot der back = .error e) : cardRefused e = false := by
  unfold checkReadback at h
  split at h
  · split at h
    · cases h
    · cases h
      rfl
  · cases h
    rfl
  · cases h
    exact hback _ rfl

theorem runs_storeCertificateUnchecked {libs : Libraries} {der : List UInt8}
    {compression : CertCompression} (hfits : CertFits libs.gzipMember slot der compression)
    (hidle : s.chain = none)
    {r : Tried CertImport} (h : Runs (importStep imported slot) s
      (storeCertificateUnchecked libs slot der compression) log r t) :
    StoreSlotOutcome libs der s t r := by
  obtain ⟨link, log, s', rfl, rfl, hnext⟩ := runs_ask.mp h
  rcases runs_andThen.mp hnext with ⟨e, rfl, hsend⟩ | ⟨first, a, u, rest, rfl, hsend, hrest⟩
  · obtain ⟨hnone, hkey, -, hrefused, heither⟩ := runs_sendCertificate hfits hidle hsend
    exact ⟨hnone, hkey, nofun, hrefused, heither⟩
  · obtain ⟨hnone, hkey, hstored, -, heither⟩ := runs_sendCertificate hfits hidle hsend
    obtain ⟨hcert, hsize⟩ := hstored a rfl
    by_cases hcompressed : a.compressed = true
    · rw [if_pos hcompressed] at hrest
      obtain ⟨first, back, v, rest, rfl, hback, hdone⟩ := runs_bind.mp hrest
      obtain ⟨rfl, rfl, rfl⟩ := runs_done.mp hdone
      obtain ⟨hnone, hslots, herror, hread⟩ := runs_readCertificate hnone hback
      cases hcheck : checkReadback slot der back with
      | error e =>
          refine ⟨hnone, by rw [hslots, hkey], nofun, fun e' he hcard => ?_, hslots ▸ heither⟩
          rw [← Except.error.inj he, checkReadback_error herror hcheck] at hcard
          cases hcard
      | ok _ =>
          have hown := hread der (checkReadback_ok hcheck)
          rw [hcert, Option.getD_some] at hown
          exact ⟨hnone, by rw [hslots, hkey], fun _ _ => ⟨_, hslots ▸ hcert, hown⟩, nofun,
            hslots ▸ heither⟩
    · rw [if_neg hcompressed] at hrest
      obtain ⟨rfl, rfl, rfl⟩ := runs_done.mp hrest
      refine ⟨hnone, hkey, fun _ _ => ⟨_, hcert, ?_⟩, nofun, heither⟩
      rw [storedCommand, storedPayload, if_neg hcompressed, if_neg hcompressed] at hsize
      rw [storedPayload, if_neg hcompressed, if_neg hcompressed]
      exact certificateIn_encode libs slot hsize

/-! ### A key written, a PIN verified -/

structure KeySlotOutcome (imported : UInt8 → List UInt8 → κ) (algId : UInt8)
    (body : List UInt8) (s t : Card (SlotContent κ)) (r : Tried Unit) : Prop where
  idle : t.chain = none
  cert : t.slots.cert = s.slots.cert
  written : r = .ok () → t.slots.key = imported algId body
  refused : ∀ e, r = .error e → cardRefused e = true → t.slots = s.slots
  either : t.slots.key = s.slots.key ∨ t.slots.key = imported algId body

theorem runs_sendImportKey {link : LongLink} {algId : UInt8} {body : List UInt8}
    (hfits : body.length ≤ 0xFFFF) (hidle : s.chain = none) {r : Tried Unit}
    (h : Runs (importStep imported slot) s (sendImportKey transmit link slot algId body) log r
      t) :
    KeySlotOutcome imported algId body s t r := by
  obtain ⟨cs, ss, hreport⟩ := always_iff.mp (always_sendImportKey sends_transmit link slot
    algId hfits hidle) log r t h
  obtain ⟨hcert, hnone, hsome⟩ := follows_keys
    ((runs_accounted h).follows hreport.applied) hreport.ours
  refine ⟨hreport.idle, hcert, ?_, fun e he hcard => hnone (hreport.honest.refused e he hcard),
    ?_⟩
  · rintro rfl
    refine hsome fun hnil => ?_
    have hlast := hreport.honest.stored () rfl
    rw [hnil] at hlast
    cases hlast
  · by_cases hnil : cs = []
    · exact .inl (congrArg SlotContent.key (hnone hnil))
    · exact .inr (hsome hnil)

theorem runs_writeImportKey {algId : UInt8} {body : List UInt8} (hfits : body.length ≤ 0xFFFF)
    (hidle : s.chain = none) {r : Tried Unit}
    (h : Runs (importStep imported slot) s (writeImportKey slot algId body) log r t) :
    KeySlotOutcome imported algId body s t r := by
  obtain ⟨link, log, s', rfl, rfl, hnext⟩ := runs_ask.mp h
  rcases runs_andThen.mp hnext with ⟨e, rfl, hsend⟩ | ⟨first, ⟨⟩, u, rest, rfl, hsend, hrest⟩
  · exact runs_sendImportKey hfits hidle hsend
  · obtain ⟨policy, rest, u', rfl, rfl, hdone⟩ := runs_ask.mp hrest
    obtain ⟨rfl, rfl, rfl⟩ := runs_done.mp hdone
    exact runs_sendImportKey hfits hidle hsend

theorem readApdu_verifyPin {pin apdu : List UInt8} (h : verifyPin pin = .ok apdu) :
    ∃ data, readApdu apdu = some (false, ⟨0x00, INS_VERIFY, 0x00, PIN_REF_APPLICATION, data⟩) ∧
      apdu[1]? = some INS_VERIFY := by
  obtain ⟨padded, -, hapdu⟩ := Checks.bind_eq_ok.mp h
  cases hapdu
  exact ⟨_, rfl, rfl⟩

theorem runs_verifyPinWith {pin : List UInt8} (hidle : s.chain = none) {r : Tried Unit}
    (h : Runs (importStep imported slot) s (verifyPinWith pin) log r t) :
    t.chain = none ∧ t.slots = s.slots := by
  have hother : ∀ data, ¬ ConcernsSlot slot
      ⟨0x00, INS_VERIFY, 0x00, PIN_REF_APPLICATION, data⟩ := by
    rintro data (⟨_, _, hc⟩ | ⟨_, hc⟩ | hc)
    · cases congrArg Command.ins hc
    · cases congrArg Command.ins hc
    · cases congrArg Command.ins hc
  unfold verifyPinWith at h
  split at h
  · obtain ⟨rfl, rfl, rfl⟩ := runs_done.mp h
    exact ⟨hidle, rfl⟩
  · next apdu hapdu =>
      obtain ⟨data, hread, -⟩ := readApdu_verifyPin hapdu
      have hsame : ∀ {log} {r : Reply} {u}, Runs (importStep imported slot) s (transmit apdu) log
          r u → u.chain = none ∧ u.slots = s.slots := by
        intro log r u hsend
        obtain ⟨hnone, ⟨_, _, -, -, hacts⟩ | ⟨_, -, -, _, hcarried⟩⟩ :=
          runs_transmit hread hidle hsend
        · refine ⟨hnone, ?_⟩
          split at hacts
          · exact slotEffect_other (hother data) hacts.1
          · exact hacts.1
        · exact ⟨hnone, slotEffect_other (hother data) hcarried.1⟩
      rcases runs_andThen.mp h with ⟨e, rfl, hsend⟩ | ⟨first, a, u, rest, rfl, hsend, hdone⟩
      · exact hsame hsend
      · obtain ⟨rfl, rfl, rfl⟩ := runs_done.mp hdone
        exact hsame hsend

end Keyroost.Piv
