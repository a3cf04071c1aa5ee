import Keyroost.Piv.SlotDevice

/-!
# The caches of a session agree with the card

What a session remembers of a slot against what the card holds there, over every run of its
operations. A run is undisturbed if no answer is lost or refused that a cache would have needed, and
if no key is moved whose entries are not cached.

`Caches.Inv` is the invariant, slot by slot, for the key with its policy and for the certificate.
Every function of `SlotSession` has a lemma that keeps it, in the order of the source: those that
read, which may only fill entries with what the card said, those that write, which drop entries, and
the move. `Undisturbed` is a condition on the conversation, and each lemma uses only its own part of
it. `ensures_run` is one operation and `caches_agree` any number of them.

`moved_unread_disagrees` is the move that the condition leaves out, and `moved_read_agrees` the same
move after a read.
-/

namespace Keyroost.Piv

open Transport Dialogue

/-! ### What is remembered of one slot -/

structure KeyView where
  pubkey : Option (Option (KeyAlg × PublicKey))
  noKey : Bool
  policy : Option (Option (PinPolicy × TouchPolicy))

def Caches.keyView (c : Caches) (slot : Slot) : KeyView :=
  { pubkey := c.pubkey.entries slot.keyRef
    noKey := c.pubkey.noKey slot.keyRef
    policy := c.policy.entries slot.keyRef }

def Caches.certView (c : Caches) (slot : Slot) : Option CertRead := c.cert.entries slot.keyRef

/-- Nothing is cached of the slot's key. -/
def Caches.KeyUncached (c : Caches) (slot : Slot) : Prop :=
  (c.keyView slot).pubkey = none ∧ (c.keyView slot).policy = none

variable {applet : Applet} {libs : SlotLibraries} (fw : Firmware applet libs)

/-- **What the caches answer is what the card holds.** A key is there under the algorithm and
the public key cached for it, and is not there where the cache says so; where the cache names no
key the card names none; the policy is the one the card reports; the certificate is the one in
the slot. -/
structure Caches.Agree (c : Caches) (s : Slots) : Prop where
  key : ∀ slot kv, c.pubkey.get slot.keyRef = some (some kv) →
    ∃ k, (s slot).key = some k ∧ k.Named applet kv
  unnamed : ∀ slot, c.pubkey.get slot.keyRef = some none → fw.key (s slot).key = none
  noKey : ∀ slot, c.pubkey.presence slot.keyRef = some .noKey → (s slot).key = none
  policy : ∀ slot p, c.policy.get slot.keyRef = some p → p = fw.slotPolicy (s slot).key
  policyHeld : ∀ slot p, c.policy.get slot.keyRef = some (some p) →
    ∃ k, (s slot).key = some k ∧ k.policy = p
  cert : ∀ slot cert, c.cert.get slot.keyRef = some cert →
    cert = heldCertificate libs (s slot).cert

/-! ### The invariant -/

/-- What the caches say of one slot's key and policy, and what the card holds there. A slot of whose
key only "none" is cached was asked for its policy. -/
structure KeyInv (v : KeyView) (x : Option SlotKey) : Prop where
  named : ∀ kv, v.pubkey = some (some kv) → ∃ k, x = some k ∧ k.Named applet kv
  unnamed : v.pubkey = some none → fw.key x = none
  noKey : v.pubkey = some none → v.noKey = true → x = none ∧ applet.metadataSent = true
  policy : ∀ p, v.policy = some p → p = fw.slotPolicy x
  asked : v.pubkey = some none → v.policy = none → fw.metadataPolicy x = none

def CertInv (libs : SlotLibraries) (v : Option CertRead) (x : Option (List UInt8)) : Prop :=
  ∀ cert, v = some cert → cert = heldCertificate libs x

structure Caches.Inv (c : Caches) (s : Slots) : Prop where
  keys : ∀ slot, KeyInv fw (c.keyView slot) (s slot).key
  certs : ∀ slot, CertInv libs (c.certView slot) (s slot).cert

variable {fw}

theorem Caches.Inv.agree {c : Caches} {s : Slots} (h : c.Inv fw s) : c.Agree fw s where
  key slot := (h.keys slot).named
  unnamed slot := (h.keys slot).unnamed
  noKey slot hpresence := by
    obtain ⟨entry, hentry, hno⟩ := Option.map_eq_some_iff.mp hpresence
    rcases entry with - | kv
    · refine ((h.keys slot).noKey hentry ?_).1
      by_contra hnot
      rw [Bool.not_eq_true] at hnot
      have hflag : c.pubkey.noKey slot.keyRef = false := hnot
      rw [hflag] at hno
      cases hno
    · cases hno
  policy slot := (h.keys slot).policy
  policyHeld slot p hp := fw.policy _ p ((h.keys slot).policy (some p) hp).symm
  cert slot := h.certs slot

theorem KeyInv.uncached {v : KeyView} {x : Option SlotKey} (hpubkey : v.pubkey = none)
    (hpolicy : v.policy = none) : KeyInv fw v x where
  named kv h := by rw [hpubkey] at h; cases h
  unnamed h := by rw [hpubkey] at h; cases h
  noKey h := by rw [hpubkey] at h; cases h
  policy p h := by rw [hpolicy] at h; cases h
  asked h := by rw [hpubkey] at h; cases h

theorem inv_empty (s : Slots) : Caches.empty.Inv fw s where
  keys _ := .uncached rfl rfl
  certs _ := nofun

/-- No key, nothing to name. -/
theorem Firmware.key_none : fw.key none = none := by
  by_contra hkey
  obtain ⟨kv, hkv⟩ := Option.ne_none_iff_exists'.mp hkey
  obtain ⟨k, hk, -⟩ := fw.named none kv hkv
  cases hk

theorem Firmware.slotPolicy_none : fw.slotPolicy none = none := by
  by_contra hpolicy
  obtain ⟨p, hp⟩ := Option.ne_none_iff_exists'.mp hpolicy
  obtain ⟨k, hk, -⟩ := fw.policy none p hp
  cases hk

/-! ### Undisturbed answers -/

/-- The status word and the metadata that a reply brings. -/
def metadataSeen (applet : Applet) : Reply → Option UInt16 × Option Metadata
  | .error _ => (none, none)
  | .ok (data, sw) => (some sw, metadataIn applet data sw)

/-- What a reply brings of a key is all that the card can tell of it: nothing is missing, and
nothing is told of a key that is not there. -/
structure Heard (fw : Firmware applet libs) (x : Option SlotKey) (md : Option Metadata) :
    Prop where
  key : md.bind (Metadata.key applet) = fw.key x
  policy : md.bind Metadata.slotPolicy = fw.metadataPolicy x

/-- The operations that ask a card for its key to hold it against what they have, and so take
silence for no answer. -/
def SlotOp.confirms : SlotOp → Bool
  | .slotKey _ | .reportedSlotKey _ | .importCertificate .. => true
  | _ => false

def SlotOp.generates : SlotOp → Bool
  | .generateKey .. => true
  | _ => false

def Unheard {α : Type} (a : Tried α) : Prop := ∃ e, a = .error e

/-- A key whose entries go with it, or one of which the card tells nothing. -/
def CarriedAlong (applet : Applet) (c : Caches) (src dest : Slot) : Prop :=
  ((c.keyView src).pubkey ≠ none ∨ applet.metadataSent = false) ∧
    ((c.keyView src).policy ≠ none ∨ (c.keyView dest).policy = none)

variable (fw) in
/-- An answer that leaves no cache behind the card, in an operation that started with the caches
`c`: it was received, or its loss changed nothing, or nothing was cached that it could have
changed. -/
def Undisturbed (op : SlotOp) (c : Caches) (s : Slots) :
    (q : SlotAsk) → SlotAnswer q → Slots → Prop
  | .command (.metadata slot), a, _ =>
      op.confirms = true ∨ Heard fw (s slot).key (metadataSeen applet a).2
  | .command (.attest slot), a, _ =>
      Accepted a ∨ fw.attestedPolicy (s slot).key = none
  | .command (.getCertificate slot), a, _ =>
      ∀ data sw, a = .ok (data, sw) → sw ≠ SW_OK → (s slot).cert = none
  | .command (.generate slot ..), a, t => Unheard a → t = s ∨ c.KeyUncached slot
  | .command (.clearCertificate slot), a, t =>
      (Unheard a → t = s ∨ c.certView slot = none) ∧
        (op.generates = true → Accepted a ∨ c.KeyUncached slot)
  | .command (.moveKey src dest), a, t =>
      (Unheard a → t = s) ∧ (Accepted a → CarriedAlong applet c src dest)
  | .command (.deleteKey slot), a, t => Unheard a → t = s ∨ c.KeyUncached slot
  | .command (.hidDeleteKey _ _ slot), a, t => Unheard a → t = s ∨ c.KeyUncached slot
  | .command .reset, a, t => Unheard a → t = s ∨ c = .empty
  | .sendCertificate slot .., a, t => Unheard a → t = s ∨ c.certView slot = none
  | .sendImportKey .., _, _ => True
  | .hidSlotAlgorithm _, _, _ => True
  | .managementKeyAlgorithm, _, _ => True

variable (fw) in
/-- The card, as far as it answers undisturbed. -/
def undisturbed (op : SlotOp) (c : Caches) : Device SlotAnswer Slots :=
  fun s q a t => slotStep fw s q a t ∧ Undisturbed fw op c s q a t

/-! ### One reply -/

section Replies

variable {s t : Slots} {slot : Slot} {a : Reply}

theorem metadataTold_some (hsent : applet.metadataSent = true) {told : List UInt8} :
    metadataTold applet (some told) = metadataIn applet told SW_OK := by
  rw [metadataTold, hsent]
  rfl

/-- A reply brings what the card tells, or nothing; it does not claim that no key is there
where there is one. -/
theorem commandStep_metadata (hsent : applet.metadataSent = true)
    (h : commandStep fw s (.metadata slot) a t) :
    t = s ∧ ((metadataSeen applet a).2 = metadataTold applet (fw.metadata (s slot).key) ∨
      (metadataSeen applet a).2 = none) ∧
      (metadataSaysNoKey applet (metadataSeen applet a).1 = true → (s slot).key = none) := by
  rcases a with e | ⟨data, sw⟩
  · refine ⟨?_, .inr rfl, fun htells => ?_⟩
    · rcases commandStep_either h with hsame | ⟨data, hdone⟩
      · exact hsame
      · cases hdone
        rfl
    · simp [metadataSaysNoKey, metadataSeen] at htells
  · by_cases hsw : sw = SW_OK
    · subst hsw
      cases commandStep_done rfl h with
      | metadata _ _ htold =>
          refine ⟨rfl, .inl ?_, fun htells => ?_⟩
          · rw [htold, metadataTold_some hsent]
            rfl
          · have hne : SW_OK ≠ SW_REFERENCE_NOT_FOUND := by decide
            simp [metadataSaysNoKey, metadataSeen, hne] at htells
    · obtain ⟨hsame, hno⟩ := commandStep_refused hsw h
      exact ⟨hsame, .inr (if_pos hsw), hno slot rfl⟩

end Replies

/-! ### Reads of a key -/

/-- What the session takes a reply for. A card of this firmware may be silent about a key, but a
status that says that there is none is true, and metadata that came are those of the key. -/
structure Told (fw : Firmware applet libs) (confirms : Bool) (x : Option SlotKey)
    (r : Option UInt16 × Option Metadata) : Prop where
  md : r.2 = metadataTold applet (fw.metadata x) ∨ r.2 = none
  noKey : metadataSaysNoKey applet r.1 = true → x = none ∧ applet.metadataSent = true
  heard : confirms = false → Heard fw x r.2

/-- What a read of a slot's key leaves: the card, the certificates, and what is cached of every
other slot. -/
structure KeyRead (fw : Firmware applet libs) (slot : Slot) (s : Slots) (c c' : Caches)
    (t : Slots) : Prop where
  card : t = s
  certs : c'.cert = c.cert
  others : ∀ slot', slot' ≠ slot → c'.keyView slot' = c.keyView slot'
  slot : KeyInv fw (c'.keyView slot) (s slot).key

section Reads

variable {op : SlotOp} {c₀ c c' : Caches} {s t : Slots} {slot : Slot}

theorem KeyRead.inv (h : KeyRead fw slot s c c' t) (hinv : c.Inv fw s) : c'.Inv fw t where
  keys slot' := by
    rw [h.card]
    by_cases hslot : slot' = slot
    · rw [hslot]
      exact h.slot
    · rw [h.others slot' hslot]
      exact hinv.keys slot'
  certs slot' := by
    rw [h.card, Caches.certView, h.certs]
    exact hinv.certs slot'

theorem KeyRead.refl (h : KeyInv fw (c.keyView slot) (s slot).key) : KeyRead fw slot s c c s :=
  { card := rfl, certs := rfl, others := fun _ _ => rfl, slot := h }

theorem KeyRead.trans {c'' : Caches} {u : Slots} (h : KeyRead fw slot s c c' t)
    (h' : KeyRead fw slot t c' c'' u) : KeyRead fw slot s c c'' u where
  card := h'.card.trans h.card
  certs := h'.certs.trans h.certs
  others slot' hne := (h'.others slot' hne).trans (h.others slot' hne)
  slot := h.card ▸ h'.slot

/-- A write to the slot's own entries. -/
theorem KeyRead.of_view {v : KeyView} (hcerts : c'.cert = c.cert)
    (hothers : ∀ slot', slot' ≠ slot → c'.keyView slot' = c.keyView slot')
    (hview : c'.keyView slot = v) (hslot : KeyInv fw v (s slot).key) :
    KeyRead fw slot s c c' s :=
  { card := rfl, certs := hcerts, others := hothers, slot := hview ▸ hslot }

abbrev KeyReadTo (fw : Firmware applet libs) (slot : Slot) (s : Slots) (c : Caches)
    (v : KeyView) : PUnit → Caches → Slots → Prop :=
  fun _ c' t => KeyRead fw slot s c c' t ∧ c'.keyView slot = v

theorem ensures_rememberPubkey {value : Option (KeyAlg × PublicKey)}
    (h : KeyInv fw ⟨some value, false, (c.keyView slot).policy⟩ (s slot).key) :
    Session.Ensures (undisturbed fw op c₀)
      (KeyReadTo fw slot s c ⟨some value, false, (c.keyView slot).policy⟩)
      (rememberPubkey slot value) c s := by
  refine Session.ensures_modify ⟨.of_view rfl (fun slot' hne => ?_) ?_ h, ?_⟩
  · simp only [Caches.keyView, PubkeyCache.remember, update_other _ _ hne]
  · simp only [Caches.keyView, PubkeyCache.remember, update_same]
  · simp only [Caches.keyView, PubkeyCache.remember, update_same]

theorem ensures_rememberNoKey (h : KeyInv fw ⟨some none, true, (c.keyView slot).policy⟩
    (s slot).key) :
    Session.Ensures (undisturbed fw op c₀)
      (KeyReadTo fw slot s c ⟨some none, true, (c.keyView slot).policy⟩)
      (rememberNoKey slot) c s := by
  refine Session.ensures_modify ⟨.of_view rfl (fun slot' hne => ?_) ?_ h, ?_⟩
  · simp only [Caches.keyView, PubkeyCache.rememberNoKey, update_other _ _ hne]
  · simp only [Caches.keyView, PubkeyCache.rememberNoKey, update_same]
  · simp only [Caches.keyView, PubkeyCache.rememberNoKey, update_same]

theorem ensures_rememberPolicy {value : Option (PinPolicy × TouchPolicy)}
    (h : KeyInv fw { c.keyView slot with policy := some value } (s slot).key) :
    Session.Ensures (undisturbed fw op c₀)
      (KeyReadTo fw slot s c { c.keyView slot with policy := some value })
      (rememberPolicy slot value) c s := by
  refine Session.ensures_modify ⟨.of_view rfl (fun slot' hne => ?_) ?_ h, ?_⟩
  · simp only [Caches.keyView, PolicyCache.remember, update_other _ _ hne]
  · simp only [Caches.keyView, PolicyCache.remember, update_same]
  · simp only [Caches.keyView, PolicyCache.remember, update_same]

theorem ensures_transmitSlot {cmd : SlotCommand} {Post : Reply → Caches → Slots → Prop}
    (h : ∀ a t, commandStep fw s cmd a t → Undisturbed fw op c₀ s (.command cmd) a t →
      Post a c t) :
    Session.Ensures (undisturbed fw op c₀) Post (transmitSlot cmd) c s :=
  fun a t hstep => h a t hstep.1 hstep.2

/-- An answer of GET METADATA, as the session takes it. -/
theorem ensures_metadataReply (slot : Slot) :
    Session.Ensures (undisturbed fw op c₀)
      (fun r c' t => c' = c ∧ t = s ∧ Told fw op.confirms (s slot).key r)
      (metadataReply applet slot) c s := by
  unfold metadataReply
  by_cases hsent : applet.metadataSent = true
  · rw [hsent]
    refine Session.ensures_bind (ensures_transmitSlot fun a t hstep hheard => ?_)
    obtain ⟨hsame, hmd, hnoKey⟩ := commandStep_metadata hsent hstep
    have htold : Told fw op.confirms (s slot).key (metadataSeen applet a) :=
      { md := hmd
        noKey := fun htells => ⟨hnoKey htells, hsent⟩
        heard := fun hconfirms => hheard.resolve_left (by rw [hconfirms]; decide) }
    rcases a with e | ⟨data, sw⟩
    · exact ⟨rfl, hsame, htold⟩
    · exact ⟨rfl, hsame, htold⟩
  · rw [Bool.not_eq_true] at hsent
    rw [hsent]
    refine ⟨rfl, rfl, .inr rfl, fun htells => ?_, fun _ => ⟨?_, ?_⟩⟩
    · simp [metadataSaysNoKey] at htells
    · simp [Firmware.key, keyTold, metadataTold, hsent]
    · simp [Firmware.metadataPolicy, metadataTold, hsent]

theorem Told.key {confirms : Bool} {x : Option SlotKey} {r : Option UInt16 × Option Metadata}
    (h : Told fw confirms x r) {kv : KeyAlg × PublicKey}
    (hkey : r.2.bind (Metadata.key applet) = some kv) : fw.key x = some kv := by
  rcases h.md with hmd | hmd
  · rw [hmd] at hkey
    exact hkey
  · rw [hmd] at hkey
    cases hkey

theorem Told.policy {confirms : Bool} {x : Option SlotKey} {r : Option UInt16 × Option Metadata}
    (h : Told fw confirms x r) {p : PinPolicy × TouchPolicy}
    (hpolicy : r.2.bind Metadata.slotPolicy = some p) : fw.metadataPolicy x = some p := by
  rcases h.md with hmd | hmd
  · rw [hmd] at hpolicy
    exact hpolicy
  · rw [hmd] at hpolicy
    cases hpolicy

theorem KeyInv.withPolicy {v : KeyView} {x : Option SlotKey} (h : KeyInv fw v x)
    {p : Option (PinPolicy × TouchPolicy)} (hp : p = fw.slotPolicy x) :
    KeyInv fw { v with policy := some p } x where
  named := h.named
  unnamed := h.unnamed
  noKey := h.noKey
  policy p' hp' := (Option.some.inj hp').symm.trans hp
  asked _ hnone := by cases hnone

/-- What resolving a slot leaves. A key that is named is there; an answer that was heard is all
that the card can tell. -/
structure Resolved (fw : Firmware applet libs) (confirms : Bool) (slot : Slot) (s : Slots)
    (c : Caches) (r : Option (KeyAlg × PublicKey) × Bool) (c' : Caches) (t : Slots) : Prop where
  read : KeyRead fw slot s c c' t
  pubkey : (c'.keyView slot).pubkey = (c.keyView slot).pubkey
  named : ∀ kv, r.1 = some kv → fw.key (s slot).key = some kv
  noKey : r.2 = true → (s slot).key = none ∧ applet.metadataSent = true
  reported : (c'.keyView slot).policy = (c.keyView slot).policy ∨
    ∃ p, (c'.keyView slot).policy = some (some p)
  heard : confirms = false → r.1 = fw.key (s slot).key
  asked : confirms = false → (c'.keyView slot).policy = none →
    fw.metadataPolicy (s slot).key = none

theorem ensures_rememberReported {reported : Option (PinPolicy × TouchPolicy)}
    (hinv : KeyInv fw (c.keyView slot) (s slot).key)
    (htrue : ∀ p, reported = some p → some p = fw.slotPolicy (s slot).key) :
    Session.Ensures (undisturbed fw op c₀)
      (fun _ c' t => KeyRead fw slot s c c' t ∧
        (c'.keyView slot).pubkey = (c.keyView slot).pubkey ∧
          ((c'.keyView slot).policy = (c.keyView slot).policy ∧ reported = none ∨
            ∃ p, (c'.keyView slot).policy = some (some p)))
      (rememberReported slot reported) c s := by
  cases reported with
  | none => exact Session.ensures_pure ⟨.refl hinv, rfl, .inl ⟨rfl, rfl⟩⟩
  | some p =>
      refine (ensures_rememberPolicy (hinv.withPolicy (htrue p rfl))).mono ?_
      rintro ⟨⟩ c' t ⟨hread, hview⟩
      exact ⟨hread, by rw [hview], .inr ⟨p, by rw [hview]⟩⟩

theorem ensures_resolveSlotFromDevice (hinv : KeyInv fw (c.keyView slot) (s slot).key) :
    Session.Ensures (undisturbed fw op c₀) (Resolved fw op.confirms slot s c)
      (resolveSlotFromDevice applet slot) c s := by
  refine Session.ensures_bind ((ensures_metadataReply slot).mono ?_)
  rintro ⟨sw, md⟩ c' t ⟨rfl, rfl, htold⟩
  refine Session.ensures_bind ((ensures_rememberReported hinv fun p hp => ?_).mono ?_)
  · rw [Firmware.slotPolicy, htold.policy hp, Option.some_or]
  · rintro ⟨⟩ c'' u ⟨hread, hpubkey, hpolicy⟩
    refine Session.ensures_pure ?_
    exact
      { read := hread
        pubkey := hpubkey
        named := fun _ => htold.key
        noKey := htold.noKey
        reported := hpolicy.imp_left And.left
        heard := fun hconfirms => (htold.heard hconfirms).key
        asked := fun hconfirms hnone => by
          rcases hpolicy with ⟨-, hreported⟩ | ⟨p, hp⟩
          · exact (htold.heard hconfirms).policy.symm.trans hreported
          · rw [hp] at hnone
            cases hnone }

theorem ensures_rememberResolved {resolved : Option (KeyAlg × PublicKey)} {noKey : Bool}
    (hkey : resolved = fw.key (s slot).key)
    (hnoKey : noKey = true → (s slot).key = none ∧ applet.metadataSent = true)
    (hpolicy : ∀ p, (c.keyView slot).policy = some p → p = fw.slotPolicy (s slot).key)
    (hasked : (c.keyView slot).policy = none → fw.metadataPolicy (s slot).key = none) :
    Session.Ensures (undisturbed fw op c₀)
      (fun _ c' t => KeyRead fw slot s c c' t ∧
        (c'.keyView slot).policy = (c.keyView slot).policy)
      (rememberResolved slot resolved noKey) c s := by
  unfold rememberResolved
  split
  · next hno =>
      obtain ⟨htells, -⟩ := Bool.and_eq_true_iff.mp hno
      obtain ⟨hnone, hsent⟩ := hnoKey htells
      refine (ensures_rememberNoKey ?_).mono fun _ c' t ⟨hread, hview⟩ => ⟨hread, by rw [hview]⟩
      exact
        { named := nofun
          unnamed := fun _ => by rw [hnone, fw.key_none]
          noKey := fun _ _ => ⟨hnone, hsent⟩
          policy := hpolicy
          asked := fun _ => hasked }
  · refine (ensures_rememberPubkey ?_).mono fun _ c' t ⟨hread, hview⟩ => ⟨hread, by rw [hview]⟩
    exact
      { named := fun kv hkv => fw.named _ kv (hkey.symm.trans (Option.some.inj hkv))
        unnamed := fun hnone => hkey.symm.trans (Option.some.inj hnone)
        noKey := nofun
        policy := hpolicy
        asked := fun _ => hasked }

/-- A key that is resolved is one the card named, now or before. -/
theorem ensures_cachedSlotKey (hconfirms : op.confirms = false)
    (hinv : KeyInv fw (c.keyView slot) (s slot).key) :
    Session.Ensures (undisturbed fw op c₀)
      (fun _ c' t => KeyRead fw slot s c c' t ∧
        ((c'.keyView slot).policy = (c.keyView slot).policy ∨
          ∃ p, (c'.keyView slot).policy = some (some p)) ∧
        ((∃ kv, (c.keyView slot).pubkey = some (some kv)) ∨
          ((c'.keyView slot).policy = none → fw.metadataPolicy (s slot).key = none)))
      (cachedSlotKey applet slot) c s := by
  refine Session.ensures_bind (Session.ensures_get ?_)
  cases hentry : c.pubkey.get slot.keyRef with
  | some resolved =>
      refine Session.ensures_pure ⟨.refl hinv, .inl rfl, ?_⟩
      cases resolved with
      | none => exact .inr (hinv.asked hentry)
      | some kv => exact .inl ⟨kv, hentry⟩
  | none =>
      refine Session.ensures_bind ((ensures_resolveSlotFromDevice hinv).mono ?_)
      rintro ⟨resolved, noKey⟩ c' t hres
      obtain rfl : t = s := hres.read.card
      have hkey : resolved = fw.key (t slot).key := hres.heard hconfirms
      refine Session.ensures_bind ((ensures_rememberResolved hkey hres.noKey
        hres.read.slot.policy (hres.asked hconfirms)).mono ?_)
      rintro ⟨⟩ c'' u ⟨hread, hpolicy⟩
      obtain rfl : u = t := hread.card
      refine Session.ensures_pure ⟨hres.read.trans hread, ?_, .inr fun hnone => ?_⟩
      · rw [hpolicy]
        exact hres.reported
      · exact hres.asked hconfirms (hpolicy ▸ hnone)

/-- Silence leaves what is cached. -/
theorem ensures_confirmedSlotKey (hinv : KeyInv fw (c.keyView slot) (s slot).key) :
    Session.Ensures (undisturbed fw op c₀) (fun _ c' t => KeyRead fw slot s c c' t)
      (confirmedSlotKey applet slot) c s := by
  refine Session.ensures_bind ((ensures_resolveSlotFromDevice hinv).mono ?_)
  rintro ⟨resolved, noKey⟩ c' t hres
  obtain rfl : t = s := hres.read.card
  cases resolved with
  | none => exact Session.ensures_bind (Session.ensures_get hres.read)
  | some kv =>
      refine Session.ensures_bind ((ensures_rememberPubkey ?_).mono ?_)
      · exact
          { named := fun kv' hkv => by
              cases hkv
              exact fw.named _ kv (hres.named kv rfl)
            unnamed := nofun
            noKey := nofun
            policy := hres.read.slot.policy
            asked := nofun }
      · rintro ⟨⟩ c'' u ⟨hread, -⟩
        exact Session.ensures_pure (hres.read.trans hread)

/-! ### Reads of a policy -/

theorem ensures_attest (slot : Slot) :
    Session.Ensures (undisturbed fw op c₀)
      (fun r c' t => c' = c ∧ t = s ∧
        Piv.attestedPolicy libs r = fw.attestedPolicy (s slot).key)
      (attest applet slot) c s := by
  unfold attest
  by_cases hsent : applet.attestSent = true
  · rw [hsent]
    refine Session.ensures_bind (ensures_transmitSlot fun a t hstep hheard => ?_)
    rcases a with e | ⟨data, sw⟩
    · refine ⟨rfl, ?_, (hheard.resolve_left nofun).symm⟩
      rcases commandStep_either hstep with hsame | ⟨data, hdone⟩
      · exact hsame
      · cases hdone
        rfl
    · by_cases hsw : sw = SW_OK
      · subst hsw
        cases commandStep_done rfl hstep with
        | attest _ _ htold =>
            refine ⟨rfl, rfl, ?_⟩
            rw [Firmware.attestedPolicy, attestationTold, hsent, htold]
            rfl
      · obtain ⟨hsame, -⟩ := commandStep_refused hsw hstep
        obtain ⟨e, he, -⟩ := okOrWrite_refused "piv attest" hsw
        refine ⟨rfl, hsame, ?_⟩
        have hnone := hheard.resolve_left (not_accepted_refused hsw)
        rw [hnone, he]
        rfl
  · rw [Bool.not_eq_true] at hsent
    rw [hsent]
    refine Session.ensures_pure ⟨rfl, rfl, ?_⟩
    rw [Firmware.attestedPolicy, attestationTold, hsent]
    rfl

theorem ensures_askForPolicy (hconfirms : op.confirms = false)
    (hinv : KeyInv fw (c.keyView slot) (s slot).key) :
    Session.Ensures (undisturbed fw op c₀)
      (fun _ c' t => KeyRead fw slot s c c' t ∧
        ((c'.keyView slot).policy = none → fw.metadataPolicy (s slot).key = none))
      (askForPolicy applet slot) c s := by
  refine Session.ensures_bind (Session.ensures_get ?_)
  have hcached : (∀ kv, c.pubkey.get slot.keyRef ≠ some (some kv)) →
      Session.Ensures (undisturbed fw op c₀)
        (fun _ c' t => KeyRead fw slot s c c' t ∧
          ((c'.keyView slot).policy = none → fw.metadataPolicy (s slot).key = none))
        (do let _ ← cachedSlotKey applet slot) c s := by
    intro hno
    refine Session.ensures_bind ((ensures_cachedSlotKey hconfirms hinv).mono ?_)
    rintro r c' t ⟨hread, -, ⟨kv, hkv⟩ | hasked⟩
    · exact absurd hkv (hno kv)
    · exact Session.ensures_pure ⟨hread, hasked⟩
  cases hentry : c.pubkey.get slot.keyRef with
  | none => exact hcached (by rw [hentry]; exact nofun)
  | some resolved =>
      cases resolved with
      | none => exact hcached (by rw [hentry]; exact nofun)
      | some kv =>
          refine Session.ensures_bind ((ensures_resolveSlotFromDevice hinv).mono ?_)
          intro r c' t hres
          exact Session.ensures_pure ⟨hres.read, hres.asked hconfirms⟩

theorem ensures_slotPolicy (hconfirms : op.confirms = false)
    (hinv : KeyInv fw (c.keyView slot) (s slot).key) :
    Session.Ensures (undisturbed fw op c₀) (fun _ c' t => KeyRead fw slot s c c' t)
      (slotPolicy applet libs slot) c s := by
  refine Session.ensures_bind (Session.ensures_get ?_)
  cases hpolicy : c.policy.get slot.keyRef with
  | some resolved => exact Session.ensures_pure (.refl hinv)
  | none =>
      refine Session.ensures_bind ((ensures_askForPolicy hconfirms hinv).mono ?_)
      rintro ⟨⟩ c' t ⟨hread, hasked⟩
      obtain rfl : t = s := hread.card
      refine Session.ensures_bind (Session.ensures_get ?_)
      cases hpolicy' : c'.policy.get slot.keyRef with
      | some resolved => exact Session.ensures_pure hread
      | none =>
          refine Session.ensures_bind ((ensures_attest slot).mono ?_)
          rintro cert c'' u ⟨rfl, rfl, hcert⟩
          have hreported : Piv.attestedPolicy libs cert = fw.slotPolicy (u slot).key := by
            rw [hcert, Firmware.slotPolicy, hasked hpolicy', Option.none_or]
          refine Session.ensures_bind
            ((ensures_rememberPolicy (hread.slot.withPolicy hreported)).mono ?_)
          rintro ⟨⟩ c₂ v ⟨hread', -⟩
          exact Session.ensures_pure (hread.trans hread')

end Reads

/-! ### Operations that only read -/

section OnlyReads

variable {op : SlotOp} {c₀ : Caches}

/-- What keeps the caches in agreement, whatever it asks. -/
abbrev KeepsCaches {α : Type} (fw : Firmware applet libs) (op : SlotOp) (c₀ : Caches)
    (p : SlotTalk α) : Prop :=
  Session.Keeps (undisturbed fw op c₀) (fun c s => c.Inv fw s) p

theorem KeepsCaches.of_read {α : Type} {p : SlotTalk α} {slot : Slot}
    (h : ∀ c s, KeyInv fw (c.keyView slot) (s slot).key →
      Session.Ensures (undisturbed fw op c₀) (fun _ c' t => KeyRead fw slot s c c' t) p c s) :
    KeepsCaches fw op c₀ p :=
  fun c s hinv => (h c s (hinv.keys slot)).mono fun _ _ _ hread => hread.inv hinv

theorem keeps_cachedSlotKey (hconfirms : op.confirms = false) (slot : Slot) :
    KeepsCaches fw op c₀ (cachedSlotKey applet slot) :=
  .of_read fun _ _ hinv => (ensures_cachedSlotKey hconfirms hinv).mono fun _ _ _ h => h.1

theorem keeps_slotPolicy (hconfirms : op.confirms = false) (slot : Slot) :
    KeepsCaches fw op c₀ (slotPolicy applet libs slot) :=
  .of_read fun _ _ hinv => ensures_slotPolicy hconfirms hinv

theorem keeps_confirmedSlotKey (slot : Slot) :
    KeepsCaches fw op c₀ (confirmedSlotKey applet slot) :=
  .of_read fun _ _ hinv => ensures_confirmedSlotKey hinv

theorem keeps_reportedSlotKey (slot : Slot) : KeepsCaches fw op c₀ (reportedSlotKey applet slot) :=
  .bind (KeepsCaches.of_read fun _ _ hinv =>
    (ensures_resolveSlotFromDevice hinv).mono fun _ _ _ h => h.read) fun _ => .pure

theorem ensures_hidCrescendoSlotAlgorithm {c : Caches} {s : Slots} (slot : Slot) :
    Session.Ensures (undisturbed fw op c₀) (fun _ c' t => c' = c ∧ t = s)
      (hidCrescendoSlotAlgorithm applet slot) c s := by
  unfold hidCrescendoSlotAlgorithm
  split
  · refine Session.ensures_ask (q := SlotAsk.hidSlotAlgorithm slot) ?_
    intro a t hstep
    exact ⟨rfl, hstep.1⟩
  · exact Session.ensures_pure ⟨rfl, rfl⟩

theorem keeps_hidCrescendoSlotAlgorithm (slot : Slot) :
    KeepsCaches fw op c₀ (hidCrescendoSlotAlgorithm applet slot) := by
  intro c s hinv
  refine (ensures_hidCrescendoSlotAlgorithm slot).mono ?_
  rintro alg c' t ⟨rfl, rfl⟩
  exact hinv

theorem keeps_slotKeyPresence (hconfirms : op.confirms = false) (slot : Slot) :
    KeepsCaches fw op c₀ (slotKeyPresence applet slot) := by
  refine .bind (keeps_cachedSlotKey hconfirms slot) fun key => ?_
  split
  · exact .pure
  · refine .bind (keeps_hidCrescendoSlotAlgorithm slot) fun alg => ?_
    split
    · exact .pure
    · exact .bind .get fun _ => .pure

theorem keeps_slotKey (slot : Slot) : KeepsCaches fw op c₀ (slotKey applet slot) := by
  refine .bind (keeps_confirmedSlotKey slot) ?_
  rintro (- | kv)
  · exact .pure
  · exact .pure

/-! ### Certificates -/

theorem heldCertificate_getD (x : Option (List UInt8)) :
    certObjectDecode libs.gunzip (pushTlv [TAG_DATA_TEMPLATE] (x.getD [])) =
      heldCertificate libs x := by
  cases x with
  | none => rfl
  | some value => rfl

theorem commandStep_getCertificate {s t : Slots} {slot : Slot} {a : Reply}
    (h : commandStep fw s (.getCertificate slot) a t) : t = s ∧ ∀ data sw, a = .ok (data, sw) →
      (sw ≠ SW_OK → (s slot).cert = none) → certIn libs data sw = heldCertificate libs (s slot).cert := by
  constructor
  · rcases commandStep_either h with hsame | ⟨data, hdone⟩
    · exact hsame
    · cases hdone
      rfl
  · rintro data sw rfl hrefused
    by_cases hsw : sw = SW_OK
    · rw [certIn, if_pos hsw]
      cases commandStep_done hsw h
      exact heldCertificate_getD _
    · rw [certIn, if_neg hsw, hrefused hsw]
      rfl

theorem Caches.Inv.withCert {c : Caches} {s t : Slots} {slot : Slot} {cert : Option CertRead}
    (hinv : c.Inv fw s) (hkeys : ∀ slot', (t slot').key = (s slot').key)
    (hothers : ∀ slot', slot' ≠ slot → (t slot').cert = (s slot').cert)
    (hslot : CertInv libs cert (t slot).cert) :
    ({ c with cert := { entries := Function.update c.cert.entries slot.keyRef cert } } : Caches).Inv
      fw t where
  keys slot' := by
    rw [hkeys]
    exact hinv.keys slot'
  certs slot' := by
    show CertInv libs (Function.update c.cert.entries slot.keyRef cert slot'.keyRef) _
    by_cases hne : slot' = slot
    · rw [hne, update_same]
      exact hslot
    · rw [update_other _ _ hne, hothers slot' hne]
      exact hinv.certs slot'

theorem keeps_certObject (slot : Slot) : KeepsCaches fw op c₀ (certObject libs slot) := by
  intro c s hinv
  refine Session.ensures_bind (Session.ensures_get ?_)
  cases hcached : c.cert.get slot.keyRef with
  | some cached => exact Session.ensures_pure hinv
  | none =>
      refine Session.ensures_bind (ensures_transmitSlot fun a t hstep hheard => ?_)
      obtain ⟨rfl, hread⟩ := commandStep_getCertificate hstep
      rcases a with e | ⟨data, sw⟩
      · exact Session.ensures_pure hinv
      · refine Session.ensures_bind (Session.ensures_modify (Session.ensures_pure ?_))
        refine hinv.withCert (fun _ => rfl) (fun _ _ => rfl) ?_
        intro cert hcert
        rw [← Option.some.inj hcert]
        exact hread data sw rfl (hheard data sw rfl)

theorem keeps_readSlotCertificate (slot : Slot) :
    KeepsCaches fw op c₀ (readSlotCertificate libs slot) :=
  .andThen (keeps_certObject slot) fun _ => .pure

/-! ### The status -/

theorem keeps_slotKeyAlgorithm (hconfirms : op.confirms = false) (slot : Slot) :
    KeepsCaches fw op c₀ (slotKeyAlgorithm applet libs slot) := by
  refine .bind (keeps_cachedSlotKey hconfirms slot) ?_
  rintro (- | ⟨alg, key⟩)
  · refine .bind (keeps_hidCrescendoSlotAlgorithm slot) ?_
    rintro (- | alg)
    · exact .bind (keeps_readSlotCertificate slot) fun _ => .pure
    · exact .pure
  · exact .pure

theorem keeps_slotStatus (hconfirms : op.confirms = false) (slot : Slot) :
    KeepsCaches fw op c₀ (slotStatus applet libs slot) :=
  .andThen (keeps_certObject slot) fun _ =>
    .bind (keeps_slotKeyPresence hconfirms slot) fun _ => .pure

theorem keeps_forSlots {α : Type} {one : Slot → SlotTalk (Answered α)}
    (hone : ∀ slot, KeepsCaches fw op c₀ (one slot)) (slots : List Slot) :
    KeepsCaches fw op c₀ (forSlots one slots) := by
  induction slots with
  | nil => exact .pure
  | cons slot rest ih => exact .andThen (hone slot) fun _ => .andThen ih fun _ => .pure

theorem keeps_detailedAlgorithm (hconfirms : op.confirms = false) (slot : Slot)
    (cert : CertRead) : KeepsCaches fw op c₀ (detailedAlgorithm applet libs slot cert) := by
  refine .bind (keeps_cachedSlotKey hconfirms slot) ?_
  rintro (- | ⟨alg, key⟩)
  · refine .bind (keeps_hidCrescendoSlotAlgorithm slot) ?_
    rintro (- | alg)
    · exact .pure
    · exact .pure
  · exact .pure

theorem keeps_slotDetail (hconfirms : op.confirms = false) (slot : Slot) :
    KeepsCaches fw op c₀ (slotDetail applet libs slot) := by
  refine .andThen (keeps_certObject slot) fun cert => ?_
  refine .bind (keeps_detailedAlgorithm hconfirms slot cert) fun _ => ?_
  refine .bind (keeps_slotPolicy hconfirms slot) fun _ => ?_
  exact .bind (keeps_slotKeyPresence hconfirms slot) fun _ => .pure

end OnlyReads

/-! ### Writes of a certificate -/

section Writes

variable {op : SlotOp} {c₀ c c' : Caches} {s t : Slots} {slot : Slot}

/-- What a write of a certificate leaves: every key, and what is cached of them. The certificates in
the cache are again those of the card. -/
structure CertWrite (libs : SlotLibraries) (s : Slots) (c c' : Caches) (t : Slots) : Prop where
  keys : ∀ slot, (t slot).key = (s slot).key
  views : ∀ slot, c'.keyView slot = c.keyView slot
  certs : ∀ slot, CertInv libs (c'.certView slot) (t slot).cert

theorem CertWrite.inv (h : CertWrite libs s c c' t) (hinv : c.Inv fw s) : c'.Inv fw t where
  keys slot := by
    rw [h.keys, h.views]
    exact hinv.keys slot
  certs := h.certs

theorem CertWrite.refl (h : ∀ slot, CertInv libs (c.certView slot) (s slot).cert) :
    CertWrite libs s c c s := { keys := fun _ => rfl, views := fun _ => rfl, certs := h }

/-- An entry for the slot written, or none, over a card whose certificate was written. -/
theorem CertWrite.of_update (hcerts : ∀ slot, CertInv libs (c.certView slot) (s slot).cert)
    {entry : Option CertRead} {cert : Option (List UInt8)} (hslot : CertInv libs entry cert) :
    CertWrite libs s c
      { c with cert := { entries := Function.update c.cert.entries slot.keyRef entry } }
      (s.setCert slot cert) where
  keys slot' := Slots.setCert_key s slot slot' cert
  views _ := rfl
  certs slot' := by
    show CertInv libs (Function.update c.cert.entries slot.keyRef entry slot'.keyRef) _
    by_cases hne : slot' = slot
    · rw [hne, update_same, Slots.setCert_cert_same]
      exact hslot
    · rw [update_other _ _ hne, Slots.setCert_cert_other _ _ hne]
      exact hcerts slot'

/-- A write of a slot whose certificate is not cached. -/
theorem CertWrite.of_uncached (hcerts : ∀ slot, CertInv libs (c.certView slot) (s slot).cert)
    (hnone : c.certView slot = none) {cert : Option (List UInt8)} :
    CertWrite libs s c c (s.setCert slot cert) where
  keys slot' := Slots.setCert_key s slot slot' cert
  views _ := rfl
  certs slot' := by
    by_cases hne : slot' = slot
    · rw [hne, hnone]
      exact nofun
    · rw [Slots.setCert_cert_other _ _ hne]
      exact hcerts slot'

theorem ensures_clearSlotCertificate
    (hcerts : ∀ slot, CertInv libs (c.certView slot) (s slot).cert)
    (hcached : c.certView slot = c₀.certView slot) :
    Session.Ensures (undisturbed fw op c₀)
      (fun r c' t => CertWrite libs s c c' t ∧
        ∀ e, r = .error e → op.generates = true → c₀.KeyUncached slot)
      (clearSlotCertificate slot) c s := by
  refine Session.ensures_bind (ensures_transmitSlot fun a t hstep ⟨hlost, hgenerates⟩ => ?_)
  rcases a with e | ⟨data, sw⟩
  · refine Session.ensures_pure ⟨?_, fun _ _ hop => (hgenerates hop).resolve_left nofun⟩
    rcases commandStep_either hstep with rfl | ⟨data, hdone⟩
    · exact .refl hcerts
    · cases hdone
      rcases hlost ⟨e, rfl⟩ with hsame | hnone
      · rw [hsame]
        exact .refl hcerts
      · exact .of_uncached hcerts (hcached.trans hnone)
  · by_cases hsw : sw = SW_OK
    · have hok : okOrWrite "piv clear certificate" sw = .ok () := okOrWrite_eq_ok.mpr hsw
      cases commandStep_done hsw hstep
      simp only [hok]
      refine Session.ensures_bind (Session.ensures_modify (Session.ensures_pure ⟨?_, nofun⟩))
      refine .of_update hcerts ?_
      rintro cert ⟨⟩
      rfl
    · obtain ⟨hsame, -⟩ := commandStep_refused hsw hstep
      obtain ⟨e, he, -⟩ := okOrWrite_refused "piv clear certificate" hsw
      obtain rfl := hsame
      simp only [he]
      refine Session.ensures_pure ⟨.refl hcerts, fun _ _ hop => ?_⟩
      exact (hgenerates hop).resolve_left (not_accepted_refused hsw)

theorem heldCertificate_encode {libs : SlotLibraries} (slot : Slot) {der : List UInt8}
    (hfits : (certCommand slot der .uncompressed).data.length ≤ 0xFFFF) :
    heldCertificate libs (some (encodeCertificate der .uncompressed)) =
      .ok (some ⟨der, false⟩) := by
  obtain ⟨hder, hvalue⟩ := length_encode_le slot der .uncompressed
  rw [heldCertificate, certObjectDecode, TAG_DATA_TEMPLATE,
    unwrapDataObject_pushTlv (Nat.le_trans hvalue hfits), Option.bind_some,
    certObjectParts_encodeCertificate (Nat.le_trans hder (Nat.le_trans hvalue hfits))]
  rfl

theorem ensures_storeSlotCertificate {der : List UInt8} {compression : CertCompression}
    (hinv : c.Inv fw s) (hcached : c.certView slot = c₀.certView slot) :
    Session.Ensures (undisturbed fw op c₀) (fun _ c' t => c'.Inv fw t)
      (storeSlotCertificate libs slot der compression) c s := by
  refine Session.ensures_bind (Session.ensures_ask ?_)
  rintro (e | done) t ⟨hstep, hlost⟩
  · refine Session.ensures_pure ?_
    have hnone : t = s ∨ c.certView slot = none := by
      rw [hcached]
      exact hlost ⟨e, rfl⟩
    rcases hstep with rfl | ⟨-, hwritten⟩
    · exact hinv
    · rcases hnone with hsame | hnone
      · rw [hsame]
        exact hinv
      · rcases hwritten with rfl | rfl
        · exact (CertWrite.of_uncached hinv.certs hnone).inv hinv
        · exact (CertWrite.of_uncached hinv.certs hnone).inv hinv
  · obtain ⟨rfl, hsize⟩ := hstep
    by_cases hcompressed : done.compressed = true
    · show Session.Ensures _ _ (if done.compressed = true then _ else _) _ _
      rw [if_pos hcompressed]
      refine Session.ensures_bind (Session.ensures_modify ?_)
      refine Session.Keeps.andThen (keeps_certObject slot) (fun _ => .pure) _ _ ?_
      have hnothing : ∀ x, CertInv libs none x := fun _ => nofun
      exact (CertWrite.of_update hinv.certs (hnothing _)).inv hinv
    · show Session.Ensures _ _ (if done.compressed = true then _ else _) _ _
      rw [if_neg hcompressed]
      refine Session.ensures_bind (Session.ensures_modify (Session.ensures_pure ?_))
      refine (CertWrite.of_update hinv.certs ?_).inv hinv
      rw [storedCommand, storedPayload, if_neg hcompressed, if_neg hcompressed] at hsize
      rw [storedObject, storedPayload, if_neg hcompressed, if_neg hcompressed]
      rintro cert ⟨⟩
      exact (heldCertificate_encode slot hsize).symm

/-! ### Writes of a key -/

/-- Every entry but those of one slot's key. It is what holds while a write to that slot is under
way and its entries are not settled yet. -/
structure Caches.InvBut (fw : Firmware applet libs) (slot : Slot) (c : Caches) (s : Slots) :
    Prop where
  keys : ∀ slot', slot' ≠ slot → KeyInv fw (c.keyView slot') (s slot').key
  certs : ∀ slot', CertInv libs (c.certView slot') (s slot').cert

theorem Caches.Inv.but (h : c.Inv fw s) : c.InvBut fw slot s :=
  { keys := fun slot' _ => h.keys slot', certs := h.certs }

/-- A key written is the one exception. -/
theorem Caches.Inv.setKey (h : c.Inv fw s) (key : Option SlotKey) :
    c.InvBut fw slot (s.setKey slot key) where
  keys slot' hne := by
    rw [Slots.setKey_key_other _ _ hne]
    exact h.keys slot'
  certs slot' := by
    rw [Slots.setKey_cert]
    exact h.certs slot'

theorem Caches.InvBut.inv (h : c.InvBut fw slot s)
    (hslot : KeyInv fw (c.keyView slot) (s slot).key) : c.Inv fw s where
  keys slot' := by
    by_cases hne : slot' = slot
    · rw [hne]
      exact hslot
    · exact h.keys slot' hne
  certs := h.certs

theorem Caches.InvBut.of_uncached (h : c.InvBut fw slot s) (huncached : c.KeyUncached slot) :
    c.Inv fw s := h.inv (.uncached huncached.1 huncached.2)

theorem ensures_evictKey (h : c.InvBut fw slot s) :
    Session.Ensures (undisturbed fw op c₀) (fun _ c' t => t = s ∧ c'.Inv fw s)
      (evictKey slot) c s := by
  refine Session.ensures_modify ⟨rfl, ?_⟩
  have hbut : Caches.InvBut fw slot
      { c with
        policy := c.policy.evict slot.keyRef
        pubkey := c.pubkey.evict slot.keyRef } s := by
    refine ⟨fun slot' hne => ?_, h.certs⟩
    have hview := h.keys slot' hne
    simp only [Caches.keyView, PolicyCache.evict, PubkeyCache.evict, update_other _ _ hne]
      at hview ⊢
    exact hview
  refine hbut.inv (.uncached ?_ ?_)
  · simp only [Caches.keyView, PubkeyCache.evict, update_same]
  · simp only [Caches.keyView, PolicyCache.evict, update_same]

theorem ensures_writeSlotKey {algId : UInt8} {body : List UInt8} (hconfirms : op.confirms = false)
    (hinv : c.Inv fw s) :
    Session.Ensures (undisturbed fw op c₀) (fun _ c' t => c'.Inv fw t)
      (writeSlotKey applet libs slot algId body) c s := by
  refine Session.ensures_bind (Session.ensures_ask ?_)
  rintro sent t ⟨hstep, -⟩
  have hbut : c.InvBut fw slot t := by
    rcases sent with e | ⟨⟩
    · rcases hstep with rfl | ⟨-, rfl⟩
      · exact hinv.but
      · exact hinv.setKey _
    · rw [show t = _ from hstep]
      exact hinv.setKey _
  refine Session.ensures_bind ((ensures_evictKey hbut).mono ?_)
  rintro ⟨⟩ c' u ⟨rfl, hinv'⟩
  rcases sent with e | ⟨⟩
  · exact Session.ensures_pure hinv'
  · exact Session.Keeps.bind (keeps_slotPolicy hconfirms slot) (fun _ => .pure) _ _ hinv'

/-- The key is new, and nothing that is cached of the slot's key describes it. -/
theorem ensures_afterGenerate {alg : KeyAlg} {k : SlotKey} (hconfirms : op.confirms = false)
    (hgenerates : op.generates = true) (hbut : c.InvBut fw slot s)
    (hcached : c.certView slot = c₀.certView slot)
    (huncached : c₀.KeyUncached slot → c.KeyUncached slot) (hkey : (s slot).key = some k)
    (halg : k.algId = applet.algId alg) :
    Session.Ensures (undisturbed fw op c₀) (fun _ c' t => c'.Inv fw t)
      (afterGenerate applet libs slot alg k.pub) c s := by
  refine Session.ensures_andThen ((ensures_clearSlotCertificate hbut.certs hcached).mono ?_)
  rintro r c' t ⟨hwrite, herror⟩
  have hbut' : c'.InvBut fw slot t :=
    { keys := fun slot' hne => by
        rw [hwrite.keys, hwrite.views]
        exact hbut.keys slot' hne
      certs := hwrite.certs }
  constructor
  · intro e he
    refine hbut'.of_uncached ?_
    rw [Caches.KeyUncached, hwrite.views]
    exact huncached (herror e he hgenerates)
  · rintro ⟨⟩ -
    refine Session.ensures_bind ((ensures_evictKey hbut').mono ?_)
    rintro ⟨⟩ c₁ u ⟨rfl, hinv⟩
    refine Session.ensures_bind ((ensures_slotPolicy hconfirms (hinv.keys slot)).mono ?_)
    intro policy c₂ v hread
    have hinv₂ := hread.inv hinv
    obtain rfl : v = u := hread.card
    refine Session.ensures_bind ((ensures_rememberPubkey ?_).mono ?_)
    · exact
        { named := fun kv hkv => by
            cases hkv
            exact ⟨k, (hwrite.keys slot).trans hkey, rfl, .inr halg⟩
          unnamed := nofun
          noKey := nofun
          policy := hread.slot.policy
          asked := nofun }
    · rintro ⟨⟩ c₃ w ⟨hread₃, -⟩
      exact Session.ensures_pure (hread₃.inv hinv₂)

theorem ensures_generateKey {alg : KeyAlg} {pin : PinPolicy} {touch : TouchPolicy}
    (hconfirms : op.confirms = false) (hgenerates : op.generates = true) (hinv : c₀.Inv fw s) :
    Session.Ensures (undisturbed fw op c₀) (fun _ c' t => c'.Inv fw t)
      (generateKey applet libs slot alg pin touch) c₀ s := by
  refine Session.ensures_bind (ensures_transmitSlot fun a t hstep hlost => ?_)
  rcases a with e | ⟨data, sw⟩
  · refine Session.ensures_pure ?_
    rcases hlost ⟨e, rfl⟩ with rfl | huncached
    · exact hinv
    · rcases commandStep_either hstep with rfl | ⟨data, hdone⟩
      · exact hinv
      · cases hdone
        exact (hinv.setKey _).of_uncached huncached
  · by_cases hsw : sw = SW_OK
    · have hok : okOrWrite "piv generate key" sw = .ok () := okOrWrite_eq_ok.mpr hsw
      cases commandStep_done hsw hstep with
      | generate _ _ _ _ k _ halg hparse =>
          simp only [hok, hparse]
          exact ensures_afterGenerate hconfirms hgenerates (hinv.setKey _) rfl id
            (Slots.setKey_key_same _ _ _) halg
    · obtain ⟨rfl, -⟩ := commandStep_refused hsw hstep
      obtain ⟨e, he, -⟩ := okOrWrite_refused "piv generate key" hsw
      simp only [he]
      exact Session.ensures_pure hinv

/-! ### Deletes and the reset -/

/-- After a delete that was tried nothing is cached that was not before, and after one that
failed the caches agree. -/
def Removed (fw : Firmware applet libs) (slot : Slot) (c : Caches) (r : Answered Unit)
    (c' : Caches) (t : Slots) : Prop :=
  c' = c ∧ c.InvBut fw slot t ∧ ∀ e, r = .error e → c.Inv fw t

theorem ensures_remove {cmd : SlotCommand} {label : String}
    (hcmd : ∀ s data t, CarriesOut fw s cmd data t → t = s.setKey slot none)
    (hlost : ∀ s (a : Reply) t, Undisturbed fw op c₀ s (.command cmd) a t → Unheard a →
      t = s ∨ c₀.KeyUncached slot) (hinv : c₀.Inv fw s) :
    Session.Ensures (undisturbed fw op c₀) (Removed fw slot c₀)
      (do
        match ← transmitSlot cmd with
        | .error e => return .error (.transport e)
        | .ok (_, sw) => return (okOrWrite label sw).mapError .transport) c₀ s := by
  refine Session.ensures_bind (ensures_transmitSlot fun a t hstep hundisturbed => ?_)
  have hbut : c₀.InvBut fw slot t := by
    rcases commandStep_either hstep with rfl | ⟨data, hdone⟩
    · exact hinv.but
    · rw [hcmd s data t hdone]
      exact hinv.setKey none
  rcases a with e | ⟨data, sw⟩
  · refine Session.ensures_pure ⟨rfl, hbut, fun _ _ => ?_⟩
    rcases hlost s _ t hundisturbed ⟨e, rfl⟩ with rfl | huncached
    · exact hinv
    · exact hbut.of_uncached huncached
  · refine Session.ensures_pure ⟨rfl, hbut, fun e he => ?_⟩
    by_cases hsw : sw = SW_OK
    · have hok : okOrWrite label sw = .ok () := okOrWrite_eq_ok.mpr hsw
      rw [hok] at he
      cases he
    · obtain ⟨rfl, -⟩ := commandStep_refused hsw hstep
      exact hinv

theorem ensures_deleteKeyHid (c4000 : Bool) (alg : KeyAlg) (hinv : c₀.Inv fw s) :
    Session.Ensures (undisturbed fw op c₀) (Removed fw slot c₀) (deleteKeyHid c4000 alg slot)
      c₀ s := by
  unfold deleteKeyHid
  split
  · exact Session.ensures_pure ⟨rfl, hinv.but, fun _ _ => hinv⟩
  · refine ensures_remove (fun s data t hdone => ?_) (fun s a t h => h) hinv
    cases hdone
    rfl

theorem ensures_deleteKeyHidCrescendo (variant : HidCrescendoVariant) (hinv : c₀.Inv fw s) :
    Session.Ensures (undisturbed fw op c₀) (Removed fw slot c₀)
      (deleteKeyHidCrescendo applet variant slot) c₀ s := by
  refine Session.ensures_bind ((ensures_hidCrescendoSlotAlgorithm slot).mono ?_)
  rintro (- | alg) c' t ⟨rfl, rfl⟩
  · exact Session.ensures_pure ⟨rfl, hinv.but, fun _ _ => hinv⟩
  · cases variant with
    | c2300 => exact ensures_deleteKeyHid false alg hinv
    | c4000 => exact ensures_deleteKeyHid true alg hinv
    | generic =>
        refine Session.ensures_bind ((ensures_deleteKeyHid true alg hinv).mono ?_)
        rintro (e | ⟨⟩) c₁ u ⟨rfl, hbut, herror⟩
        · refine Session.ensures_bind
            ((ensures_deleteKeyHid false alg (herror e rfl)).mono ?_)
          rintro r c₂ v ⟨rfl, hbut₂, herror₂⟩
          refine Session.ensures_pure ⟨rfl, hbut₂, fun e' he' => ?_⟩
          rcases r with e₂ | ⟨⟩
          · exact herror₂ e₂ rfl
          · cases he'
        · exact Session.ensures_pure ⟨rfl, hbut, nofun⟩

theorem ensures_deleteKey (hinv : c₀.Inv fw s) :
    Session.Ensures (undisturbed fw op c₀) (fun _ c' t => c'.Inv fw t) (deleteKey applet slot)
      c₀ s := by
  have hremoved : Session.Ensures (undisturbed fw op c₀) (Removed fw slot c₀)
      (removeKey applet slot) c₀ s := by
    unfold removeKey
    split
    · exact ensures_deleteKeyHidCrescendo _ hinv
    · refine ensures_remove (fun s data t hdone => ?_) (fun s a t h => h) hinv
      cases hdone
      rfl
  refine Session.ensures_andThen (hremoved.mono ?_)
  rintro r c' t ⟨rfl, hbut, herror⟩
  refine ⟨herror, fun _ _ => ?_⟩
  refine Session.ensures_bind ((ensures_evictKey hbut).mono ?_)
  rintro ⟨⟩ c₁ u ⟨rfl, hinv'⟩
  exact Session.ensures_pure hinv'

theorem ensures_resetSlots (hinv : c₀.Inv fw s) :
    Session.Ensures (undisturbed fw op c₀) (fun _ c' t => c'.Inv fw t) (resetSlots applet)
      c₀ s := by
  have hcheck : Session.Ensures (undisturbed fw op c₀) (fun _ c' t => c' = c₀ ∧ t = s)
      (checkResetAlgorithm applet) c₀ s := by
    unfold checkResetAlgorithm
    split
    · exact Session.ensures_pure ⟨rfl, rfl⟩
    · refine Session.ensures_bind (Session.ensures_ask fun a t hstep => ?_)
      obtain rfl : t = s := hstep.1
      split
      · exact Session.ensures_pure ⟨rfl, rfl⟩
      · exact Session.ensures_pure ⟨rfl, rfl⟩
      · exact Session.ensures_pure ⟨rfl, rfl⟩
  refine Session.ensures_andThen (hcheck.mono ?_)
  rintro r c' t ⟨rfl, rfl⟩
  refine ⟨fun _ _ => hinv, fun _ _ => ?_⟩
  refine Session.ensures_bind (ensures_transmitSlot fun a u hstep hlost => ?_)
  rcases a with e | ⟨data, sw⟩
  · refine Session.ensures_pure ?_
    rcases hlost ⟨e, rfl⟩ with rfl | rfl
    · exact hinv
    · exact inv_empty u
  · by_cases hsw : sw = SW_OK
    · subst hsw
      cases commandStep_done rfl hstep
      exact Session.ensures_bind (Session.ensures_set (Session.ensures_pure (inv_empty _)))
    · obtain ⟨rfl, -⟩ := commandStep_refused hsw hstep
      obtain ⟨e, he, -⟩ := okOrWrite_refused "piv reset" hsw
      simp only [he]
      split
      · exact Session.ensures_pure hinv
      · exact Session.ensures_pure hinv

/-! ### Moves -/

def Caches.migrate (c : Caches) (src dest : Slot) : Caches :=
  { c with
    pubkey := c.pubkey.migrate src.keyRef dest.keyRef
    policy := c.policy.migrate src.keyRef dest.keyRef }

variable {src dest : Slot}

theorem keyView_migrate_other {slot' : Slot} (hsrc : slot' ≠ src) (hdest : slot' ≠ dest) :
    (c.migrate src dest).keyView slot' = c.keyView slot' := by
  obtain ⟨hentry, hnoKey⟩ := c.pubkey.migrate_other (keyRef_ne hsrc) (keyRef_ne hdest)
  simp only [Caches.keyView, Caches.migrate, hentry, hnoKey,
    c.policy.migrate_other (keyRef_ne hsrc) (keyRef_ne hdest)]

/-- Nothing stays cached of the slot a key is moved from. -/
theorem keyUncached_migrate (hne : src ≠ dest) : (c.migrate src dest).KeyUncached src :=
  ⟨c.pubkey.migrate_src (keyRef_ne hne), c.policy.migrate_src (keyRef_ne hne)⟩

theorem keyView_migrate_dest (hne : src ≠ dest) (halong : CarriedAlong applet c src dest) :
    ((c.migrate src dest).keyView dest).pubkey =
        ((c.keyView src).pubkey).or (c.keyView dest).pubkey ∧
      ((c.migrate src dest).keyView dest).noKey =
        (if (c.keyView src).pubkey.isSome then (c.keyView src).noKey
          else (c.keyView dest).noKey) ∧
      ((c.migrate src dest).keyView dest).policy = (c.keyView src).policy := by
  obtain ⟨hentry, hnoKey⟩ := c.pubkey.migrate_dest (keyRef_ne hne)
  refine ⟨hentry, hnoKey, ?_⟩
  have hpolicy : ((c.migrate src dest).keyView dest).policy =
      ((c.keyView src).policy).or (c.keyView dest).policy := c.policy.migrate_dest
  rw [hpolicy]
  rcases halong.2 with hsome | hnone
  · obtain ⟨policy, hcached⟩ := Option.ne_none_iff_exists'.mp hsome
    rw [hcached, Option.some_or]
  · rw [hnone, Option.or_none]

theorem key_unsent (hsent : applet.metadataSent = false) (x : Option SlotKey) :
    fw.key x = none ∧ fw.metadataPolicy x = none := by
  constructor
  · rw [Firmware.key, keyTold, metadataTold, hsent]
    rfl
  · rw [Firmware.metadataPolicy, metadataTold, hsent]
    rfl

/-- The slot a key is moved to. The entries of the key came along, or the card tells nothing of
any key. -/
theorem keyInv_migrate_dest (hne : src ≠ dest) {x : Option SlotKey}
    (hsrc : KeyInv fw (c.keyView src) x) (hdest : KeyInv fw (c.keyView dest) none)
    (halong : CarriedAlong applet c src dest) :
    KeyInv fw ((c.migrate src dest).keyView dest) x := by
  obtain ⟨hentry, hnoKey, hpolicy⟩ := keyView_migrate_dest hne halong
  cases hcached : (c.keyView src).pubkey with
  | some cached =>
      rw [hcached, Option.isSome_some, if_pos rfl] at hnoKey
      rw [hcached, Option.some_or, ← hcached] at hentry
      exact
        { named := hentry ▸ hsrc.named
          unnamed := hentry ▸ hsrc.unnamed
          noKey := hentry ▸ hnoKey ▸ hsrc.noKey
          policy := hpolicy ▸ hsrc.policy
          asked := hentry ▸ hpolicy ▸ hsrc.asked }
  | none =>
      have hunsent := halong.1.resolve_left fun h => h hcached
      rw [hcached, Option.none_or] at hentry
      rw [hcached, Option.isSome_none, if_neg Bool.false_ne_true] at hnoKey
      exact
        { named := fun kv hkv => by
            rw [hentry] at hkv
            obtain ⟨k, hk, -⟩ := hdest.named kv hkv
            cases hk
          unnamed := fun _ => (key_unsent hunsent x).1
          noKey := fun hnone hno => by
            rw [hentry] at hnone
            rw [hnoKey] at hno
            rw [(hdest.noKey hnone hno).2] at hunsent
            cases hunsent
          policy := hpolicy ▸ hsrc.policy
          asked := fun _ _ => (key_unsent hunsent x).2 }

theorem ensures_moveKey (hconfirms : op.confirms = false) (hinv : c₀.Inv fw s) :
    Session.Ensures (undisturbed fw op c₀) (fun _ c' t => c'.Inv fw t) (moveKey applet src dest)
      c₀ s := by
  unfold moveKey
  by_cases hsame : src.keyRef = dest.keyRef
  · rw [if_pos hsame]
    exact Session.ensures_pure hinv
  rw [if_neg hsame]
  have hne : src ≠ dest := fun h => hsame (congrArg Slot.keyRef h)
  have hread : Session.Ensures (undisturbed fw op c₀)
      (fun _ c' t => KeyRead fw dest s c₀ c' t ∧
        ((c'.keyView dest).policy = (c₀.keyView dest).policy ∨
          ∃ p, (c'.keyView dest).policy = some (some p)))
      (slotHasKey applet dest) c₀ s := by
    refine Session.ensures_bind ((ensures_cachedSlotKey hconfirms (hinv.keys dest)).mono ?_)
    rintro key c' t ⟨hread, hpolicy, -⟩
    exact Session.ensures_pure ⟨hread, hpolicy⟩
  refine Session.ensures_bind (hread.mono ?_)
  rintro (- | -) c' t ⟨hread, hpolicy⟩
  · have hinv' := hread.inv hinv
    refine Session.ensures_bind (ensures_transmitSlot fun a u hstep ⟨hlost, halong⟩ => ?_)
    rcases a with e | ⟨data, sw⟩
    · refine Session.ensures_pure ?_
      obtain rfl : u = t := hlost ⟨e, rfl⟩
      exact hinv'
    · by_cases hsw : sw = SW_OK
      · subst hsw
        have hok : okOrWrite "piv move key" SW_OK = .ok () := okOrWrite_eq_ok.mpr rfl
        simp only [hok]
        cases commandStep_done rfl hstep with
        | moveKey _ _ _ hempty =>
            have hcarried : CarriedAlong applet c' src dest := by
              obtain ⟨hpub, hpol⟩ := halong ⟨data, rfl⟩
              rw [CarriedAlong, hread.others src hne]
              refine ⟨hpub, hpol.imp_right fun hnone => ?_⟩
              rcases hpolicy with hsamePolicy | ⟨p, hp⟩
              · exact hsamePolicy.trans hnone
              · have hreported := (hinv'.keys dest).policy (some p) hp
                rw [hempty, fw.slotPolicy_none] at hreported
                cases hreported
            have hdest := hinv'.keys dest
            rw [hempty] at hdest
            refine Session.ensures_bind (Session.ensures_modify (Session.ensures_pure ?_))
            show (c'.migrate src dest).Inv fw _
            refine { keys := fun slot' => ?_, certs := fun slot' => ?_ }
            · by_cases hsrc' : slot' = src
              · rw [hsrc']
                exact .uncached (keyUncached_migrate hne).1 (keyUncached_migrate hne).2
              · rw [Slots.setKey_key_other _ _ hsrc']
                by_cases hdest' : slot' = dest
                · rw [hdest', Slots.setKey_key_same]
                  exact keyInv_migrate_dest hne (hinv'.keys src) hdest hcarried
                · rw [Slots.setKey_key_other _ _ hdest', keyView_migrate_other hsrc' hdest']
                  exact hinv'.keys slot'
            · rw [Slots.setKey_cert, Slots.setKey_cert]
              exact hinv'.certs slot'
      · obtain ⟨rfl, -⟩ := commandStep_refused hsw hstep
        obtain ⟨e, he, -⟩ := okOrWrite_refused "piv move key" hsw
        simp only [he]
        exact Session.ensures_pure hinv'
  · exact Session.ensures_pure (hread.inv hinv)

end Writes

/-! ### Runs -/

section Operations

variable {c₀ : Caches} {s : Slots}

theorem ensures_slotKeyStatusAlgorithm {op : SlotOp} {c : Caches} (slot : Slot) :
    Session.Ensures (undisturbed fw op c₀) (fun _ c' t => c' = c ∧ t = s)
      (slotKeyStatusAlgorithm applet slot) c s := by
  refine Session.ensures_bind ((ensures_metadataReply slot).mono ?_)
  rintro ⟨sw, md⟩ c' t ⟨rfl, rfl, -⟩
  dsimp only
  split
  · exact Session.ensures_pure ⟨rfl, rfl⟩
  · exact ensures_hidCrescendoSlotAlgorithm slot

theorem ensures_rejectCertificateKeyMismatch {op : SlotOp} {c : Caches} {slot : Slot}
    {der : List UInt8} (hinv : KeyInv fw (c.keyView slot) (s slot).key) :
    Session.Ensures (undisturbed fw op c₀) (fun _ c' t => KeyRead fw slot s c c' t)
      (rejectCertificateKeyMismatch applet libs slot der) c s := by
  have hkey : Session.Ensures (undisturbed fw op c₀) (fun _ c' t => KeyRead fw slot s c c' t)
      (slotKey applet slot) c s := by
    refine Session.ensures_bind ((ensures_confirmedSlotKey hinv).mono ?_)
    rintro (- | kv) c' t hread
    · exact Session.ensures_pure hread
    · exact Session.ensures_pure hread
  refine Session.ensures_bind (hkey.mono ?_)
  rintro (e | kv) c' t hread
  · refine Session.ensures_bind ((ensures_slotKeyStatusAlgorithm slot).mono ?_)
    rintro alg c₁ u ⟨rfl, rfl⟩
    split
    · exact Session.ensures_pure hread
    · exact Session.ensures_pure hread
  · show Session.Ensures _ _ (if _ then _ else _) _ _
    split
    · exact Session.ensures_pure hread
    · exact Session.ensures_pure hread

/-- An import reads the key before it writes, and till then no certificate's entry changes. -/
theorem ensures_importSlotCertificate {op : SlotOp} {slot : Slot} {der : List UInt8}
    {compression : CertCompression} (hinv : c₀.Inv fw s) :
    Session.Ensures (undisturbed fw op c₀) (fun _ c' t => c'.Inv fw t)
      (importSlotCertificate applet libs slot der compression) c₀ s := by
  refine Session.ensures_andThen
    ((ensures_rejectCertificateKeyMismatch (hinv.keys slot)).mono ?_)
  intro r c' t hread
  have hcached : c'.certView slot = c₀.certView slot := by
    rw [Caches.certView, hread.certs, Caches.certView]
  exact ⟨fun _ _ => hread.inv hinv,
    fun _ _ => ensures_storeSlotCertificate (hread.inv hinv) hcached⟩

/-- **One operation.** Whatever it was and however the card answered, undisturbed, the caches
still agree with the card. -/
theorem ensures_run (op : SlotOp) (hinv : c₀.Inv fw s) :
    Session.Ensures (undisturbed fw op c₀) (fun _ c' t => c'.Inv fw t) (op.run applet libs)
      c₀ s := by
  have hreads : ∀ {α : Type} {p : SlotTalk α}, KeepsCaches fw op c₀ p →
      Session.Ensures (undisturbed fw op c₀) (fun _ c' t => c'.Inv fw t)
        (do let _ ← p) c₀ s :=
    fun hp => Session.Keeps.bind hp (fun _ => .pure) c₀ s hinv
  have hwrites : ∀ {α : Type} {p : SlotTalk α},
      Session.Ensures (undisturbed fw op c₀) (fun _ c' t => c'.Inv fw t) p c₀ s →
      Session.Ensures (undisturbed fw op c₀) (fun _ c' t => c'.Inv fw t)
        (do let _ ← p) c₀ s :=
    fun hp => Session.ensures_bind (hp.mono fun _ _ _ h => Session.ensures_pure h)
  cases op with
  | slotKeyPresence slot => exact hreads (keeps_slotKeyPresence rfl slot)
  | slotHasKey slot => exact hreads (.bind (keeps_cachedSlotKey rfl slot) fun _ => .pure)
  | reportedSlotKey slot => exact hreads (keeps_reportedSlotKey slot)
  | slotKey slot => exact hreads (keeps_slotKey slot)
  | slotKeyAlgorithm slot => exact hreads (keeps_slotKeyAlgorithm rfl slot)
  | readCertificate slot => exact hreads (keeps_readSlotCertificate slot)
  | slotPolicy slot => exact hreads (keeps_slotPolicy rfl slot)
  | slotStatus slot => exact hreads (keeps_slotStatus rfl slot)
  | status => exact hreads (keeps_forSlots (keeps_slotStatus rfl) _)
  | statusDetailed => exact hreads (keeps_forSlots (keeps_slotDetail rfl) _)
  | generateKey slot alg pin touch => exact hwrites (ensures_generateKey rfl rfl hinv)
  | writeImportKey slot algId body => exact hwrites (ensures_writeSlotKey rfl hinv)
  | importCertificate slot der compression =>
      exact hwrites (ensures_importSlotCertificate hinv)
  | storeCertificateUnchecked slot der compression =>
      exact hwrites (ensures_storeSlotCertificate hinv rfl)
  | clearCertificate slot =>
      refine hwrites ((ensures_clearSlotCertificate hinv.certs rfl).mono ?_)
      exact fun r c' t h => h.1.inv hinv
  | moveKey src dest => exact hwrites (ensures_moveKey rfl hinv)
  | deleteKey slot => exact hwrites (ensures_deleteKey hinv)
  | reset => exact hwrites (ensures_resetSlots hinv)

end Operations

/-- The runs of a session from its start, on a card with any slots. The card's answers may
depend on the operation and on what was cached when it started. -/
inductive Reached (applet : Applet) (libs : SlotLibraries)
    (card : SlotOp → Caches → Device SlotAnswer Slots) : Caches → Slots → Prop
  | start (s : Slots) : Reached applet libs card .empty s
  | step {c c' : Caches} {s t : Slots} {log : List (Asked SlotAnswer)} (op : SlotOp) :
      Reached applet libs card c s → Runs (card op c) s (op.run applet libs c) log ((), c') t →
      Reached applet libs card c' t

/-- **The caches of a session whose operations were undisturbed answer what the card holds,
after every one of them.** The session starts with empty caches, on a card with any slots; the
operations are any, and so are the card's answers, within what its firmware tells. -/
theorem caches_agree (applet : Applet) (libs : SlotLibraries) (fw : Firmware applet libs)
    {c : Caches} {s : Slots} (h : Reached applet libs (undisturbed fw) c s) : c.Agree fw s := by
  have hinv : c.Inv fw s := by
    induction h with
    | start s => exact inv_empty s
    | step op _ hrun ih => exact (ensures_run op ih).of_runs hrun
  exact hinv.agree

/-! ### A key moved unread -/

def sampleApplet : Applet :=
  { metadataSent := true
    attestSent := true
    keyStatusSupported := false
    keyTypeIgnored := false
    policyIgnored := false
    resetFailsIfManagementKeyIsAes := false
    hidCrescendo := none
    algId := fun _ => 0x11
    algOfId := fun b => if b = 0x11 then some .eccP256 else none }

def sampleSlotLibraries : SlotLibraries :=
  { gzipMember := id
    gunzip := fun _ => .error .damaged
    points := { ec := fun _ _ => none, ed25519 := id, x25519 := id }
    certificateKey := fun _ => none
    certificateAlgorithm := fun _ => none
    keyPolicyExtension := fun _ => none }

def sampleSlotKey : SlotKey :=
  { algId := 0x11, pub := .ecc [0x04, 0x01, 0x02], policy := (.once, .never) }

/-- The algorithm, the policies and the public point. -/
def sampleMetadata : List UInt8 :=
  [0x01, 0x01, 0x11, 0x02, 0x02, 0x02, 0x01, 0x04, 0x05, 0x86, 0x03, 0x04, 0x01, 0x02]

/-- A firmware that tells of one key all that GET METADATA can. -/
def sampleFirmware : Firmware sampleApplet sampleSlotLibraries where
  metadata x :=
    if x = some sampleSlotKey then some sampleMetadata else none
  attestation _ := none
  imported _ _ := sampleSlotKey
  named x kv h := by
    split at h
    · next hx =>
        refine ⟨sampleSlotKey, hx, ?_⟩
        cases h
        exact ⟨rfl, .inl rfl⟩
    · cases h
  policy x p h := by
    split at h
    · next hx =>
        refine ⟨sampleSlotKey, hx, ?_⟩
        cases h
        rfl
    · cases h

def sampleSlots : Slots := Slots.empty.setKey .authentication (some sampleSlotKey)

def movedSlots : Slots :=
  (sampleSlots.setKey .signature (some sampleSlotKey)).setKey .authentication none

/-- The read of the destination, then the move. -/
def moveLog : List (Asked SlotAnswer) :=
  [⟨.command (.metadata .signature), .ok ([], SW_REFERENCE_NOT_FOUND)⟩,
    ⟨.command (.moveKey .authentication .signature), .ok ([], SW_OK)⟩]

def movedCaches : Caches :=
  { Caches.empty with pubkey := PubkeyCache.empty.rememberNoKey Slot.signature.keyRef }

theorem runs_sampleMove : Runs (slotStep sampleFirmware) sampleSlots
    ((SlotOp.moveKey .authentication .signature).run sampleApplet sampleSlotLibraries .empty)
    moveLog ((), movedCaches) movedSlots := by
  refine Runs.ask (t := sampleSlots) ?_ (Runs.ask (t := movedSlots) ?_ .done)
  · refine ⟨rfl, fun slot hslot _ => ?_⟩
    cases hslot
    rfl
  · exact CarriesOut.moveKey .authentication .signature [] rfl

/-- The destination was empty when it was asked, and the session says so of it still. -/
theorem moved_unread_disagrees :
    ¬ ∀ (applet : Applet) (libs : SlotLibraries) (fw : Firmware applet libs) (c : Caches)
      (s : Slots), Reached applet libs (fun _ _ => slotStep fw) c s → c.Agree fw s := by
  intro h
  have hagree := h _ _ sampleFirmware movedCaches movedSlots
    (.step (.moveKey .authentication .signature) (.start sampleSlots) runs_sampleMove)
  have hnone := hagree.noKey .signature rfl
  cases hnone

/-! ### The same key moved once it was read -/

def readCaches : Caches :=
  { Caches.empty with
    pubkey := PubkeyCache.empty.remember Slot.authentication.keyRef
      (some (.eccP256, sampleSlotKey.pub))
    policy := PolicyCache.empty.remember Slot.authentication.keyRef (some (.once, .never)) }

theorem runs_sampleRead : Runs (undisturbed sampleFirmware (.slotHasKey .authentication) .empty)
    sampleSlots ((SlotOp.slotHasKey .authentication).run sampleApplet sampleSlotLibraries .empty)
    [⟨.command (.metadata .authentication), .ok (sampleMetadata, SW_OK)⟩] ((), readCaches)
    sampleSlots := by
  refine Runs.ask (t := sampleSlots) ⟨?_, .inr ⟨rfl, rfl⟩⟩ .done
  exact CarriesOut.metadata .authentication sampleMetadata rfl

def migratedCaches : Caches :=
  ({ readCaches with pubkey := readCaches.pubkey.rememberNoKey Slot.signature.keyRef } :
    Caches).migrate .authentication .signature

theorem runs_readMove :
    Runs (undisturbed sampleFirmware (.moveKey .authentication .signature) readCaches)
      sampleSlots ((SlotOp.moveKey .authentication .signature).run sampleApplet
        sampleSlotLibraries readCaches) moveLog ((), migratedCaches) movedSlots := by
  refine Runs.ask (t := sampleSlots) ⟨?_, .inr ⟨rfl, rfl⟩⟩
    (Runs.ask (t := movedSlots) ⟨?_, nofun, fun _ => ?_⟩ .done)
  · refine ⟨rfl, fun slot hslot _ => ?_⟩
    cases hslot
    rfl
  · exact CarriesOut.moveKey .authentication .signature [] rfl
  · exact ⟨.inl nofun, .inl nofun⟩

theorem moved_read_agrees : migratedCaches.Agree sampleFirmware movedSlots :=
  caches_agree _ _ sampleFirmware
    (.step _ (.step _ (.start sampleSlots) runs_sampleRead) runs_readMove)

end Keyroost.Piv
