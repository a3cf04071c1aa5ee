import Keyroost.Piv.WriteCard

/-!
# Long writes report honestly

Whatever the card answers to each APDU, and wherever the reader fails: success means that the last
write carried out is the one the result describes, a refusal means that none was, and after any
other write only a reader error or an unconfirmed write is reported.

A `Tally` counts what the card of `WriteCard` has carried out and what is reported of it. It is
first stated of one attempt at a command, then of the extended form with its retry as a chain
(`always_sendLong`), then of a certificate in either form and of a key, each from the one before.
`long_writes_are_honest` has all three results, on every link and against every card.
-/

namespace Keyroost.Piv

open Transport Dialogue

variable {σ : Type}

/-! ### What a reply says -/

def Accepted (r : Reply) : Prop := ∃ data, r = .ok (data, SW_OK)

def Refused : Reply → Prop
  | .ok (_, sw) => sw ≠ SW_OK
  | .error (.apdu _ sw1 sw2) => swOf sw1 sw2 ≠ SW_OK
  | .error _ => False

def Lost (r : Reply) : Prop := ∃ e, r = .error (.pcsc e)

theorem not_accepted_error (e : TransportError) : ¬ Accepted (.error e) := by
  rintro ⟨data, h⟩
  cases h

theorem not_accepted_refused {data : List UInt8} {sw : UInt16} (hsw : sw ≠ SW_OK) :
    ¬ Accepted (.ok (data, sw)) := by
  rintro ⟨data', h⟩
  exact hsw (congrArg Prod.snd (Except.ok.inj h))

/-- A way to report a write's reply that keeps the three kinds apart: accepted, refused by the card,
and without an answer. -/
structure Reports (f : Reply → Tried Unit) : Prop where
  accepted : ∀ {r}, Accepted r → f r = .ok ()
  refused : ∀ {r}, Refused r → ∃ e, f r = .error e ∧ cardRefused e = true
  lost : ∀ e, f (.error (.pcsc e)) = .error (.pcsc e)

theorem okOrWrite_refused (label : String) {sw : UInt16} (h : sw ≠ SW_OK) :
    ∃ e, okOrWrite label sw = .error e ∧ cardRefused e = true := by
  unfold okOrWrite okOrApdu
  split
  · exact ⟨_, rfl, rfl⟩
  · exact ⟨_, rfl, rfl⟩

theorem reports_okOrWrite (label : String) :
    Reports fun r => r.bind fun (_, sw) => okOrWrite label sw := by
  refine ⟨?_, ?_, fun e => rfl⟩
  · rintro r ⟨data, rfl⟩
    exact okOrWrite_eq_ok.mpr rfl
  · intro r hr
    rcases r with e | ⟨data, sw⟩
    · refine ⟨e, rfl, ?_⟩
      cases e <;> first | rfl | exact absurd hr id
    · exact okOrWrite_refused label hr

theorem certWriteResult_refused (slot : Slot) (len : Nat) {sw : UInt16} (h : sw ≠ SW_OK) :
    ∃ e, certWriteResult slot len sw = .error e ∧ cardRefused e = true := by
  unfold certWriteResult
  split
  · exact ⟨_, rfl, rfl⟩
  · split
    · exact ⟨_, rfl, rfl⟩
    · exact okOrWrite_refused _ h

theorem reports_certWriteResult (slot : Slot) (len : Nat) :
    Reports fun r => (chainedCertSw r).bind (certWriteResult slot len) := by
  refine ⟨?_, ?_, fun e => rfl⟩
  · rintro r ⟨data, rfl⟩
    rfl
  · intro r hr
    rcases r with e | ⟨data, sw⟩
    · cases e with
      | apdu label sw1 sw2 =>
          unfold chainedCertSw
          dsimp only
          split
          · exact certWriteResult_refused slot len hr
          · exact ⟨_, rfl, rfl⟩
      | _ => exact absurd hr id
    · exact certWriteResult_refused slot len hr

/-! ### Attempts at one command -/

/-- One command was carried out `k` times and sent complete `m` times, and nothing else was. What
was sent complete need not have been carried out, for a card may refuse it. -/
structure Tally (c : Command) (s t : Card σ) (k m : Nat) : Prop where
  idle : t.chain = none
  applied : t.applied = s.applied ++ List.replicate k c
  sent : t.sent = s.sent ++ List.replicate m c

theorem Tally.trans {c : Command} {s t u : Card σ} {k m k' m' : Nat} (h : Tally c s t k m)
    (h' : Tally c t u k' m') : Tally c s u (k + k') (m + m') := by
  refine ⟨h'.idle, ?_, ?_⟩
  · rw [h'.applied, h.applied, List.append_assoc, List.replicate_append_replicate]
  · rw [h'.sent, h.sent, List.append_assoc, List.replicate_append_replicate]

theorem Attempt.tally {effect : Effect σ} {label : String} {c : Command} {s t : Card σ}
    {r : Reply} (h : Attempt effect label c s r t) :
    ∃ k m, Tally c s t k m ∧ m ≤ 1 ∧ (Accepted r → 0 < k) ∧ (Refused r → k = 0) ∧
      (Accepted r ∨ Refused r ∨ Lost r) := by
  cases h with
  | refusedLink hsw =>
      have hrefused : Refused (.error (.apdu label (_ >>> 8).toUInt8 _)) :=
        fun h => hsw ((swOf_split _).symm.trans h)
      exact ⟨0, 0, ⟨rfl, (List.append_nil _).symm, (List.append_nil _).symm⟩, Nat.zero_le 1,
        fun h => absurd h (not_accepted_error _), fun _ => rfl, .inr (.inl hrefused)⟩
  | lostLink e =>
      exact ⟨0, 0, ⟨rfl, (List.append_nil _).symm, (List.append_nil _).symm⟩, Nat.zero_le 1,
        fun h => absurd h (not_accepted_error _), fun _ => rfl, .inr (.inr ⟨e, rfl⟩)⟩
  | @whole reply _ hwhole =>
      obtain ⟨hidle, hsent, hacts⟩ := hwhole
      rcases reply with e | ⟨data, sw⟩
      · rcases hacts with ⟨-, happlied⟩ | ⟨data, -, happlied⟩
        · exact ⟨0, 1, ⟨hidle, happlied.trans (List.append_nil _).symm, hsent⟩, Nat.le_refl 1,
            fun h => absurd h (not_accepted_error _), fun _ => rfl, .inr (.inr ⟨e, rfl⟩)⟩
        · exact ⟨1, 1, ⟨hidle, happlied, hsent⟩, Nat.le_refl 1, fun _ => Nat.one_pos,
            fun h => (nomatch h), .inr (.inr ⟨e, rfl⟩)⟩
      · by_cases hsw : sw = SW_OK
        · rw [Acts, if_pos hsw] at hacts
          exact ⟨1, 1, ⟨hidle, hacts.2, hsent⟩, Nat.le_refl 1, fun _ => Nat.one_pos,
            fun h => absurd hsw h, .inl ⟨data, by rw [hsw]; rfl⟩⟩
        · rw [Acts, if_neg hsw] at hacts
          exact ⟨0, 1, ⟨hidle, hacts.2.trans (List.append_nil _).symm, hsent⟩, Nat.le_refl 1,
            fun h => absurd h (not_accepted_refused hsw), fun _ => rfl,
            .inr (.inl hsw)⟩

/-- How one command went: carried out at least once if it was accepted, and never if it was
refused and no attempt had failed at the reader. -/
structure LongOutcome (c : Command) (s t : Card σ) (r : Reply) (after : Bool) (k m : Nat) :
    Prop extends Tally c s t k m where
  accepted : Accepted r → 0 < k
  refused : Refused r → after = false → k = 0
  heard : Accepted r ∨ Refused r ∨ Lost r
  once : c.data.length ≤ 255 → m ≤ 1

/-- The same, of a reported result. Success means that the command was carried out, and a refusal by
the card that it was not, unless the reader failed before (`after`). -/
structure WriteOutcome (c : Command) (s t : Card σ) (r : Tried Unit) (after : Bool)
    (k m : Nat) : Prop extends Tally c s t k m where
  accepted : r = .ok () → 0 < k
  refused : ∀ e, r = .error e → cardRefused e = true → after = false → k = 0
  heard : ∀ e, r = .error e → cardRefused e = true ∨ ∃ p, e = .pcsc p
  once : c.data.length ≤ 255 → m ≤ 1

theorem Reports.outcome {f : Reply → Tried Unit} (hf : Reports f) {c : Command}
    {s t : Card σ} {r : Reply} {after : Bool} {k m : Nat} (h : LongOutcome c s t r after k m)
    (after' : Bool) (hafter : after' = false → after = false) :
    WriteOutcome c s t (f r) after' k m := by
  refine ⟨h.toTally, fun hok => ?_, fun e he hrefused hfalse => ?_, fun e he => ?_, h.once⟩
  · rcases h.heard with haccepted | hrefused | ⟨p, rfl⟩
    · exact h.accepted haccepted
    · obtain ⟨e, he, -⟩ := hf.refused hrefused
      rw [he] at hok
      cases hok
    · rw [hf.lost] at hok
      cases hok
  · rcases h.heard with haccepted | hr | ⟨p, rfl⟩
    · rw [hf.accepted haccepted] at he
      cases he
    · exact h.refused hr (hafter hfalse)
    · rw [hf.lost] at he
      cases he
      cases hrefused
  · rcases h.heard with haccepted | hr | ⟨p, rfl⟩
    · rw [hf.accepted haccepted] at he
      cases he
    · obtain ⟨e', he', hrefused⟩ := hf.refused hr
      rw [he] at he'
      cases he'
      exact .inl hrefused
    · rw [hf.lost] at he
      cases he
      exact .inr ⟨p, rfl⟩

section Send

variable {Q : Type} {A : Q → Type} {D : Device A (Card σ)} {effect : Effect σ}
  {send : List UInt8 → Dialogue A Reply}

theorem always_sendLong (hsend : Sends D effect send) (link : LongLink) (label : String)
    (ins p1 p2 : UInt8) {data : List UInt8} (hfits : data.length ≤ 0xFFFF) {n : Nat}
    (hpos : 0 < n) (hle : n ≤ 255) (retryOn : UInt16 → Bool) {s : Card σ}
    (hidle : s.chain = none) :
    (sendLong send link label (buildApduExt 0x00 ins p1 p2 data none)
      (chainApdu 0x00 ins p1 p2 data n none) retryOn).Always D (fun r t => ∃ k m,
        LongOutcome ⟨0x00, ins, p1, p2, data⟩ s t r.result r.afterReaderFailure k m) s := by
  have hchain : ∀ {s : Card σ}, s.chain = none → _ := fun hidle =>
    always_chainApdu hsend label ins p1 p2 data hpos hle hidle
  unfold sendLong
  split
  · refine Always.bind ((hchain hidle).mono fun r t hattempt => ?_)
    obtain ⟨k, m, htally, hm, haccepted, hrefused, hheard⟩ := hattempt.tally
    exact ⟨k, m, htally, haccepted, fun hr _ => hrefused hr, hheard, fun _ => hm⟩
  · refine Always.bind ((always_single hsend label ins p1 p2 hfits hidle).mono
      fun direct t hattempt => ?_)
    obtain ⟨k, m, htally, hm, haccepted, hrefused, hheard⟩ := hattempt.tally
    have hlong : usesExtendedLength (buildApduExt 0x00 ins p1 p2 data none) = true →
        ¬ data.length ≤ 255 := by
      rw [usesExtendedLength_buildApduExt]
      exact fun h => Nat.not_le.mpr (of_decide_eq_true h)
    have hretry : ∀ after, (after = false → k = 0) → ¬ data.length ≤ 255 →
        (transmitChainWith send label (chainApdu 0x00 ins p1 p2 data n none)).Always D
          (fun r u => ∃ k m, LongOutcome ⟨0x00, ins, p1, p2, data⟩ s u r after k m) t := by
      intro after hafter hext
      refine (hchain htally.idle).mono fun r u hattempt' => ?_
      obtain ⟨k', m', htally', -, haccepted', hrefused', hheard'⟩ := hattempt'.tally
      refine ⟨k + k', m + m', htally.trans htally', fun h => ?_, fun hr h => ?_, hheard',
        fun h => absurd h hext⟩
      · exact Nat.lt_of_lt_of_le (haccepted' h) (Nat.le_add_left k' k)
      · rw [hafter h, hrefused' hr]
    have hdirect : ∀ r, r = direct →
        ∃ k m, LongOutcome ⟨0x00, ins, p1, p2, data⟩ s t r false k m := by
      rintro r rfl
      exact ⟨k, m, htally, haccepted, fun hr _ => hrefused hr, hheard, fun _ => hm⟩
    split
    · next hreader =>
        have hext : usesExtendedLength (buildApduExt 0x00 ins p1 p2 data none) = true := by
          unfold retryChainedAfter at hreader
          split at hreader
          · exact hreader
          · cases hreader
        exact Always.bind ((hretry true nofun (hlong hext)).mono fun r u h => h)
    · split
      · split
        · next hsw =>
            have hk : k = 0 := hrefused hsw.2.1
            exact Always.bind ((hretry false (fun _ => hk) (hlong hsw.1)).mono fun r u h => h)
        · exact hdirect _ rfl
      · exact hdirect _ rfl

/-! ### A certificate -/

/-- The PUT DATA of an object. -/
def putCommand (tag value : List UInt8) : Command :=
  ⟨0x00, INS_PUT_DATA, GET_DATA_P1, GET_DATA_P2, putDataBody tag value⟩

/-- The PUT DATA of a slot's certificate. -/
def certCommand (slot : Slot) (payload : List UInt8) (info : CertInfo) : Command :=
  putCommand slot.certObjectTag (encodeCertificate payload info)

theorem always_putCertificate (hsend : Sends D effect send) (link : LongLink) (slot : Slot)
    (der : List UInt8) (before : Bool) (info : CertInfo) {payload : List UInt8}
    (hfits : (certCommand slot payload info).data.length ≤ 0xFFFF) {s : Card σ}
    (hidle : s.chain = none) :
    (putCertificate send link slot der before info payload).Always D (fun r t =>
      (r.2 = false → before = false) ∧
        ∃ k m, WriteOutcome (certCommand slot payload info) s t r.1 r.2 k m) s := by
  unfold putCertificate putCertObjectWith
  refine Always.bind (Always.bind ((always_sendLong hsend link CERT_LABEL INS_PUT_DATA
    GET_DATA_P1 GET_DATA_P2 hfits (by decide : 0 < CHAIN_CHUNK) (by decide) _ hidle).mono ?_))
  rintro ⟨result, after⟩ t ⟨k, m, h⟩
  have houtcome := (reports_certWriteResult slot der.length).outcome h (before || after)
    fun hor => (Bool.or_eq_false_iff.mp hor).2
  have hbefore : (before || after) = false → before = false :=
    fun hor => (Bool.or_eq_false_iff.mp hor).1
  cases hsw : chainedCertSw result with
  | error e =>
      rw [hsw] at houtcome
      exact ⟨hbefore, k, m, houtcome⟩
  | ok sw =>
      rw [hsw] at houtcome
      exact ⟨hbefore, k, m, houtcome⟩

/-- The write a result of `storeCertificate` describes. -/
def storedPayload (der gz : List UInt8) (result : CertImport) : List UInt8 :=
  if result.compressed then gz else der

def storedCommand (slot : Slot) (der gz : List UInt8) (result : CertImport) : Command :=
  certCommand slot (storedPayload der gz result)
    (if result.compressed then .gzip else .uncompressed)

/-- How storing a certificate went: `cs` was carried out, `ss` was sent complete. A result describes
the last of `cs`; after a refusal there is none, unless the reader failed before; and what fits a
short APDU was not sent twice. -/
structure StoreOutcome (slot : Slot) (der gz : List UInt8) (s t : Card σ)
    (r : Tried CertImport) (after : Bool) (cs ss : List Command) : Prop where
  idle : t.chain = none
  applied : t.applied = s.applied ++ cs
  sent : t.sent = s.sent ++ ss
  ours : ∀ c ∈ cs, c = certCommand slot der .uncompressed ∨ c = certCommand slot gz .gzip
  stored : ∀ result, r = .ok result →
    cs.getLast? = some (storedCommand slot der gz result) ∧
      result.storedLen = (storedPayload der gz result).length ∧
      (storedCommand slot der gz result).data.length ≤ 0xFFFF
  refused : ∀ e, r = .error e → cardRefused e = true → after = false → cs = []
  heard : ∀ e, r = .error e → cardRefused e = true ∨ ∃ p, e = .pcsc p
  once : ∀ c, c.data.length ≤ 255 → ss.count c ≤ 1

/-- The forms of a certificate that may be written fit the command that writes them. -/
structure CertFits (gzipMember : List UInt8 → List UInt8) (slot : Slot) (der : List UInt8)
    (compression : CertCompression) : Prop where
  plain : compression ≠ .always → (certCommand slot der .uncompressed).data.length ≤ 0xFFFF
  gzip : compression ≠ .never →
    (certCommand slot (gzipMember der) .gzip).data.length ≤ 0xFFFF

/-- The two forms of one slot's certificate are never the same command. -/
theorem certCommand_ne (slot : Slot) (der gz : List UInt8) :
    certCommand slot der .uncompressed ≠ certCommand slot gz .gzip := by
  intro h
  have hdata := congrArg (fun c => c.data.reverse.take 3) h
  simp [certCommand, putCommand, putDataBody, pushTlv, encodeCertificate, CertInfo.byte,
    pushBerLen] at hdata

theorem getLast?_replicate_of_pos {α : Type} {k : Nat} (h : 0 < k) (before : List α) (a : α) :
    (before ++ List.replicate k a).getLast? = some a := by
  obtain ⟨k, rfl⟩ := Nat.exists_eq_succ_of_ne_zero (Nat.ne_of_gt h)
  rw [List.replicate_succ', ← List.append_assoc, List.getLast?_concat]

/-- Some uncompressed writes, then some compressed ones. -/
theorem storeOutcome_of_tallies {slot : Slot} {der gz : List UInt8} {s t u : Card σ}
    {r : Tried CertImport} {after : Bool} {k m k' m' : Nat}
    (hplain : Tally (certCommand slot der .uncompressed) s t k m)
    (hgz : Tally (certCommand slot gz .gzip) t u k' m')
    (hstored : ∀ result, r = .ok result →
      (List.replicate k (certCommand slot der .uncompressed) ++
        List.replicate k' (certCommand slot gz .gzip)).getLast? =
          some (storedCommand slot der gz result) ∧
        result.storedLen = (storedPayload der gz result).length ∧
        (storedCommand slot der gz result).data.length ≤ 0xFFFF)
    (hrefused : ∀ e, r = .error e → cardRefused e = true → after = false → k = 0 ∧ k' = 0)
    (hheard : ∀ e, r = .error e → cardRefused e = true ∨ ∃ p, e = .pcsc p)
    (honce : (certCommand slot der .uncompressed).data.length ≤ 255 → m ≤ 1)
    (honce' : (certCommand slot gz .gzip).data.length ≤ 255 → m' ≤ 1) :
    ∃ cs ss, StoreOutcome slot der gz s u r after cs ss := by
  refine ⟨_, List.replicate m (certCommand slot der .uncompressed) ++
    List.replicate m' (certCommand slot gz .gzip), hgz.idle, ?_, ?_, ?_, hstored, ?_, hheard, ?_⟩
  · rw [hgz.applied, hplain.applied, List.append_assoc]
  · rw [hgz.sent, hplain.sent, List.append_assoc]
  · intro c hc
    exact (List.mem_append.mp hc).imp List.eq_of_mem_replicate List.eq_of_mem_replicate
  · intro e he hcard hafter
    obtain ⟨rfl, rfl⟩ := hrefused e he hcard hafter
    rfl
  · intro c hc
    have hne := certCommand_ne slot der gz
    rw [List.count_append, List.count_replicate, List.count_replicate]
    by_cases hp : certCommand slot der .uncompressed = c
    · have hg : ¬ certCommand slot gz .gzip = c := fun h => hne (hp.trans h.symm)
      rw [if_pos (beq_iff_eq.mpr hp), if_neg (fun h => hg (beq_iff_eq.mp h)), Nat.add_zero]
      exact honce (hp ▸ hc)
    · rw [if_neg (fun h => hp (beq_iff_eq.mp h)), Nat.zero_add]
      by_cases hg : certCommand slot gz .gzip = c
      · rw [if_pos (beq_iff_eq.mpr hg)]
        exact honce' (hg ▸ hc)
      · rw [if_neg (fun h => hg (beq_iff_eq.mp h))]
        exact Nat.zero_le 1

theorem Tally.refl {c : Command} {s : Card σ} (hidle : s.chain = none) : Tally c s s 0 0 :=
  ⟨hidle, (List.append_nil _).symm, (List.append_nil _).symm⟩

/-- The compressed write, after `k` carried out and `m` sent uncompressed ones. -/
theorem always_storeCompressed (hsend : Sends D effect send) (link : LongLink) (slot : Slot)
    (der gz : List UInt8) (tried before : Bool) {k m : Nat} {start s : Card σ}
    (hfits : (certCommand slot gz .gzip).data.length ≤ 0xFFFF)
    (hplain : Tally (certCommand slot der .uncompressed) start s k m)
    (hnone : before = false → k = 0)
    (honce : (certCommand slot der .uncompressed).data.length ≤ 255 → m ≤ 1) :
    (storeCompressed slot der gz tried (putCertificate send link slot der) before).Always D
      (fun r t => ∃ cs ss, StoreOutcome slot der gz start t r.1 r.2 cs ss) s := by
  unfold storeCompressed
  refine Always.bind ((always_putCertificate hsend link slot der before .gzip hfits
    hplain.idle).mono ?_)
  rintro ⟨result, after⟩ t ⟨hbefore, k', m', h⟩
  rcases result with e | ⟨⟩
  · have hzero : cardRefused e = true → after = false → k = 0 ∧ k' = 0 :=
      fun hcard hafter => ⟨hnone (hbefore hafter), h.refused e rfl hcard hafter⟩
    have hkeeps : ∃ cs ss, StoreOutcome slot der gz start t (.error e) after cs ss :=
      storeOutcome_of_tallies hplain h.toTally nofun (fun e' he => Except.error.inj he ▸ hzero)
        (fun e' he => Except.error.inj he ▸ h.heard e rfl) honce h.once
    cases e with
    | pivCertTooLarge s' len c =>
        refine storeOutcome_of_tallies hplain h.toTally nofun (fun e' he hcard hafter => ?_) ?_
          honce h.once
        · exact hzero rfl hafter
        · intro e' he
          cases he
          exact .inl rfl
    | _ => exact hkeeps
  · refine storeOutcome_of_tallies hplain h.toTally (fun stored hok => ?_) nofun nofun honce
      h.once
    cases hok
    exact ⟨getLast?_replicate_of_pos (h.accepted rfl) _ _, rfl, hfits⟩

theorem always_storeCertificate (hsend : Sends D effect send)
    (gzipMember : List UInt8 → List UInt8) (link : LongLink) (slot : Slot) (der : List UInt8)
    {compression : CertCompression} (hfits : CertFits gzipMember slot der compression)
    {s : Card σ} (hidle : s.chain = none) :
    (storeCertificate gzipMember slot der compression (putCertificate send link slot der)).Always
      D (fun r t => ∃ cs ss, StoreOutcome slot der (gzipMember der) s t r.1 r.2 cs ss) s := by
  simp only [storeCertificate]
  split
  · next htried =>
    refine Always.bind ((always_putCertificate hsend link slot der false .uncompressed
      (hfits.plain (bne_iff_ne.mp htried)) hidle).mono ?_)
    rintro ⟨result, after⟩ t ⟨-, k, m, h⟩
    have hrefl : Tally (certCommand slot (gzipMember der) .gzip) t t 0 0 := .refl h.idle
    rcases result with e | ⟨⟩
    · have hkeeps : ∃ cs ss, StoreOutcome slot der (gzipMember der) s t (.error e) after cs ss :=
        storeOutcome_of_tallies h.toTally hrefl nofun
          (fun e' he hcard hafter => ⟨h.refused e rfl (Except.error.inj he ▸ hcard) hafter, rfl⟩)
          (fun e' he => Except.error.inj he ▸ h.heard e rfl) h.once fun _ => Nat.zero_le 1
      cases e with
      | pivCertTooLarge s' len c =>
          show Always D _ (if compression = .auto then _ else _) t
          split
          · next hauto =>
            have hgz := hfits.gzip (by rw [hauto]; exact nofun)
            exact always_storeCompressed hsend link slot der (gzipMember der) _ after hgz
              h.toTally (fun hafter => h.refused _ rfl rfl hafter) h.once
          · exact hkeeps
      | _ => exact hkeeps
    · refine storeOutcome_of_tallies h.toTally hrefl (fun stored hok => ?_) nofun nofun h.once
        fun _ => Nat.zero_le 1
      cases hok
      have hlast := getLast?_replicate_of_pos (h.accepted rfl) []
        (certCommand slot der .uncompressed)
      rw [List.nil_append] at hlast
      rw [List.replicate_zero, List.append_nil]
      exact ⟨hlast, rfl, hfits.plain (bne_iff_ne.mp htried)⟩
  · next htried =>
    have halways : compression = .always := by
      by_contra hne
      exact htried (bne_iff_ne.mpr hne)
    exact always_storeCompressed hsend link slot der (gzipMember der) _ false
      (hfits.gzip (by rw [halways]; exact nofun)) (.refl hidle) (fun _ => rfl)
      fun _ => Nat.zero_le 1

/-! ### What is reported -/

/-- What a report of a long write says of the commands it carried out (`cs`) and sent (`ss`):
success names the last one, a refusal means none, and nothing but a reader error or an
unconfirmed write is reported otherwise. -/
structure Honest {α : Type} (r : Tried α) (cs ss : List Command) (last : α → Command) :
    Prop where
  stored : ∀ a, r = .ok a → cs.getLast? = some (last a)
  refused : ∀ e, r = .error e → cardRefused e = true → cs = []
  otherwise : ∀ e, r = .error e → cs ≠ [] →
    (∃ p, e = .pcsc p) ∨ ∃ e', e = .pivWriteUnconfirmed e'
  once : ∀ c, c.data.length ≤ 255 → ss.count c ≤ 1

/-- Marking what may have landed as unconfirmed makes the report honest. -/
theorem honest_mapError {α : Type} {r : Tried α} {after : Bool} {cs ss : List Command}
    {last : α → Command} (hstored : ∀ a, r = .ok a → cs.getLast? = some (last a))
    (hrefused : ∀ e, r = .error e → cardRefused e = true → after = false → cs = [])
    (hheard : ∀ e, r = .error e → cardRefused e = true ∨ ∃ p, e = .pcsc p)
    (honce : ∀ c, c.data.length ≤ 255 → ss.count c ≤ 1) :
    Honest (r.mapError (unconfirmedIf after)) cs ss last := by
  rcases r with e | a
  · have hnot : ∀ e', e ≠ .pivWriteUnconfirmed e' := by
      rintro e' rfl
      rcases hheard _ rfl with h | ⟨p, h⟩
      · cases h
      · cases h
    have hmark : unconfirmedIf after e = if after then .pivWriteUnconfirmed e else e := by
      cases e with
      | pivWriteUnconfirmed e' => exact absurd rfl (hnot e')
      | _ => rfl
    refine ⟨nofun, fun e' he hcard => ?_, fun e' he hne => ?_, honce⟩
    · obtain rfl := Except.error.inj he
      rw [hmark] at hcard
      cases after with
      | true => cases hcard
      | false => exact hrefused e rfl hcard rfl
    · obtain rfl := Except.error.inj he
      rw [hmark]
      cases after with
      | true => exact .inr ⟨e, rfl⟩
      | false =>
          rcases hheard e rfl with hcard | hlost
          · exact absurd (hrefused e rfl hcard rfl) hne
          · exact .inl hlost
  · exact ⟨fun b hb => hstored b hb, nofun, nofun, honce⟩

/-- The state after a report, and what the report says. `cs` was carried out and `ss` sent complete,
all of it commands of this write. -/
structure Reported {α : Type} (s t : Card σ) (r : Tried α) (last : α → Command)
    (ours : Command → Prop) (cs ss : List Command) : Prop where
  idle : t.chain = none
  applied : t.applied = s.applied ++ cs
  sent : t.sent = s.sent ++ ss
  ours : ∀ c ∈ cs, ours c
  honest : Honest r cs ss last

theorem always_sendCertificate (hsend : Sends D effect send)
    (gzipMember : List UInt8 → List UInt8) (link : LongLink) (slot : Slot) (der : List UInt8)
    {compression : CertCompression} (hfits : CertFits gzipMember slot der compression)
    {s : Card σ} (hidle : s.chain = none) :
    (sendCertificate send gzipMember link slot der compression).Always D (fun r t =>
      (∀ result, r = .ok result →
        result.storedLen = (storedPayload der (gzipMember der) result).length ∧
        (storedCommand slot der (gzipMember der) result).data.length ≤ 0xFFFF) ∧
      ∃ cs ss, Reported s t r (storedCommand slot der (gzipMember der))
        (fun c => c = certCommand slot der .uncompressed ∨
          c = certCommand slot (gzipMember der) .gzip) cs ss) s := by
  refine Always.bind ((always_storeCertificate hsend gzipMember link slot der hfits
    hidle).mono ?_)
  rintro ⟨result, after⟩ t ⟨cs, ss, h⟩
  refine ⟨fun stored hok => ?_, cs, ss, h.idle, h.applied, h.sent, h.ours, honest_mapError
    (fun a ha => (h.stored a ha).1) h.refused h.heard h.once⟩
  rcases result with e | a
  · cases hok
  · exact (h.stored stored hok).2

/-- The IMPORT ASYMMETRIC KEY of a body. -/
def importCommand (slot : Slot) (algId : UInt8) (body : List UInt8) : Command :=
  ⟨0x00, INS_IMPORT_KEY, algId, slot.keyRef, body⟩

theorem always_sendImportKey (hsend : Sends D effect send) (link : LongLink) (slot : Slot)
    (algId : UInt8) {body : List UInt8} (hfits : body.length ≤ 0xFFFF) {s : Card σ}
    (hidle : s.chain = none) :
    (sendImportKey send link slot algId body).Always D (fun r t => ∃ cs ss,
      Reported s t r (fun _ => importCommand slot algId body)
        (· = importCommand slot algId body) cs ss) s := by
  refine Always.bind ((always_sendLong hsend link KEY_LABEL INS_IMPORT_KEY algId slot.keyRef
    hfits (by decide : 0 < max 1 (min CHAIN_CHUNK 255)) (by decide) keyImportRetrySw
    hidle).mono ?_)
  rintro ⟨result, after⟩ t ⟨k, m, h⟩
  have houtcome := (reports_okOrWrite KEY_LABEL).outcome h after id
  refine ⟨_, _, h.idle, h.applied, h.sent, fun c => List.eq_of_mem_replicate, honest_mapError
    (fun a ha => ?_) (fun e he hcard hafter => ?_) houtcome.heard fun c hc => ?_⟩
  · exact getLast?_replicate_of_pos (houtcome.accepted ha) [] _
  · rw [houtcome.refused e he hcard hafter]
    rfl
  · rw [List.count_replicate]
    split
    · next heq => exact h.once (beq_iff_eq.mp heq ▸ hc)
    · exact Nat.zero_le 1

end Send

/-! ### Results -/

/-- One APDU through a reader. -/
def exchange (apdu : List UInt8) : Dialogue CardReply Reply :=
  .ask apdu fun reply => .done (toReply reply)

theorem sends_exchange (effect : Effect σ) : Sends (cardStep effect) effect exchange :=
  fun _ _ _ h reply t hstep => h reply t hstep

/-- **Long writes report honestly**, on every link, to every card that is not in the middle of
a chain, whatever it answers and wherever the reader fails. The chained form of each command
delivers the data of its single APDU. -/
theorem long_writes_are_honest (effect : Effect σ) (link : LongLink) (slot : Slot)
    {s : Card σ} (hidle : s.chain = none) :
    (∀ gzipMember der compression log r t, CertFits gzipMember slot der compression →
      Runs (cardStep effect) s (sendCertificate exchange gzipMember link slot der compression)
        log r t →
      (∀ result, r = .ok result →
        result.storedLen = (storedPayload der (gzipMember der) result).length) ∧
      ∃ cs ss, t.applied = s.applied ++ cs ∧ t.sent = s.sent ++ ss ∧ t.chain = none ∧
        Honest r cs ss (storedCommand slot der (gzipMember der))) ∧
    (∀ algId body log r t, body.length ≤ 0xFFFF →
      Runs (cardStep effect) s (sendImportKey exchange link slot algId body) log r t →
      ∃ cs ss, t.applied = s.applied ++ cs ∧ t.sent = s.sent ++ ss ∧ t.chain = none ∧
        Honest r cs ss fun _ => importCommand slot algId body) ∧
    (∀ tag value, (putCommand tag value).data.length ≤ 0xFFFF →
      readApdu (putData tag value) = some (false, putCommand tag value) ∧
      assembled none (putDataChained tag value CHAIN_CHUNK) = some (putCommand tag value)) ∧
    (∀ algId body, body.length ≤ 0xFFFF →
      readApdu (importKey slot algId body) = some (false, importCommand slot algId body) ∧
      assembled none (importKeyChained slot algId body CHAIN_CHUNK) =
        some (importCommand slot algId body)) := by
  have hsend := sends_exchange effect
  refine ⟨?_, ?_, ?_, ?_⟩
  · intro gzipMember der compression log r t hfits hrun
    obtain ⟨hlen, cs, ss, h⟩ := always_iff.mp (always_sendCertificate hsend gzipMember link slot
      der hfits hidle) log r t hrun
    exact ⟨fun a ha => (hlen a ha).1, cs, ss, h.applied, h.sent, h.idle, h.honest⟩
  · intro algId body log r t hfits hrun
    obtain ⟨cs, ss, h⟩ := always_iff.mp (always_sendImportKey hsend link slot algId hfits hidle)
      log r t hrun
    exact ⟨cs, ss, h.applied, h.sent, h.idle, h.honest⟩
  · intro tag value hfits
    exact ⟨readApdu_buildApduExt _ _ _ none hfits,
      assembled_chainApdu _ _ _ _ (by decide) (by decide)⟩
  · intro algId body hfits
    exact ⟨readApdu_buildApduExt _ _ _ none hfits,
      assembled_chainApdu _ _ _ _ (by decide) (by decide)⟩

/-! ### A key whose first write fails at the reader -/

def LONG_BODY : List UInt8 := List.replicate 300 0x01

def idleCard : Card Unit := ⟨none, [], [], ()⟩

def READER_FAILED : Except PcscError (List UInt8 × UInt16) := .error ⟨0⟩

def ACCEPTED : Except PcscError (List UInt8 × UInt16) := .ok ([], SW_OK)

def longImport : Command := importCommand .signature 0x11 LONG_BODY

set_option maxRecDepth 8000 in
/-- The extended APDU was carried out and its answer lost, then both links were accepted. -/
theorem runs_longImport : ∃ log, Runs (cardStep fun _ _ _ _ => True) idleCard
    (sendImportKey exchange ⟨none⟩ .signature 0x11 LONG_BODY) log (.ok ())
    ⟨none, [longImport, longImport], [longImport, longImport], ()⟩ := by
  apply Exists.intro
  apply Runs.ask (a := READER_FAILED) (t := ⟨none, [longImport], [longImport], ()⟩)
  · exact ⟨rfl, rfl, .inr ⟨[], trivial, rfl⟩⟩
  apply Runs.ask (a := ACCEPTED) (t := ⟨some ⟨0x00, INS_IMPORT_KEY, 0x11, 0x9C,
    LONG_BODY.take 254⟩, [longImport], [longImport], ()⟩)
  · rfl
  apply Runs.ask (a := ACCEPTED)
    (t := ⟨none, [longImport, longImport], [longImport, longImport], ()⟩)
  · exact ⟨rfl, rfl, trivial, rfl⟩
  · exact .done

set_option maxRecDepth 8000 in
theorem long_writes_are_honest_longImport :
    ∃ cs ss, [longImport, longImport] = [] ++ cs ∧ [longImport, longImport] = [] ++ ss ∧
      (none : Option Command) = none ∧
      Honest (.ok ()) cs ss fun _ => importCommand .signature 0x11 LONG_BODY :=
  have ⟨log, hrun⟩ := runs_longImport
  (long_writes_are_honest (fun _ _ _ _ => True) ⟨none⟩ .signature (s := idleCard) rfl).2.1
    0x11 LONG_BODY log (.ok ()) _ (by decide) hrun

end Keyroost.Piv
