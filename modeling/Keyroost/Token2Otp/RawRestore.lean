import Keyroost.Token2Otp.RawAgreement

/-!
# A lost link

Whatever the card and the reader answer, a result of `rawTransmit` is the answer of one whole
execution of the command. It comes after the last reconnect, and after that the applet on record was
selected.

`Reading` and `Execution` say what a whole execution looks like in the log of the link. `Phase` is
where the loop is, in a first command or in the middle of a long answer, and `rawLoop_executes` is
the induction over its turns, a lost link being one way to start over. `rawTransmit_agrees` adds the
comparison with the applet loop from `RawAgreement`.
-/

namespace Keyroost.Token2Otp

open Dialogue Proto Transport

abbrev LinkLog : Type := List (Asked LinkAnswer)

/-! ### One execution -/

/-- The command as given, or with another Le. -/
def IsSent (apdu sent : List UInt8) : Prop := sent = apdu ∨ ∃ le, sent = resendWithLe apdu le

def answered (sent data : List UInt8) (sw1 sw2 : UInt8) : Asked LinkAnswer :=
  ⟨.transmit sent, .ok (data ++ [sw1, sw2])⟩

/-- The command and the reads after it, all answered `61xx`: their data so far and the last
hint. -/
inductive Reading (apdu : List UInt8) : LinkLog → List UInt8 → UInt8 → Prop
  | command {sent data : List UInt8} {hint : UInt8} (hsent : IsSent apdu sent) :
      Reading apdu [answered sent data 0x61 hint] data hint
  | read {log : LinkLog} {acc data : List UInt8} {le hint : UInt8} (h : Reading apdu log acc le) :
      Reading apdu (log ++ [answered (getResponse le) data 0x61 hint]) (acc ++ data) hint

/-- A whole execution of the command, and its answer. -/
inductive Execution (apdu : List UInt8) : LinkLog → List UInt8 × UInt16 → Prop
  | single {sent data : List UInt8} {sw1 sw2 : UInt8} (hsent : IsSent apdu sent)
      (hend : sw1 ≠ 0x61 ∧ sw1 ≠ 0x6C) :
      Execution apdu [answered sent data sw1 sw2] (data, swOf sw1 sw2)
  | continued {log : LinkLog} {acc data : List UInt8} {le sw1 sw2 : UInt8}
      (h : Reading apdu log acc le) (hend : sw1 ≠ 0x61 ∧ sw1 ≠ 0x6C) :
      Execution apdu (log ++ [answered (getResponse le) data sw1 sw2])
        (acc ++ data, swOf sw1 sw2)

/-! ### The applet that is selected -/

/-- The SELECT of the applet on record, accepted. -/
inductive Selected (aid : List UInt8) : LinkLog → Prop
  | none (haid : aid = []) : Selected aid []
  | accepted {data : List UInt8} (haid : aid ≠ []) :
      Selected aid [⟨.select (buildSelect aid), .ok (data ++ [0x90, 0x00])⟩]

/-- A command of the exchange. -/
def IsTransmit (apdu : List UInt8) (x : Asked LinkAnswer) : Prop :=
  ∃ sent, x.1 = .transmit sent ∧ (IsSent apdu sent ∨ ∃ le, sent = getResponse le)

/-- The link was not lost so far, or was restored with the applet selected again. Of what came
before the restoring nothing is asked. -/
inductive Standing (aid apdu : List UInt8) : LinkLog → Prop
  | kept {log : LinkLog} (h : ∀ x ∈ log, IsTransmit apdu x) : Standing aid apdu log
  | restored {before select log : LinkLog} (hselect : Selected aid select)
      (h : ∀ x ∈ log, IsTransmit apdu x) :
      Standing aid apdu (before ++ [⟨.reconnect, .ok ()⟩] ++ select ++ log)

/-- What a result is: the answer of the execution at the end of the conversation, with the
applet selected when it began. -/
def Executed (aid apdu : List UInt8) (r : RawAnswer) (log : LinkLog) : Prop :=
  ∀ v, r = .ok v → ∃ before execution, log = before ++ execution ∧ Standing aid apdu before ∧
    Execution apdu execution v

theorem Standing.transmit {aid apdu : List UInt8} {log : LinkLog} {x : Asked LinkAnswer}
    (h : Standing aid apdu log) (hx : IsTransmit apdu x) : Standing aid apdu (log ++ [x]) := by
  have hall : ∀ {l : LinkLog}, (∀ y ∈ l, IsTransmit apdu y) →
      ∀ y ∈ l ++ [x], IsTransmit apdu y := by
    intro l hl y hy
    rcases List.mem_append.mp hy with hy | hy
    · exact hl y hy
    · rw [List.mem_singleton.mp hy]
      exact hx
  cases h with
  | kept h => exact .kept (hall h)
  | restored hselect h =>
      rw [List.append_assoc]
      exact .restored hselect (hall h)

theorem Standing.append {aid apdu : List UInt8} {log more : LinkLog}
    (h : Standing aid apdu log) (hmore : ∀ x ∈ more, IsTransmit apdu x) :
    Standing aid apdu (log ++ more) := by
  induction more generalizing log with
  | nil =>
      rw [List.append_nil]
      exact h
  | cons x more ih =>
      rw [List.append_cons]
      exact ih (h.transmit (hmore x List.mem_cons_self))
        fun y hy => hmore y (List.mem_cons_of_mem _ hy)

theorem Reading.transmits {apdu acc : List UInt8} {log : LinkLog} {le : UInt8}
    (h : Reading apdu log acc le) : ∀ x ∈ log, IsTransmit apdu x := by
  induction h with
  | command hsent =>
      intro x hx
      rw [List.mem_singleton.mp hx]
      exact ⟨_, rfl, .inl hsent⟩
  | read _ ih =>
      intro x hx
      rcases List.mem_append.mp hx with hx | hx
      · exact ih x hx
      · rw [List.mem_singleton.mp hx]
        exact ⟨_, rfl, .inr ⟨_, rfl⟩⟩

/-! ### The loop -/

/-- Where the loop stands: the command is to be sent, or read on. A loss of the link throws it back
to the first, with nothing collected. -/
inductive Phase (aid apdu : List UInt8) : LinkLog → List UInt8 → List UInt8 → Prop
  | command {log : LinkLog} {sent : List UInt8} (h : Standing aid apdu log)
      (hsent : IsSent apdu sent) : Phase aid apdu log [] sent
  | reading {before log : LinkLog} {acc : List UInt8} {le : UInt8}
      (h : Standing aid apdu before) (hreading : Reading apdu log acc le) :
      Phase aid apdu (before ++ log) acc (getResponse le)

section Loop

variable {aid apdu acc toSend data : List UInt8} {log : LinkLog} {hint le sw1 sw2 : UInt8}

theorem Phase.more (h : Phase aid apdu log acc toSend) :
    Phase aid apdu (log ++ [answered toSend data 0x61 hint]) (acc ++ data) (getResponse hint) := by
  cases h with
  | command h hsent => exact .reading h (.command hsent)
  | reading h hreading =>
      rw [List.append_assoc]
      exact .reading h hreading.read

theorem Phase.standing (h : Phase aid apdu log acc toSend) : Standing aid apdu log := by
  cases h with
  | command h => exact h
  | reading h hreading => exact h.append hreading.transmits

theorem Phase.isTransmit (h : Phase aid apdu log acc toSend) (answer : Except PcscError (List UInt8)) :
    IsTransmit apdu ⟨.transmit toSend, answer⟩ := by
  cases h with
  | command _ hsent => exact ⟨_, rfl, .inl hsent⟩
  | reading => exact ⟨_, rfl, .inr ⟨_, rfl⟩⟩

theorem Phase.wrongLe (h : Phase aid apdu log acc toSend) :
    Phase aid apdu (log ++ [answered toSend data 0x6C le]) [] (resendWithLe apdu le) :=
  .command (h.standing.transmit (h.isTransmit _)) (.inr ⟨le, rfl⟩)

theorem Phase.last (h : Phase aid apdu log acc toSend) (hend : sw1 ≠ 0x61 ∧ sw1 ≠ 0x6C) :
    Executed aid apdu (.ok (acc ++ data, swOf sw1 sw2))
      (log ++ [answered toSend data sw1 sw2]) := by
  intro v hv
  cases hv
  cases h with
  | command h hsent => exact ⟨log, _, rfl, h, .single hsent hend⟩
  | reading h hreading =>
      rw [List.append_assoc]
      exact ⟨_, _, rfl, h, .continued hreading hend⟩

theorem executed_error {e : OtpTransportError} : Executed aid apdu (.error e) log := nofun

end Loop

theorem mapError_ok {ε ε' : Type} {r : Except ε Unit} {f : ε → ε'} (h : r.mapError f = .ok ()) :
    r = .ok () := by
  cases r with
  | error e => cases h
  | ok u => rfl

theorem readSelect_ok {answer : Except PcscError (List UInt8)} (h : readSelect answer = .ok ()) :
    ∃ data, answer = .ok (data ++ [0x90, 0x00]) := by
  rcases answer with e | resp
  · cases h
  · by_cases hroom : SELECT_BUFFER < resp.length
    · simp only [readSelect, if_pos hroom] at h
      cases h
    · rcases hsplit : splitSw resp with _ | ⟨data, sw1, sw2⟩
      · simp only [readSelect, if_neg hroom, hsplit] at h
        cases h
      · simp only [readSelect, if_neg hroom, hsplit] at h
        have hsw : swOf sw1 sw2 = swOf 0x90 0x00 := OtpError.check_ok (mapError_ok h)
        obtain ⟨rfl, rfl⟩ := swOf_inj hsw
        exact ⟨data, congrArg Except.ok (eq_of_splitSw hsplit)⟩

section Run

variable {σ : Type} {D : Dialogue.Device LinkAnswer σ} {d : σ} {aid apdu : List UInt8}

/-- The link is restored with the applet selected, or the run ends in an error. -/
theorem restore_standing {log : LinkLog} :
    (restore aid).Always (logged D) (fun r t => r = .ok () → Standing aid apdu t.2) (d, log) := by
  rintro (e | ⟨⟩) ⟨t, log'⟩ ⟨-, rfl : log' = _⟩
  · exact nofun
  · by_cases haid : aid = []
    · simp only [if_pos haid]
      intro _
      have h : Standing aid apdu (log ++ [⟨.reconnect, .ok ()⟩] ++ [] ++ []) :=
        .restored (.none haid) nofun
      rw [List.append_nil, List.append_nil] at h
      exact h
    · simp only [if_neg haid]
      rintro answer ⟨t, log'⟩ ⟨-, rfl : log' = _⟩
      intro hok
      obtain ⟨data, rfl⟩ := readSelect_ok hok
      have h : Standing aid apdu (log ++ [⟨.reconnect, .ok ()⟩] ++
          [⟨.select (buildSelect aid), .ok (data ++ [0x90, 0x00])⟩] ++ []) :=
        .restored (.accepted haid) nofun
      rw [List.append_nil] at h
      exact h

theorem rawLoop_executes {n : Nat} {retriesLeft leLeft left : Nat} {acc toSend : List UInt8}
    {log : LinkLog} (hn : (retriesLeft + leLeft) * (MAX_CHUNKS + 1) + left < n)
    (hleft : left ≤ MAX_CHUNKS) (hphase : Phase aid apdu log acc toSend) :
    (rawLoop aid apdu retriesLeft leLeft left acc toSend).Always (logged D)
      (fun r t => Executed aid apdu r t.2) (d, log) := by
  induction n generalizing retriesLeft leLeft left acc toSend log d with
  | zero => exact absurd hn (Nat.not_lt_zero _)
  | succ n ih =>
      rw [rawLoop]
      rintro answer ⟨t, log'⟩ ⟨-, rfl : log' = _⟩
      rcases hreceived : received answer with e | resp
      · cases retriesLeft with
        | zero =>
            simp only [hreceived]
            exact executed_error
        | succ retriesLeft =>
            by_cases hlost : LinkLost e
            · simp only [hreceived, if_pos hlost]
              have hrestore : (restore aid).Always (logged D)
                  (fun r t => r = .ok () → Standing aid apdu t.2) (t, log ++ [⟨_, answer⟩]) :=
                restore_standing
              refine Always.andThen (hrestore.mono ?_)
              rintro r ⟨t, log'⟩ hr
              refine ⟨fun _ _ => executed_error, ?_⟩
              rintro ⟨⟩ rfl
              refine ih ?_ (Nat.le_refl _) (.command (hr rfl) (.inl rfl))
              simp only [MAX_CHUNKS] at hn ⊢
              omega
            · simp only [hreceived, if_neg hlost]
              exact executed_error
      · obtain ⟨rfl, -⟩ := received_ok hreceived
        rcases hsplit : splitSw resp with _ | ⟨data, sw1, sw2⟩
        · simp only [hreceived, hsplit]
          exact executed_error
        · have hresp := eq_of_splitSw hsplit
          subst hresp
          simp only [hreceived, hsplit]
          cases left with
          | zero => exact executed_error
          | succ left =>
              by_cases hsize : MAX_DATA < (acc ++ data).length
              · simp only [if_pos hsize]
                exact executed_error
              · by_cases hmore : sw1 = 0x61
                · subst hmore
                  simp only [if_neg hsize, if_true]
                  exact ih (by omega) (by omega) hphase.more
                · by_cases hle : sw1 = 0x6C
                  · subst hle
                    simp only [if_neg hsize, if_neg hmore, if_true]
                    cases leLeft with
                    | zero => exact executed_error
                    | succ leLeft =>
                        refine ih ?_ (Nat.le_refl _) hphase.wrongLe
                        simp only [MAX_CHUNKS] at hn ⊢
                        omega
                  · simp only [if_neg hsize, if_neg hmore, if_neg hle]
                    exact hphase.last ⟨hmore, hle⟩

end Run

theorem rawTransmit_executes (currentAid apdu : List UInt8) {σ : Type} (D : Dialogue.Device LinkAnswer σ)
    (d : σ) : (rawTransmit currentAid apdu).Always (logged D)
      (fun r t => Executed (recordSelect currentAid apdu) apdu r t.2) (d, []) :=
  rawLoop_executes (Nat.lt_succ_self _) (Nat.le_refl _) (.command (.kept nofun) (.inl rfl))

/-- **The OTP loop and the applet loop**: given the same answers they send the same APDUs and
return the same exactly when no GET RESPONSE is answered with another Le. Over a link that is
lost and restored, a result is the answer of one whole execution after the last restore, with
the applet on record selected. -/
theorem rawTransmit_agrees (label : String) (currentAid : List UInt8) (cmd : ShortApdu)
    (answers : List (List UInt8)) (hfits : ∀ resp ∈ answers, resp.length ≤ RECV_BUFFER)
    (hlimits : WithinLimits (rawRun currentAid cmd answers).2 (appletRun label cmd answers).2) :
    (Agrees cmd answers (rawRun currentAid cmd answers) (appletRun label cmd answers) ↔
      Undisturbed cmd answers) ∧
    ∀ (apdu : List UInt8) {σ : Type} (D : Dialogue.Device LinkAnswer σ) (d : σ),
      (rawTransmit currentAid apdu).Always (logged D)
        (fun r t => Executed (recordSelect currentAid apdu) apdu r t.2) (d, []) :=
  ⟨rawRun_agrees_iff label currentAid cmd answers hfits hlimits, rawTransmit_executes currentAid⟩

/-! ### Another Le in the middle of a read -/

def READ_ENTRIES : ShortApdu := ⟨0x80, 0xC5, 0x05, 0x00, [0x01], none, Nat.le_of_ble_eq_true rfl⟩

def PARTED : List (List UInt8) := [[0x01, 0x61, 0x01], [0x6C, 0x01], [0x02, 0x90, 0x00]]

theorem rawRun_parted : rawRun [] READ_ENTRIES PARTED =
    ([.transmit READ_ENTRIES.bytes, .transmit (getResponse 0x01),
      .transmit (READ_ENTRIES.withLe 0x01).bytes], some (.ok ([0x02], 0x9000))) := by
  rw [rawRun, rawTransmit, rawLoop]
  show Prod.map _ _ ((rawLoop _ _ 3 4 63 [0x01] (getResponse 0x01)).scripted _ _) = _
  rw [rawLoop]
  show Prod.map _ _ (Prod.map _ _ ((rawLoop _ _ 3 3 64 []
    (READ_ENTRIES.withLe 0x01).bytes).scripted _ _)) = _
  rw [rawLoop]
  rfl

theorem appletRun_parted : appletRun "otp" READ_ENTRIES PARTED =
    ([READ_ENTRIES.bytes, getResponse 0x01, getResponse 0x01],
      some (.ok ([0x01, 0x02], 0x9000))) := by
  rw [appletRun, transmitApplet, transmitLoop]
  show Prod.map _ _ ((transmitLoop _ 4095 (getResponse 0x01) [0x01]).scripted _ _) = _
  rw [transmitLoop]
  show Prod.map _ _
    (Prod.map _ _ ((transmitLoop _ 4094 (getResponse 0x01) [0x01]).scripted _ _)) = _
  rw [transmitLoop]
  rfl

theorem withinLimits_parted : WithinLimits (rawRun [] READ_ENTRIES PARTED).2
    (appletRun "otp" READ_ENTRIES PARTED).2 := by
  rw [rawRun_parted, appletRun_parted]
  exact ⟨nofun, nofun, nofun, nofun⟩

/-- The OTP loop sends the command a second time and drops the first byte of the answer. -/
theorem parted_runs_differ : (∀ resp ∈ PARTED, resp.length ≤ RECV_BUFFER) ∧
    WithinLimits (rawRun [] READ_ENTRIES PARTED).2 (appletRun "otp" READ_ENTRIES PARTED).2 ∧
    ¬ Agrees READ_ENTRIES PARTED (rawRun [] READ_ENTRIES PARTED)
      (appletRun "otp" READ_ENTRIES PARTED) := by
  refine ⟨by decide, withinLimits_parted, fun h => ?_⟩
  have hsent := h.sent
  rw [rawRun_parted, appletRun_parted] at hsent
  exact absurd hsent (by decide)

theorem rawTransmit_agrees_parted :
    (Agrees READ_ENTRIES PARTED (rawRun [] READ_ENTRIES PARTED)
      (appletRun "otp" READ_ENTRIES PARTED) ↔ Undisturbed READ_ENTRIES PARTED) :=
  (rawTransmit_agrees "otp" [] READ_ENTRIES PARTED (by decide) withinLimits_parted).1

end Keyroost.Token2Otp
