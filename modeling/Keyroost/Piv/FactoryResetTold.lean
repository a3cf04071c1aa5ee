import Keyroost.Piv.FactoryReset
import Keyroost.Piv.ImportRunHonest

/-!
# What a factory reset tells

Every outcome tells which applet's reset the card carried out, and an error that none was; no
command of a reset reaches the applet that it is not for, unless the selection of PIV afterwards
got no answer; and tries of the PIN and of the PUK are spent only where that is the plan. So it is
over whole sessions, with other work on the management key in between.

A ghost state goes along with the conversation (`Course`): the applet that is selected and the
resets that were carried out. Every function of `FactoryReset` has a lemma on what it leaves of that
state, in the order in which the source calls them, and the programs embedded in it keep theirs by
simulation (`simulates_answerReset`). What is spent is read off the log of the conversation instead,
since it is a matter of which commands were sent.

The three results have samples in which a card burns its tries, wipes itself, or answers nothing
after a reset, and `reset_went_astray` is the exception that the first statement has to make.
-/

namespace Keyroost.Piv

open Transport Proto Dialogue Session

/-! ### The course of a reset -/

inductive SelectedApplet where
  | piv
  | aca
  | unknown
deriving DecidableEq, Repr

/-- What has come of the commands so far: the applet that the card has selected, whether a
command went to another one than it is for, whether a selection of PIV got no answer, and
whether RESET and whether RESET CARD was carried out. -/
structure Course where
  selected : SelectedApplet
  astray : Bool
  lost : Bool
  reset : Bool
  cardReset : Bool
deriving DecidableEq, Repr

def granted {ε : Type} : Except ε (List UInt8 × UInt16) → Bool
  | .ok (_, sw) => sw == SW_OK
  | .error _ => false

def selectedAfter (before target : SelectedApplet) : Sent → SelectedApplet
  | .ok (_, sw) => if sw = SW_OK then target else before
  | .error _ => .unknown

namespace Course

/-- A session that has selected PIV finds it selected. -/
def start (appletSelected : Bool) : Course where
  selected := if appletSelected then .piv else .unknown
  astray := false
  lost := false
  reset := false
  cardReset := false

def see (c : Course) : Asked FactoryAnswer → Course
  | ⟨.transmit apdu, a⟩ =>
      { c with
        astray := c.astray || c.selected != .piv
        reset := c.reset || (apdu == Piv.reset && granted a) }
  | ⟨.transmitRaw apdu, a⟩ =>
      if apdu = selectByAid HID_CRESCENDO_ACA_AID then
        { c with selected := selectedAfter c.selected .aca a }
      else if apdu = selectFull ∨ apdu = selectShort then
        { c with selected := selectedAfter c.selected .piv a, lost := c.lost || !a.isOk }
      else
        { c with
          astray := c.astray || c.selected != .aca
          cardReset := c.cardReset || (apdu == HID_CRESCENDO_ACA_RESET_CARD && granted a) }
  | _ => c

/-- What was carried out, and that commands went astray only after a lost selection. `reset` and
`cardReset` are what a result is taken to say. -/
structure Tells (c : Course) (reset cardReset : Bool) : Prop where
  astray : c.astray = true → c.lost = true
  reset : c.reset = reset
  cardReset : c.cardReset = cardReset

/-- Between two pieces of work: PIV is selected if the session takes it to be. The exception is a
selection that got no answer, which the session takes for a success. -/
structure AtPiv (c : Course) (reset cardReset appletSelected : Bool) : Prop
    extends c.Tells reset cardReset where
  selected : appletSelected = true → c.selected = .piv ∨ c.lost = true

/-- While the other applet is selected. -/
structure AtAca (c : Course) (reset cardReset : Bool) : Prop extends c.Tells reset cardReset where
  selected : c.selected = .aca

end Course

open Course

/-- A device that answers anything. -/
def anyCard : Device FactoryAnswer Course := watch Course.see

section Course

variable {c : Course} {b ρ κ : Bool} {apdu : List UInt8}

/-! ### Selecting -/

theorem ensures_askFor {q : FactoryAsk} {Post : FactoryAnswer q → Bool → Course → Prop}
    (h : ∀ a, Post a b (c.see ⟨q, a⟩)) : Ensures anyCard Post (askFor q) b c := by
  intro a t hstep
  have ht : t = c.see ⟨q, a⟩ := hstep
  rw [ht]
  exact h a

theorem see_selectPiv (happ : apdu = selectFull ∨ apdu = selectShort) (a : Sent) :
    c.see ⟨.transmitRaw apdu, a⟩ =
      { c with selected := selectedAfter c.selected .piv a, lost := c.lost || !a.isOk } := by
  have hne : apdu ≠ selectByAid HID_CRESCENDO_ACA_AID := by
    rcases happ with rfl | rfl
    · decide
    · decide
  show (if _ then _ else if _ then _ else _) = _
  rw [if_neg hne, if_pos happ]

theorem ensures_selectPiv (happ : apdu = selectFull ∨ apdu = selectShort) (hc : c.Tells ρ κ) :
    Ensures anyCard (fun a b' c' => b' = b ∧ c'.Tells ρ κ ∧
      (∀ e, a = .error e → c'.lost = true) ∧
      ∀ data, a = .ok (data, SW_OK) → c'.selected = .piv) (sendRaw apdu) b c := by
  refine ensures_askFor (q := .transmitRaw apdu) fun a => ?_
  rw [see_selectPiv happ]
  refine ⟨rfl, ⟨fun h => ?_, hc.reset, hc.cardReset⟩, ?_, ?_⟩
  · show (c.lost || _) = true
    rw [hc.astray h, Bool.true_or]
  · rintro e rfl
    exact Bool.or_true _
  · rintro data rfl
    rfl

theorem ensures_judgeSelect {label : String} {sw : UInt16} (hc : c.Tells ρ κ)
    (hsel : sw = SW_OK → c.selected = .piv) :
    Ensures anyCard (fun r b' c' => c'.AtPiv ρ κ b' ∧ (r = .ok () → b' = true))
      (judgeSelect label sw) b c := by
  refine ensures_bind (ensures_set (ensures_pure ⟨⟨hc, fun h => ?_⟩, fun h => ?_⟩))
  · exact .inl (hsel (of_decide_eq_true h))
  · by_cases hsw : sw = SW_OK
    · exact decide_eq_true hsw
    · rw [if_neg hsw] at h
      cases h

/-- After a selection of PIV, the session takes it to be selected only if it is, or if the
selection got no answer. -/
theorem ensures_sessionSelect (hc : c.Tells ρ κ) :
    Ensures anyCard (fun r b' c' => c'.AtPiv ρ κ b' ∧ (r = .ok () → b' = true))
      sessionSelect b c := by
  refine ensures_andThen ((ensures_selectPiv (.inl rfl) hc).mono ?_)
  rintro a b' c' ⟨rfl, hc', hlost, hpiv⟩
  refine ⟨fun e he => ⟨⟨hc', fun _ => .inr (hlost e he)⟩, nofun⟩, ?_⟩
  rintro ⟨data, sw⟩ rfl
  by_cases hfound : sw = SW_NOT_FOUND
  · simp only [hfound, if_true]
    refine ensures_andThen ((ensures_selectPiv (.inr rfl) hc').mono ?_)
    rintro a b'' c'' ⟨rfl, hc'', hlost', hpiv'⟩
    refine ⟨fun e he => ⟨⟨hc'', fun _ => .inr (hlost' e he)⟩, nofun⟩, ?_⟩
    rintro ⟨data', sw'⟩ rfl
    by_cases hfound' : sw' = SW_NOT_FOUND
    · simp only [hfound', if_true]
      exact ensures_bind (ensures_set (ensures_pure ⟨⟨hc'', nofun⟩, nofun⟩))
    · simp only [hfound', if_false]
      exact ensures_judgeSelect hc'' fun hsw => hpiv' data' (hsw ▸ rfl)
  · simp only [hfound, if_false]
    exact ensures_judgeSelect hc' fun hsw => hpiv data (hsw ▸ rfl)

theorem ensures_ensureSelected (hc : c.AtPiv ρ κ b) :
    Ensures anyCard (fun r b' c' => c'.AtPiv ρ κ b' ∧ (r = .ok () → b' = true))
      ensureSelected b c := by
  refine ensures_bind (ensures_get ?_)
  cases b with
  | true => exact ensures_pure ⟨hc, fun _ => rfl⟩
  | false => exact ensures_sessionSelect hc.toTells

theorem ensures_transmitFull (apdu : List UInt8) (hc : c.AtPiv ρ κ b) :
    Ensures anyCard (fun a b' c' => c'.AtPiv (ρ || (apdu == reset && granted a)) κ b')
      (transmitFull apdu) b c := by
  refine ensures_andThen ((ensures_ensureSelected hc).mono ?_)
  rintro r b' c' ⟨hc', hselected⟩
  refine ⟨fun e _ => ?_, ?_⟩
  · simpa only [granted, Bool.and_false, Bool.or_false] using hc'
  · rintro ⟨⟩ rfl
    refine ensures_askFor (q := .transmit apdu) fun a => ?_
    refine ⟨⟨fun h => ?_, ?_, hc'.cardReset⟩, hc'.selected⟩
    · rcases hc'.selected (hselected rfl) with hpiv | hlost
      · refine hc'.astray ?_
        simpa only [see, hpiv, bne_self_eq_false, Bool.or_false] using h
      · exact hlost
    · show (c'.reset || _) = _
      rw [hc'.reset]

theorem ensures_sessionRefresh (hc : c.AtPiv ρ κ b) :
    Ensures anyCard (fun _ b' c' => c'.AtPiv ρ κ b') sessionRefresh b c := by
  refine ensures_andThen ((ensures_sessionSelect hc.toTells).mono ?_)
  rintro r b' c' ⟨hc', -⟩
  refine ⟨fun e _ => hc', fun u _ => ensures_bind (ensures_askFor fun a => ?_)⟩
  exact ensures_pure hc'

/-! ### In the other applet -/

/-- A command that selects nothing. -/
def SelectsNothing (apdu : List UInt8) : Prop := apdu[1]? ≠ some INS_SELECT

/-- A command that selects nothing and does not reset the card. -/
def Quiet (apdu : List UInt8) : Prop :=
  SelectsNothing apdu ∧ apdu ≠ HID_CRESCENDO_ACA_RESET_CARD

theorem quiet_of_ins {ins : UInt8} (happ : apdu[1]? = some ins) (hselect : ins ≠ INS_SELECT)
    (hreset : ins ≠ 0x38) : Quiet apdu := by
  constructor
  · intro h
    exact hselect (Option.some.inj (happ.symm.trans h))
  · rintro rfl
    exact hreset (Option.some.inj happ).symm

theorem quiet_verifyPinAt {reference : UInt8} {pin : List UInt8}
    (h : verifyPinAt reference pin = .ok apdu) : Quiet apdu := by
  rcases hpad : padPin pin with e | body
  · rw [verifyPinAt, hpad] at h
    cases h
  · rw [verifyPinAt, hpad] at h
    cases h
    exact quiet_of_ins rfl (by decide) (by decide)

theorem quiet_putXauthKey {alg : MgmtAlg} {key : List UInt8}
    (h : hidCrescendoAcaPutXauthKey alg key = some apdu) : Quiet apdu := by
  unfold hidCrescendoAcaPutXauthKey at h
  split at h
  · cases h
  · split at h
    · cases h
    · cases h
      exact quiet_of_ins rfl (by decide) (by decide)

theorem see_sendAca (happ : SelectsNothing apdu) (a : Sent) :
    c.see ⟨.transmitRaw apdu, a⟩ =
      { c with
        astray := c.astray || c.selected != .aca
        cardReset := c.cardReset || (apdu == HID_CRESCENDO_ACA_RESET_CARD && granted a) } := by
  have haca : apdu ≠ selectByAid HID_CRESCENDO_ACA_AID := by
    rintro rfl
    exact happ rfl
  have hpiv : ¬ (apdu = selectFull ∨ apdu = selectShort) := by
    rintro (rfl | rfl)
    · exact happ rfl
    · exact happ rfl
  show (if _ then _ else if _ then _ else _) = _
  rw [if_neg haca, if_neg hpiv]

theorem ensures_sendAca (happ : SelectsNothing apdu) (hc : c.AtAca ρ κ) :
    Ensures anyCard (fun r _ c' =>
      c'.AtAca ρ (κ || (apdu == HID_CRESCENDO_ACA_RESET_CARD && granted r)))
      (sendAca apdu) b c := by
  refine ensures_bind (ensures_askFor (q := .transmitRaw apdu) fun a => ensures_pure ?_)
  rw [see_sendAca happ]
  refine ⟨⟨fun h => hc.astray ?_, hc.reset, ?_⟩, hc.selected⟩
  · simpa only [hc.selected, bne_self_eq_false, Bool.or_false] using h
  · show (c.cardReset || _) = _
    rw [hc.cardReset]
    cases a <;> rfl

theorem ensures_sendAca_quiet (happ : Quiet apdu) (hc : c.AtAca ρ κ) :
    Ensures anyCard (fun _ _ c' => c'.AtAca ρ κ) (sendAca apdu) b c := by
  refine (ensures_sendAca happ.1 hc).mono fun r _ c' hc' => ?_
  rwa [beq_eq_false_iff_ne.mpr happ.2, Bool.false_and, Bool.or_false] at hc'

theorem ensures_verifyPinHidCrescendoAca (pin : List UInt8) (hc : c.AtAca ρ κ) :
    Ensures anyCard (fun _ _ c' => c'.AtAca ρ κ) (verifyPinHidCrescendoAca pin) b c := by
  unfold verifyPinHidCrescendoAca
  split
  · exact ensures_pure hc
  · next apdu happ =>
      refine ensures_andThen ((ensures_sendAca_quiet (quiet_verifyPinAt happ) hc).mono ?_)
      exact fun r _ c' hc' => ⟨fun _ _ => hc', fun _ _ => ensures_pure hc'⟩

theorem ensures_acaXauthUnlock (cipher : MgmtCipher) (key : List UInt8) (hc : c.AtAca ρ κ) :
    Ensures anyCard (fun _ _ c' => c'.AtAca ρ κ) (acaXauthUnlock cipher key) b c := by
  have hchallenge : Quiet HID_CRESCENDO_ACA_GET_CHALLENGE :=
    quiet_of_ins rfl (by decide) (by decide)
  refine ensures_andThen ((ensures_sendAca_quiet hchallenge hc).mono ?_)
  rintro r b' c' hc'
  refine ⟨fun _ _ => hc', ?_⟩
  rintro ⟨challenge, sw⟩ -
  dsimp only
  split
  · exact ensures_pure hc'
  · next cryptogram _ =>
      have hquiet : Quiet (hidCrescendoAcaExternalAuthenticate cryptogram) :=
        quiet_of_ins rfl (by decide) (by decide)
      refine ensures_andThen ((ensures_sendAca_quiet hquiet hc').mono ?_)
      exact fun r _ c' hc' => ⟨fun _ _ => hc', fun _ _ => ensures_pure hc'⟩

theorem ensures_acaUnlock (cipher : MgmtCipher) (current : CurrentMgmtAuth) (hc : c.AtAca ρ κ) :
    Ensures anyCard (fun _ _ c' => c'.AtAca ρ κ) (acaUnlock cipher current) b c := by
  cases current with
  | key key => exact ensures_acaXauthUnlock cipher key hc
  | pin pin => exact ensures_verifyPinHidCrescendoAca pin hc

/-- Work in the other applet leaves it for PIV, or else the session knows that it has not. -/
theorem ensures_inAca {α : Type} {talk : FactoryM (Mgmt α)} {P : Mgmt α → Bool → Prop}
    (htalk : ∀ b c, c.AtAca ρ κ →
      Ensures anyCard (fun r _ c' => ∃ κ', c'.AtAca ρ κ' ∧ P r κ') talk b c)
    (herror : ∀ e, P (.error e) κ) (hc : c.AtPiv ρ κ b) :
    Ensures anyCard (fun r b' c' => ∃ κ', c'.AtPiv ρ κ' b' ∧ P r κ') (inAca talk) b c := by
  refine ensures_bind (Ensures.mono (?_ : Ensures anyCard
    (fun r _ c' => ∃ κ', c'.Tells ρ κ' ∧ P r κ') _ b c) ?_)
  · refine ensures_andThen (ensures_bind
      (ensures_askFor (q := .transmitRaw (selectByAid HID_CRESCENDO_ACA_AID)) fun a =>
        ensures_pure ?_))
    have htells : ∀ selected, ({ c with selected := selected } : Course).Tells ρ κ :=
      fun _ => ⟨hc.astray, hc.reset, hc.cardReset⟩
    refine ⟨fun e _ => ⟨κ, htells _, herror e⟩, ?_⟩
    rintro ⟨data, sw⟩ hok
    rcases hselect : okOrApdu "piv aca select" sw with e | u
    · simp only [hselect, lift]
      exact ensures_pure ⟨κ, htells _, herror _⟩
    · simp only [hselect, lift]
      have hsw : sw = SW_OK := okOrApdu_eq_ok.mp hselect
      have ha : a = .ok (data, sw) := by
        cases a with
        | error e => cases hok
        | ok sent =>
            cases hok
            rfl
      refine (htalk _ _ ⟨htells _, ?_⟩).mono ?_
      · rw [ha, hsw]
        rfl
      · rintro r b' c' ⟨κ', hc', hP⟩
        exact ⟨κ', hc'.toTells, hP⟩
  · rintro r b' c' ⟨κ', hc', hP⟩
    refine ensures_bind ((ensures_sessionSelect hc').mono ?_)
    rintro s b'' c'' ⟨hc'', -⟩
    exact ensures_pure ⟨κ', hc'', hP⟩

theorem ensures_restoreXauthKey (restoreKey : List UInt8) (hc : c.AtAca ρ κ) :
    Ensures anyCard (fun r _ c' => c'.AtAca ρ κ ∧ r ≠ .wiped) (restoreXauthKey restoreKey) b c := by
  refine ensures_bind ((ensures_verifyPinHidCrescendoAca _ hc).mono ?_)
  rintro (e | ⟨⟩) b' c' hc'
  · exact ensures_pure ⟨hc', by decide⟩
  · dsimp only
    split
    · exact ensures_pure ⟨hc', by decide⟩
    · next apdu happ =>
        refine ensures_bind ((ensures_sendAca_quiet (quiet_putXauthKey happ) hc').mono ?_)
        rintro (e | ⟨data, sw⟩) b'' c'' hc''
        · exact ensures_pure ⟨hc'', by decide⟩
        · refine ensures_pure ⟨hc'', ?_⟩
          split
          · decide
          · decide

/-- The reset of the whole card fails only where the card did not carry it out. -/
theorem ensures_hidCrescendoAcaResetCard (cipher : MgmtCipher) (restoreKey : List UInt8)
    (current : CurrentMgmtAuth) (hc : c.AtPiv ρ κ b) :
    Ensures anyCard (fun r b' c' => ∃ κ', c'.AtPiv ρ κ' b' ∧ κ' = (κ || r.isOk) ∧ r ≠ .ok .wiped)
      (hidCrescendoAcaResetCard cipher restoreKey current) b c := by
  refine ensures_inAca (fun b c hc => ?_) (fun e => ⟨(Bool.or_false κ).symm, nofun⟩) hc
  refine ensures_andThen ((ensures_acaUnlock cipher current hc).mono ?_)
  intro r b' c' hc'
  refine ⟨fun e _ => ⟨κ, hc', (Bool.or_false κ).symm, nofun⟩, fun u _ => ?_⟩
  have hreset : SelectsNothing HID_CRESCENDO_ACA_RESET_CARD := by
    unfold SelectsNothing
    decide
  refine ensures_andThen ((ensures_sendAca hreset hc').mono ?_)
  intro r b'' c'' hc''
  refine ⟨fun e he => ⟨_, hc'', ?_, nofun⟩, ?_⟩
  · rw [he]
    rfl
  · rintro ⟨data, sw⟩ rfl
    rcases hwrite : okOrWrite "piv aca reset card" sw with e | u
    · simp only [hwrite, lift]
      refine ensures_pure ⟨_, hc'', ?_, nofun⟩
      have hsw : sw ≠ SW_OK := by
        rintro rfl
        cases hwrite
      show (κ || (_ && (sw == SW_OK))) = (κ || false)
      rw [beq_eq_false_iff_ne.mpr hsw, Bool.and_false]
    · simp only [hwrite, lift]
      have hsw : sw = SW_OK := okOrWrite_eq_ok.mp hwrite
      refine ensures_bind ((ensures_restoreXauthKey restoreKey hc'').mono ?_)
      rintro outcome b c ⟨hc, houtcome⟩
      refine ensures_pure ⟨_, hc, ?_, fun h => houtcome (Except.ok.inj h)⟩
      rw [hsw]
      rfl

end Course

/-! ### The PIV reset -/

/-- Whether RESET was carried out. -/
def seeReset (wiped : Bool) : Asked ResetAnswer → Bool
  | ⟨.transmit apdu, a⟩ => wiped || (apdu == reset && granted a)
  | _ => wiped

theorem simulates_answerReset (κ : Bool) :
    Simulates (watch seeReset) anyCard (fun wiped b c => c.AtPiv wiped κ b) answerReset := by
  intro q wiped b c hc
  cases q with
  | transmit apdu => exact (ensures_transmitFull apdu hc).mono fun a b' c' hc' => ⟨_, rfl, hc'⟩
  | refresh => exact (ensures_sessionRefresh hc).mono fun a b' c' hc' => ⟨wiped, rfl, hc'⟩
  | resetFailsIfManagementKeyIsAes =>
      exact ensures_askFor (q := .resetFailsIfManagementKeyIsAes) fun _ => ⟨wiped, rfl, hc⟩
  | reportedManagementKeyAlgorithm =>
      exact ensures_askFor (q := .reportedManagementKeyAlgorithm) fun _ => ⟨wiped, rfl, hc⟩
  | status => exact ensures_askFor (q := .status) fun _ => ⟨wiped, rfl, hc⟩
  | metadata keyRef => exact ensures_askFor (q := .metadata keyRef) fun _ => ⟨wiped, rfl, hc⟩
  | getrandom =>
      exact ensures_bind (ensures_askFor (q := .getrandom GUESS_LEN) fun _ =>
        ensures_pure ⟨wiped, rfl, hc⟩)

/-- What sends no RESET carries none out. -/
theorem always_quiet {R : Type} {p : ResetTalk R} (hp : p.Asks (· ≠ .transmit reset)) :
    p.Always (watch seeReset) (fun _ wiped => wiped = false) false := by
  refine always_of_asks hp (fun wiped q a t hq hstep hwiped => ?_) rfl
  have ht : t = seeReset wiped ⟨q, a⟩ := hstep
  rw [ht, hwiped]
  cases q with
  | transmit apdu =>
      have hne : apdu ≠ reset := fun h => hq (congrArg ResetAsk.transmit h)
      show (false || (apdu == reset && _)) = false
      rw [beq_eq_false_iff_ne.mpr hne, Bool.false_and, Bool.or_false]
  | _ => rfl

/-- What was wiped before stays wiped. -/
theorem always_seeReset {R : Type} {p : ResetTalk R} {Post : R → Bool → Prop} {s : Bool}
    (h : p.Always (watch seeReset) Post s) (before : Bool) :
    p.Always (watch seeReset) (fun r t => ∃ wiped, Post r wiped ∧ t = (before || wiped))
      (before || s) := by
  induction p generalizing s with
  | done r => exact ⟨s, h, rfl⟩
  | ask q next ih =>
      intro a t hstep
      have ht : t = (before || seeReset s ⟨q, a⟩) := by
        rw [hstep]
        cases q with
        | transmit apdu => exact Bool.or_assoc _ _ _
        | _ => rfl
      rw [ht]
      exact ih a (h a _ rfl)

theorem asks_checkManagementKey : checkManagementKey.Asks (· ≠ .transmit reset) := by
  refine ⟨by decide, fun quirky => ?_⟩
  cases quirky with
  | false => exact trivial
  | true =>
      refine ⟨by decide, fun alg => ?_⟩
      dsimp only
      split
      · exact trivial
      · exact trivial
      · exact trivial

theorem always_sendReset :
    sendReset.Always (watch seeReset) (fun r wiped => wiped = r.isOk) false := by
  intro a wiped hstep
  have hwiped : wiped = granted a := by
    rw [hstep]
    show (false || ((reset == reset) && granted a)) = granted a
    rw [beq_self_eq_true, Bool.true_and, Bool.false_or]
  rcases a with e | ⟨data, sw⟩
  · exact hwiped
  · by_cases hrefused : resetRefused sw = true
    · have hsw : sw ≠ SW_OK := by
        rintro rfl
        revert hrefused
        decide
      simp only [hrefused, if_true]
      exact hwiped.trans (beq_eq_false_iff_ne.mpr hsw)
    · simp only [hrefused]
      rcases hwrite : okOrWrite RESET_LABEL sw with e | u
      · have hsw : sw ≠ SW_OK := by
          rintro rfl
          cases hwrite
        exact hwiped.trans (beq_eq_false_iff_ne.mpr hsw)
      · intro refreshed wiped' hstep'
        have hkept : wiped' = wiped := hstep'
        exact hkept.trans (hwiped.trans (beq_iff_eq.mpr (okOrWrite_eq_ok.mp hwrite)))

theorem always_sessionReset :
    sessionReset.Always (watch seeReset) (fun r wiped => wiped = r.isOk) false := by
  refine Always.andThen ((always_quiet asks_checkManagementKey).mono ?_)
  rintro r wiped rfl
  exact ⟨fun e _ => rfl, fun u _ => always_sendReset⟩

theorem asks_presentPin {apdu : Except PinLengthError (List UInt8)}
    (h : ∀ sent, apdu = .ok sent → sent ≠ reset) :
    (presentPin apdu).Asks (· ≠ .transmit reset) := by
  cases apdu with
  | error e => exact trivial
  | ok sent => exact ⟨fun hsent => h sent rfl (ResetAsk.transmit.inj hsent), fun _ => trivial⟩

theorem verifyPin_ne_reset {pin sent : List UInt8} (h : verifyPin pin = .ok sent) :
    sent ≠ reset := by
  rintro rfl
  rcases hpad : padPin pin with e | body
  · rw [verifyPin, hpad] at h
    cases h
  · rw [verifyPin, hpad] at h
    cases h

theorem unblockPin_ne_reset {puk pin sent : List UInt8} (h : unblockPin puk pin = .ok sent) :
    sent ≠ reset := by
  rintro rfl
  rcases hpuk : padPin puk with e | first
  · rw [unblockPin, hpuk] at h
    cases h
  · rcases hpad : padPin pin with e | body
    · rw [unblockPin, hpuk, hpad] at h
      cases h
    · rw [unblockPin, hpuk, hpad] at h
      cases h

theorem asks_blockCredential {present : List UInt8 → ResetTalk (Tried Unit)}
    (hpresent : ∀ guess, (present guess).Asks (· ≠ .transmit reset))
    (accepted : Option TransportError) (attempts : Nat) (previous : Option (List UInt8)) :
    (blockCredential present accepted attempts previous).Asks (· ≠ .transmit reset) := by
  induction attempts generalizing previous with
  | zero => exact trivial
  | succ attempts ih =>
      refine Asks.andThen ⟨by decide, fun filled => ?_⟩ fun guess =>
        Asks.bind (hpresent guess) fun r => ?_
      · cases filled <;> exact trivial
      · split
        · split
          · exact trivial
          · exact ih _
        · exact trivial
        · exact ih _
        · exact trivial

/-- A result that says truly whether RESET was carried out, and of a wipe that it was that. -/
def ToldPiv {ε : Type} (r : Except ε FactoryResetOutcome) (wiped : Bool) : Prop :=
  wiped = r.isOk ∧ ∀ outcome, r = .ok outcome → outcome = .wiped

theorem toldPiv_error {ε : Type} (e : ε) : ToldPiv (.error e) false := ⟨rfl, nofun⟩

theorem toldPiv_wiped {ε : Type} : ToldPiv (.ok .wiped : Except ε FactoryResetOutcome) true :=
  ⟨rfl, fun _ h => (Except.ok.inj h).symm⟩

theorem always_resetOr {next : ResetTalk (Tried FactoryResetOutcome)}
    (hnext : next.Always (watch seeReset) ToldPiv false) :
    (resetOr next).Always (watch seeReset) ToldPiv false := by
  refine Always.bind (always_sessionReset.mono ?_)
  rintro (e | ⟨⟩) wiped rfl
  · cases e <;> first | exact hnext | exact toldPiv_error _
  · exact toldPiv_wiped

theorem always_lastReset : lastReset.Always (watch seeReset) ToldPiv false := by
  refine Always.bind (always_sessionReset.mono ?_)
  rintro (e | ⟨⟩) wiped rfl
  · exact toldPiv_error _
  · exact toldPiv_wiped

/-- A credential to block, and what follows once it is blocked. -/
theorem always_blocked {block : ResetTalk (Tried Bool)} (hblock : block.Asks (· ≠ .transmit reset))
    {next : ResetTalk (Tried FactoryResetOutcome)} {what : String}
    (hnext : next.Always (watch seeReset) ToldPiv false) :
    (block.andThen fun blocked => if blocked then next
      else .done (.error (.pivResetIncomplete what))).Always (watch seeReset) ToldPiv false := by
  refine Always.andThen ((always_quiet hblock).mono ?_)
  rintro r wiped rfl
  refine ⟨fun e _ => toldPiv_error e, fun blocked _ => ?_⟩
  cases blocked with
  | true => exact hnext
  | false => exact toldPiv_error _

theorem always_pukStage : pukStage.Always (watch seeReset) ToldPiv false := by
  rintro md wiped rfl
  refine always_blocked (asks_blockCredential (fun guess => ?_) _ _ _) always_lastReset
  exact asks_presentPin fun sent hsent => unblockPin_ne_reset hsent

theorem always_pinStage : pinStage.Always (watch seeReset) ToldPiv false := by
  rintro (e | pinRetries) wiped rfl
  · exact toldPiv_error _
  · refine always_blocked (asks_blockCredential (fun guess => ?_) _ _ _)
      (always_resetOr always_pukStage)
    exact asks_presentPin fun sent hsent => verifyPin_ne_reset hsent

theorem always_forceReset : forceReset.Always (watch seeReset) ToldPiv false :=
  always_resetOr always_pinStage

/-! ### Management before the reset -/

section Management

variable {apdu : List UInt8}

/-- What proving the management key sends: the rounds of the proof, the read of the stored key,
and a PIN that was given for it. -/
def AuthSends (current : CurrentMgmtAuth) (q : MgmtAsk) : Prop :=
  ∀ apdu, q = .transmit apdu →
    apdu[1]? = some INS_GENERAL_AUTHENTICATE ∨ apdu[1]? = some INS_GET_DATA ∨
      ∃ pin, current = .pin pin ∧ verifyPin pin = .ok apdu

variable (current : CurrentMgmtAuth)

theorem only_transmitMgmt
    (happ : apdu[1]? = some INS_GENERAL_AUTHENTICATE ∨ apdu[1]? = some INS_GET_DATA ∨
      ∃ pin, current = .pin pin ∧ verifyPin pin = .ok apdu) :
    Only (AuthSends current) (transmitMgmt apdu) := by
  refine .bind (.ask fun sent hsent => ?_) fun _ => .pure
  rw [← MgmtAsk.transmit.inj hsent]
  exact happ

theorem only_probeMgmtAlg (alg : MgmtAlg) : Only (AuthSends current) (probeMgmtAlg alg) :=
  .andThen (only_transmitMgmt current (.inl (ins_buildApduExt ..))) fun _ => .pure

theorem only_probeAll (algs : List MgmtAlg) : Only (AuthSends current) (probeAll algs) := by
  induction algs with
  | nil => exact .pure
  | cons alg algs ih =>
      exact .andThen (only_probeMgmtAlg current alg) fun _ => .andThen ih fun _ => .pure

theorem only_probeAndPick (keyLen : Nat) : Only (AuthSends current) (probeAndPick keyLen) := by
  refine .andThen (only_probeAll current _) fun accepted => ?_
  split
  · exact .pure
  · exact .bind (fun _ => trivial) fun _ => .pure

theorem only_hintStillPicked (hint : MgmtAlg) (keyLen : Nat) :
    Only (AuthSends current) (hintStillPicked hint keyLen) := by
  unfold hintStillPicked
  split
  · exact .pure
  · refine .andThen (only_probeMgmtAlg current hint) fun accepted => ?_
    split
    · exact .pure
    · split
      · exact .pure
      · exact .andThen (only_probeMgmtAlg current _) fun _ => .pure

theorem only_resolveManagementKeyAlgorithm (keyLen : Nat) :
    Only (AuthSends current) (resolveManagementKeyAlgorithm keyLen) := by
  refine .bind (.ask fun _ h => by cases h) fun alg => ?_
  split
  · exact .pure
  · refine .bind .get fun hint => ?_
    split
    · exact only_probeAndPick current keyLen
    · refine .andThen (only_hintStillPicked current _ keyLen) fun still => ?_
      split
      · exact .pure
      · exact only_probeAndPick current keyLen

section Authenticating

variable (cipher : MgmtCipher) (applet : MgmtApplet)

theorem only_mutualAuthenticate (alg : MgmtAlg) (key : List UInt8) :
    Only (AuthSends current) (mutualAuthenticate cipher applet alg key) := by
  refine .andThen (only_transmitMgmt current (.inl (ins_buildApduExt ..))) ?_
  rintro ⟨resp, sw⟩
  dsimp only
  split
  · exact .pure
  · refine .bind (.ask fun _ h => by cases h) fun challenge => ?_
    split
    · exact .pure
    · exact .andThen (only_transmitMgmt current (.inl (ins_buildApduExt ..))) fun _ => .pure

theorem only_authenticateManagement (alg : MgmtAlg) (key : List UInt8) :
    Only (AuthSends current) (authenticateManagement cipher applet alg key) := by
  unfold authenticateManagement
  split
  · exact .pure
  · split
    · refine .bind (.ask fun _ h => by cases h) fun reports => ?_
      split
      · exact only_mutualAuthenticate current cipher applet alg key
      · exact .ask fun _ h => by cases h
    · exact only_mutualAuthenticate current cipher applet alg key

theorem only_authenticateManagementCurrent :
    Only (AuthSends current) (authenticateManagementCurrent cipher applet current) := by
  cases current with
  | key key =>
      exact .andThen (only_resolveManagementKeyAlgorithm _ _) fun alg =>
        only_authenticateManagement _ cipher applet alg key
  | pin pin =>
      have hverify : Only (AuthSends (.pin pin)) (verifyPinMgmt pin) := by
        unfold verifyPinMgmt
        split
        · exact .pure
        · next happ =>
            exact .andThen (only_transmitMgmt _ (.inr (.inr ⟨pin, rfl, happ⟩))) fun _ => .pure
      refine .andThen hverify fun _ => ?_
      split
      · exact .pure
      · refine .andThen (only_transmitMgmt _ (.inr (.inl rfl))) ?_
        rintro ⟨data, sw⟩
        dsimp only
        split
        · exact .pure
        · split
          · exact .pure
          · exact .andThen (only_resolveManagementKeyAlgorithm _ _) fun alg =>
              only_authenticateManagement _ cipher applet alg _

end Authenticating

theorem AuthSends.ne_reset {current : CurrentMgmtAuth} {q : MgmtAsk} (h : AuthSends current q) :
    q ≠ .transmit reset := by
  rintro rfl
  rcases h reset rfl with hins | hins | ⟨pin, -, hpin⟩
  · exact absurd hins (by decide)
  · exact absurd hins (by decide)
  · exact verifyPin_ne_reset hpin rfl

variable {c : Course} {b ρ κ : Bool}

theorem ensures_aca_unit {talk : FactoryM (Mgmt Unit)}
    (htalk : ∀ b c, c.AtAca ρ κ → Ensures anyCard (fun _ _ c' => c'.AtAca ρ κ) talk b c)
    (hc : c.AtPiv ρ κ b) : Ensures anyCard (fun _ b' c' => c'.AtPiv ρ κ b') (inAca talk) b c := by
  refine (ensures_inAca (P := fun _ κ' => κ' = κ) (fun b c hc => ?_) (fun _ => rfl) hc).mono ?_
  · exact (htalk b c hc).mono fun r _ c' hc' => ⟨κ, hc', rfl⟩
  · rintro r b' c' ⟨κ', hc', rfl⟩
    exact hc'

theorem ensures_answerMgmt (cipher : MgmtCipher) {q : MgmtAsk} (hq : q ≠ .transmit reset)
    (hc : c.AtPiv ρ κ b) :
    Ensures anyCard (fun _ b' c' => c'.AtPiv ρ κ b') (answerMgmt cipher q) b c := by
  cases q with
  | transmit apdu =>
      have hne : apdu ≠ reset := fun h => hq (congrArg MgmtAsk.transmit h)
      refine (ensures_transmitFull apdu hc).mono fun a b' c' hc' => ?_
      rwa [beq_eq_false_iff_ne.mpr hne, Bool.false_and, Bool.or_false] at hc'
  | getrandom len => exact ensures_askFor (q := .getrandom len) fun _ => hc
  | reportedManagementKeyAlgorithm =>
      exact ensures_askFor (q := .reportedManagementKeyAlgorithm) fun _ => hc
  | reportsManagementKey => exact ensures_askFor (q := .reportsManagementKey) fun _ => hc
  | authenticateAca key =>
      exact ensures_aca_unit (fun b c hc => ensures_acaXauthUnlock cipher key hc) hc
  | putXauthKey current alg key =>
      refine ensures_aca_unit (fun b c hc => ?_) hc
      refine ensures_andThen ((ensures_acaUnlock cipher current hc).mono fun r b' c' hc' => ?_)
      refine ⟨fun _ _ => hc', fun _ _ => ?_⟩
      split
      · exact ensures_pure hc'
      · next apdu happ =>
          refine ensures_andThen ((ensures_sendAca_quiet (quiet_putXauthKey happ) hc').mono ?_)
          exact fun r _ c'' hc'' => ⟨fun _ _ => hc'', fun _ _ => ensures_pure hc''⟩

theorem ensures_authenticateNow (cipher : MgmtCipher) (applet : FactoryApplet)
    (hint : Option MgmtAlg) (current : CurrentMgmtAuth) (hc : c.AtPiv ρ κ b) :
    Ensures anyCard (fun _ b' c' => c'.AtPiv ρ κ b')
      (authenticateNow cipher applet hint current) b c := by
  have hasks := only_authenticateManagementCurrent current cipher applet.mgmt hint
  refine ensures_bind ((hasks.ensures (J := fun b c => c.AtPiv ρ κ b) ?_ hc).mono ?_)
  · exact fun q b c hq hc => ensures_answerMgmt cipher hq.ne_reset hc
  · exact fun r b' c' hc' => ensures_pure hc'

/-! ### The whole reset -/

theorem ensures_reset {R : Type} {p : ResetTalk R} {Post : R → Bool → Prop}
    (hp : p.Always (watch seeReset) Post false) (hc : c.AtPiv ρ κ b) :
    Ensures anyCard (fun r b' c' => ∃ wiped, Post r wiped ∧ c'.AtPiv (ρ || wiped) κ b')
      (p.handle answerReset) b c := by
  have hbefore := always_seeReset hp ρ
  rw [Bool.or_false] at hbefore
  refine (Always.handle (simulates_answerReset κ) hc hbefore).mono ?_
  rintro r b' c' ⟨t, ⟨wiped, hpost, rfl⟩, hc'⟩
  exact ⟨wiped, hpost, hc'⟩

theorem ensures_resetNow (hc : c.AtPiv ρ κ b) :
    Ensures anyCard (fun r b' c' => c'.AtPiv (ρ || r.isOk) κ b') resetNow b c := by
  refine (ensures_reset always_sessionReset hc).mono ?_
  rintro r b' c' ⟨wiped, rfl, hc'⟩
  exact hc'

/-- The result of a reset, beside what the card carried out. -/
def Truthful (r : FactoryReset) (reset cardReset : Bool) : Prop :=
  (reset = true ↔ r = .ok .wiped) ∧
    (cardReset = true ↔ r = .ok .wipedGlobal ∨ r = .ok .wipedKeyRestoreFailed)

theorem truthful_error (e : FactoryResetError) : Truthful (.error e) false false :=
  ⟨by simp, by simp⟩

theorem ToldPiv.truthful {r : FactoryReset} {wiped : Bool} (h : ToldPiv r wiped) :
    Truthful r wiped false := by
  obtain ⟨rfl, hwiped⟩ := h
  cases r with
  | error e => exact truthful_error e
  | ok outcome =>
      cases hwiped outcome rfl
      exact ⟨by simp [Except.isOk, Except.toBool], by simp⟩

/-- A result of PIV alone, in a session in which PIV or the card may have been wiped before. -/
def PivTold (ρ κ : Bool) (r : FactoryReset) (b : Bool) (c : Course) : Prop :=
  ∃ wiped, ToldPiv r wiped ∧ c.AtPiv (ρ || wiped) κ b

theorem pivTold_error (e : FactoryResetError) (hc : c.AtPiv ρ κ b) :
    PivTold ρ κ (.error e) b c := by
  refine ⟨false, toldPiv_error e, ?_⟩
  rwa [Bool.or_false]

theorem ensures_bareReset (failed : TransportError → FactoryResetError) (hc : c.AtPiv ρ κ b) :
    Ensures anyCard (PivTold ρ κ) (bareReset failed) b c := by
  refine ensures_bind ((ensures_resetNow hc).mono ?_)
  rintro (e | ⟨⟩) b' c' hc'
  · exact ensures_pure ⟨_, toldPiv_error _, hc'⟩
  · exact ensures_pure ⟨_, toldPiv_wiped, hc'⟩

theorem ensures_escalatingReset (hc : c.AtPiv ρ κ b) :
    Ensures anyCard (PivTold ρ κ) escalatingReset b c := by
  refine ensures_bind ((ensures_reset always_forceReset hc).mono ?_)
  rintro (e | outcome) b' c' ⟨wiped, ⟨rfl, houtcome⟩, hc'⟩
  · exact ensures_pure ⟨_, toldPiv_error _, hc'⟩
  · rw [houtcome outcome rfl]
    exact ensures_pure ⟨_, toldPiv_wiped, hc'⟩

theorem ensures_forceResetIfKnownSupported (gate : FeatureGate) (sendIfListedUnsupported : Bool)
    (hc : c.AtPiv ρ κ b) :
    Ensures anyCard (PivTold ρ κ)
      (forceResetIfKnownSupported gate sendIfListedUnsupported) b c := by
  unfold forceResetIfKnownSupported
  split
  · exact ensures_pure (pivTold_error _ hc)
  · exact ensures_bareReset _ hc
  · exact ensures_bareReset _ hc
  · exact ensures_escalatingReset hc

variable (cipher : MgmtCipher) (applet : FactoryApplet) (hint : Option MgmtAlg)

theorem ensures_authenticateThenReset (current : CurrentMgmtAuth) (hc : c.AtPiv ρ κ b) :
    Ensures anyCard (fun r b' c' => c'.AtPiv (ρ || r.isOk) κ b')
      (authenticateThenReset cipher applet hint current) b c := by
  refine ensures_andThen ((ensures_authenticateNow cipher applet hint current hc).mono ?_)
  rintro r b' c' hc'
  refine ⟨fun e _ => ?_, fun _ _ => ensures_bind ((ensures_resetNow hc').mono ?_)⟩
  · simpa only [Except.isOk, Except.toBool, Bool.or_false] using hc'
  · rintro (e | u) b'' c'' hc''
    · exact ensures_pure hc''
    · exact ensures_pure hc''

theorem ensures_resetPiv (current : Option CurrentMgmtAuth) (hc : c.AtPiv ρ κ b) :
    Ensures anyCard (PivTold ρ κ) (resetPiv cipher applet hint current) b c := by
  unfold resetPiv
  split
  · exact ensures_pure (pivTold_error _ hc)
  · cases current with
    | none => exact ensures_pure (pivTold_error _ hc)
    | some current =>
        refine ensures_bind ((ensures_authenticateThenReset cipher applet hint current hc).mono ?_)
        rintro (e | ⟨⟩) b' c' hc'
        · exact ensures_pure ⟨_, toldPiv_error _, hc'⟩
        · exact ensures_pure ⟨_, toldPiv_wiped, hc'⟩
  · exact ensures_bareReset _ hc
  · exact ensures_escalatingReset hc

/-- A result of any reset, in such a session. -/
def TruthTold (ρ κ : Bool) (r : FactoryReset) (b : Bool) (c : Course) : Prop :=
  ∃ reset cardReset, Truthful r reset cardReset ∧ c.AtPiv (ρ || reset) (κ || cardReset) b

theorem PivTold.truthTold {r : FactoryReset} (h : PivTold ρ κ r b c) : TruthTold ρ κ r b c := by
  obtain ⟨wiped, htold, hc⟩ := h
  refine ⟨wiped, false, htold.truthful, ?_⟩
  rwa [Bool.or_false]

theorem ensures_factoryReset (current : Option CurrentMgmtAuth) (hc : c.AtPiv ρ κ b) :
    Ensures anyCard (TruthTold ρ κ) (factoryReset cipher applet hint current) b c := by
  have hpiv : ∀ {b c}, c.AtPiv ρ κ b →
      Ensures anyCard (TruthTold ρ κ) (resetPiv cipher applet hint current) b c :=
    fun hc => (ensures_resetPiv cipher applet hint current hc).mono fun _ _ _ h => h.truthTold
  unfold factoryReset
  split
  · cases current with
    | none => exact ensures_pure (pivTold_error _ hc).truthTold
    | some credential =>
        refine ensures_bind ((ensures_hidCrescendoAcaResetCard cipher _ credential hc).mono ?_)
        rintro (e | outcome) b' c' ⟨κ', hc', rfl, hwiped⟩
        · have hkept : c'.AtPiv ρ κ b' := by
            simpa only [Except.isOk, Except.toBool, Bool.or_false] using hc'
          dsimp only
          split
          · exact hpiv hkept
          · exact ensures_pure (pivTold_error _ hkept).truthTold
        · refine ensures_pure ⟨false, true, ?_, ?_⟩
          · cases outcome with
            | wiped => exact absurd rfl hwiped
            | wipedGlobal => exact ⟨by simp, by simp⟩
            | wipedKeyRestoreFailed => exact ⟨by simp, by simp⟩
          · rwa [Bool.or_false]
  · exact hpiv hc

end Management

/-- What has come of a conversation. -/
def course (appletSelected : Bool) (log : List (Asked FactoryAnswer)) : Course :=
  log.foldl Course.see (Course.start appletSelected)

theorem atPiv_start (appletSelected : Bool) :
    (Course.start appletSelected).AtPiv false false appletSelected := by
  refine ⟨⟨fun h => (by cases h), rfl, rfl⟩, fun hselected => .inl ?_⟩
  rw [Course.start, if_pos hselected]

/-! ### What is asked of PIV -/

/-- The commands for PIV that may be sent. -/
def PivSends (P : List UInt8 → Prop) (q : FactoryAsk) : Prop :=
  ∀ apdu, q = .transmit apdu → P apdu

section Sending

variable {P : List UInt8 → Prop}

theorem only_askFor {q : FactoryAsk} (h : ∀ apdu, q ≠ .transmit apdu) :
    Only (PivSends P) (askFor q) := .ask fun apdu hq => absurd hq (h apdu)

theorem only_judgeSelect (label : String) (sw : UInt16) :
    Only (PivSends P) (judgeSelect label sw) := fun _ => trivial

theorem only_sendRaw (apdu : List UInt8) : Only (PivSends P) (sendRaw apdu) :=
  only_askFor fun _ h => by cases h

theorem only_sessionSelect : Only (PivSends P) sessionSelect := by
  refine .andThen (only_sendRaw _) ?_
  rintro ⟨data, sw⟩
  dsimp only
  split
  · refine .andThen (only_sendRaw _) ?_
    rintro ⟨data', sw'⟩
    dsimp only
    split
    · exact fun _ => trivial
    · exact only_judgeSelect _ _
  · exact only_judgeSelect _ _

theorem only_transmitFull {apdu : List UInt8} (h : P apdu) :
    Only (PivSends P) (transmitFull apdu) := by
  refine .andThen (.bind .get fun selected => ?_) fun _ => .ask fun sent hsent => ?_
  · split
    · exact .pure
    · exact only_sessionSelect
  · rw [← FactoryAsk.transmit.inj hsent]
    exact h

theorem only_sendAca (apdu : List UInt8) : Only (PivSends P) (sendAca apdu) :=
  .bind (only_sendRaw apdu) fun _ => .pure

theorem only_verifyPinHidCrescendoAca (pin : List UInt8) :
    Only (PivSends P) (verifyPinHidCrescendoAca pin) := by
  unfold verifyPinHidCrescendoAca
  split
  · exact .pure
  · exact .andThen (only_sendAca _) fun _ => .pure

theorem only_acaXauthUnlock (cipher : MgmtCipher) (key : List UInt8) :
    Only (PivSends P) (acaXauthUnlock cipher key) := by
  refine .andThen (only_sendAca _) ?_
  rintro ⟨challenge, sw⟩
  dsimp only
  split
  · exact .pure
  · exact .andThen (only_sendAca _) fun _ => .pure

theorem only_acaUnlock (cipher : MgmtCipher) (current : CurrentMgmtAuth) :
    Only (PivSends P) (acaUnlock cipher current) := by
  cases current with
  | key key => exact only_acaXauthUnlock cipher key
  | pin pin => exact only_verifyPinHidCrescendoAca pin

theorem only_inAca {α : Type} {talk : FactoryM (Mgmt α)} (htalk : Only (PivSends P) talk) :
    Only (PivSends P) (inAca talk) := by
  refine .bind (.andThen (only_sendAca _) ?_) fun _ => .bind only_sessionSelect fun _ => .pure
  rintro ⟨data, sw⟩
  dsimp only
  split
  · exact .pure
  · exact htalk

theorem only_restoreXauthKey (restoreKey : List UInt8) :
    Only (PivSends P) (restoreXauthKey restoreKey) := by
  refine .bind (only_verifyPinHidCrescendoAca _) fun verified => ?_
  split
  · exact .pure
  · split
    · exact .pure
    · refine .bind (only_sendAca _) fun answer => ?_
      split
      · exact .pure
      · exact .pure

theorem only_hidCrescendoAcaResetCard (cipher : MgmtCipher) (restoreKey : List UInt8)
    (current : CurrentMgmtAuth) :
    Only (PivSends P) (hidCrescendoAcaResetCard cipher restoreKey current) := by
  refine only_inAca (.andThen (only_acaUnlock cipher current) fun _ =>
    .andThen (only_sendAca _) ?_)
  rintro ⟨data, sw⟩
  dsimp only
  split
  · exact .pure
  · exact .bind (only_restoreXauthKey restoreKey) fun _ => .pure

theorem only_answerReset {q : ResetAsk} (h : ∀ apdu, q = .transmit apdu → P apdu) :
    Only (PivSends P) (answerReset q) := by
  cases q with
  | transmit apdu => exact only_transmitFull (h apdu rfl)
  | refresh =>
      exact .andThen only_sessionSelect fun _ => .bind (only_askFor fun _ h => by cases h)
        fun _ => .pure
  | getrandom => exact .bind (only_askFor fun _ h => by cases h) fun _ => .pure
  | _ => exact only_askFor fun _ h => by cases h

theorem only_answerMgmt (cipher : MgmtCipher) {q : MgmtAsk}
    (h : ∀ apdu, q = .transmit apdu → P apdu) : Only (PivSends P) (answerMgmt cipher q) := by
  cases q with
  | transmit apdu => exact only_transmitFull (h apdu rfl)
  | authenticateAca key => exact only_inAca (only_acaXauthUnlock cipher key)
  | putXauthKey current alg key =>
      refine only_inAca (.andThen (only_acaUnlock cipher current) fun _ => ?_)
      split
      · exact .pure
      · exact .andThen (only_sendAca _) fun _ => .pure
  | _ => exact only_askFor fun _ h => by cases h

end Sending

/-- A command that spends a try of the PIN or of the PUK. -/
def SpendsTry (apdu : List UInt8) : Prop :=
  apdu[1]? = some INS_VERIFY ∨ apdu[1]? = some INS_RESET_RETRY_COUNTER

/-- The plan is to spend every try, and the reset of the whole card is not known to exist. -/
def BurnsTries (applet : FactoryApplet) : Prop :=
  planFactoryReset applet = .burnPinPukThenReset ∧ applet.resetGlobal ≠ .supported

/-- What a reset may send that is not planned to burn the tries: of commands that spend one, only
the PIN that was given for it. -/
def SpendsAsPlanned (applet : FactoryApplet) (current : Option CurrentMgmtAuth)
    (apdu : List UInt8) : Prop :=
  SpendsTry apdu → BurnsTries applet ∨
    ∃ pin, current = some (.pin pin) ∧ verifyPin pin = .ok apdu

section Spending

variable (cipher : MgmtCipher) (applet : FactoryApplet) (hint : Option MgmtAlg)

theorem asks_sessionReset :
    sessionReset.Asks fun q => ∀ apdu, q = .transmit apdu → apdu = reset := by
  refine Asks.andThen ⟨fun _ h => (by cases h), fun quirky => ?_⟩ fun _ =>
    ⟨fun apdu h => (ResetAsk.transmit.inj h).symm, fun answer => ?_⟩
  · cases quirky with
    | false => exact trivial
    | true =>
        refine ⟨fun _ h => (by cases h), fun alg => ?_⟩
        dsimp only
        split
        · exact trivial
        · exact trivial
        · exact trivial
  · rcases answer with e | ⟨data, sw⟩
    · exact trivial
    · dsimp only
      split
      · exact trivial
      · split
        · exact trivial
        · exact ⟨fun _ h => (by cases h), fun _ => trivial⟩

theorem not_spendsTry_reset : ¬ SpendsTry reset := by
  unfold SpendsTry
  decide

theorem only_resetNow {P : List UInt8 → Prop} (hP : P reset) : Only (PivSends P) resetNow :=
  .handle (asks_sessionReset.mono fun q h => only_answerReset fun apdu hq => by
    rw [h apdu hq]
    exact hP)

theorem only_bareReset {P : List UInt8 → Prop} (hP : P reset)
    (failed : TransportError → FactoryResetError) : Only (PivSends P) (bareReset failed) := by
  refine .bind (only_resetNow hP) fun r => ?_
  split
  · exact .pure
  · exact .pure

theorem only_escalatingReset {P : List UInt8 → Prop} (hP : ∀ apdu, P apdu) :
    Only (PivSends P) escalatingReset :=
  .bind (.handle (asks_of_forall (fun _ => only_answerReset fun apdu _ => hP apdu) forceReset))
    fun _ => .pure

theorem spendsAsPlanned_reset {current : Option CurrentMgmtAuth} :
    SpendsAsPlanned applet current reset := fun h => absurd h not_spendsTry_reset

theorem spendsAsPlanned_of_authSends {current : CurrentMgmtAuth} {q : MgmtAsk}
    (h : AuthSends current q) : ∀ apdu, q = .transmit apdu →
      SpendsAsPlanned applet (some current) apdu := by
  intro apdu hq hspends
  rcases h apdu hq with hins | hins | ⟨pin, rfl, hpin⟩
  · rw [SpendsTry, hins] at hspends
    exact absurd hspends (by decide)
  · rw [SpendsTry, hins] at hspends
    exact absurd hspends (by decide)
  · exact .inr ⟨pin, rfl, hpin⟩

theorem only_authenticateThenReset (current : CurrentMgmtAuth) :
    Only (PivSends (SpendsAsPlanned applet (some current)))
      (authenticateThenReset cipher applet hint current) := by
  refine .andThen (.bind (.handle ?_) fun _ => .pure) fun _ =>
    .bind (only_resetNow (spendsAsPlanned_reset applet)) fun _ => .pure
  refine (only_authenticateManagementCurrent current cipher applet.mgmt hint).mono fun q h => ?_
  exact only_answerMgmt cipher (spendsAsPlanned_of_authSends applet h)

theorem only_resetPiv {current : Option CurrentMgmtAuth}
    (hglobal : applet.resetGlobal ≠ .supported) :
    Only (PivSends (SpendsAsPlanned applet current)) (resetPiv cipher applet hint current) := by
  unfold resetPiv
  split
  · exact .pure
  · cases current with
    | none => exact .pure
    | some current =>
        refine .bind (only_authenticateThenReset cipher applet hint current) fun r => ?_
        split
        · exact .pure
        · exact .pure
  · exact only_bareReset (spendsAsPlanned_reset applet) _
  · next hplan => exact only_escalatingReset fun apdu _ => .inl ⟨hplan, hglobal⟩

theorem only_factoryReset (current : Option CurrentMgmtAuth) :
    Only (PivSends (SpendsAsPlanned applet current)) (factoryReset cipher applet hint current) := by
  unfold factoryReset
  split
  · cases current with
    | none => exact .pure
    | some credential =>
        refine .bind (only_hidCrescendoAcaResetCard cipher _ credential) fun r => ?_
        split
        · exact .pure
        · split
          · next hunverified =>
              refine only_resetPiv cipher applet hint ?_
              rw [hunverified]
              decide
          · exact .pure
  · next hsupported =>
      refine only_resetPiv cipher applet hint fun h => hsupported ?_
      rw [h]
      decide

end Spending

/-- **Tries are spent only as planned.** Unless the plan is to burn the PIN and the PUK of the PIV
applet, no reset spends a try of either, except that of a PIN that it was given for the management
key; and a card that offers no reset, or only one that needs a credential that is missing, is asked
nothing. The PIN of the other applet of a HID Crescendo is a reference of its own, with a counter
of its own: what is sent to that applet goes by `transmitRaw` and is not counted here. -/
theorem tries_are_spent_as_planned (cipher : MgmtCipher) (applet : FactoryApplet)
    (hint : Option MgmtAlg) (current : Option CurrentMgmtAuth) (appletSelected : Bool)
    {log : List (Asked FactoryAnswer)} {result : FactoryReset} {after : Bool}
    (h : Says (factoryReset cipher applet hint current appletSelected) log (result, after)) :
    (∀ line ∈ log, ∀ apdu, line.1 = .transmit apdu → SpendsAsPlanned applet current apdu) ∧
      (previewFactoryReset applet = .unsupported →
        log = [] ∧ result = .error .pivResetUnsupported) ∧
      (current = none → previewFactoryReset applet = .global ∨
          previewFactoryReset applet = .piv .needsManagementAuth →
        log = [] ∧ result = .error .pivResetNeedsManagementAuth) := by
  refine ⟨fun line hline => ?_, fun hpreview => ?_, ?_⟩
  · exact Asks.spoken (only_factoryReset cipher applet hint current appletSelected) h line hline
  · unfold previewFactoryReset at hpreview
    split at hpreview
    · cases hpreview
    · next hglobal =>
        split at hpreview
        · next hplan =>
            unfold factoryReset resetPiv at h
            rw [if_neg hglobal, hplan] at h
            obtain ⟨rfl, rfl, -⟩ := says_pure.mp h
            exact ⟨rfl, rfl⟩
        · cases hpreview
  · rintro rfl hpreview
    by_cases hglobal : applet.resetGlobal ≠ .unsupported
    · unfold factoryReset at h
      rw [if_pos hglobal] at h
      obtain ⟨rfl, rfl, -⟩ := says_pure.mp h
      exact ⟨rfl, rfl⟩
    · have hplan : planFactoryReset applet = .needsManagementAuth := by
        rw [previewFactoryReset, if_neg hglobal] at hpreview
        cases hplan : planFactoryReset applet <;> simp_all
      unfold factoryReset resetPiv at h
      rw [if_neg hglobal, hplan] at h
      obtain ⟨rfl, rfl, -⟩ := says_pure.mp h
      exact ⟨rfl, rfl⟩

/-- Blocks as they are. -/
def sameBlock : MgmtCipher where
  encrypt := fun _ _ block => block
  decrypt := fun _ _ block => block
  length_encrypt := fun _ _ _ h => h
  decrypt_encrypt := fun _ _ _ _ _ => rfl

/-- A card of which it is not known how it can be reset. -/
def maybeGlobal : FactoryApplet where
  reset := .unverified
  resetGlobal := .unverified
  resetNeedsManagementAuth := false
  default9bManagementKey := none
  mgmt := ⟨false, false⟩

def shortPin : CurrentMgmtAuth := .pin [0x31]

/-- The other applet cannot be unlocked, and PIV accepts RESET at once. -/
def wipedAtOnce : List (Asked FactoryAnswer) :=
  [⟨.transmitRaw (selectByAid HID_CRESCENDO_ACA_AID), .ok ([], SW_OK)⟩,
    ⟨.transmitRaw selectFull, .ok ([], SW_OK)⟩,
    ⟨.resetFailsIfManagementKeyIsAes, false⟩,
    ⟨.transmit reset, .ok ([], SW_OK)⟩,
    ⟨.transmitRaw selectFull, .ok ([], SW_OK)⟩,
    ⟨.fingerprint, ()⟩]

/-- The tries that are left of the PIN and of the PUK. -/
structure Tries where
  pin : Nat
  puk : Nat
deriving DecidableEq, Repr

/-- A wrong value for a reference with so many tries. -/
def refusedTry (tries : Nat) : Sent :=
  .ok ([], if tries = 0 then 0x6983 else 0x63C0 + (tries - 1).toUInt16)

/-- A card that knows neither PIN nor PUK of those it is told, and accepts RESET when both are
blocked. -/
def triesCard : Machine FactoryAnswer Tries
  | t, .transmit apdu =>
      if apdu = reset then
        (.ok ([], if t.pin = 0 ∧ t.puk = 0 then SW_OK else 0x6985), t)
      else if apdu[1]? = some INS_VERIFY then (refusedTry t.pin, { t with pin := t.pin - 1 })
      else if apdu[1]? = some INS_RESET_RETRY_COUNTER then
        (refusedTry t.puk, { t with puk := t.puk - 1 })
      else (.ok ([], SW_OK), t)
  | t, .transmitRaw _ => (.ok ([], SW_OK), t)
  | t, .getrandom _ => (some ⟨List.replicate _ 0x5A, List.length_replicate⟩, t)
  | t, .resetFailsIfManagementKeyIsAes => (false, t)
  | t, .reportedManagementKeyAlgorithm => (none, t)
  | t, .reportsManagementKey => (false, t)
  | t, .fingerprint => ((), t)
  | t, .status => (.ok (some t.pin.toUInt8), t)
  | t, .metadata _ => (none, t)

instance : DecidablePred SpendsTry := fun _ => inferInstanceAs (Decidable (_ ∨ _))

/-- How many lines of a conversation spend a try. -/
def triesSpent (log : List (Asked FactoryAnswer)) : Nat :=
  log.countP fun line => match line.1 with
    | .transmit apdu => decide (SpendsTry apdu)
    | _ => false

/-- RESET is known to exist, and needs both references blocked. -/
def burningApplet : FactoryApplet :=
  { maybeGlobal with reset := .supported, resetGlobal := .unsupported }

/-- RESET needs the management key. -/
def guardedApplet : FactoryApplet := { burningApplet with resetNeedsManagementAuth := true }

/-- A reset of a card with two tries of the PIN and three of the PUK. -/
def triesRun (applet : FactoryApplet) (current : Option CurrentMgmtAuth) :
    (FactoryReset × Bool) × Tries × List (Asked FactoryAnswer) :=
  (factoryReset sameBlock applet none current true).serve triesCard ⟨2, 3⟩ []

theorem says_triesRun (applet : FactoryApplet) (current : Option CurrentMgmtAuth) :
    Says (factoryReset sameBlock applet none current true) (triesRun applet current).2.2
      ((triesRun applet current).1.1, (triesRun applet current).1.2) :=
  says_serve_nil triesCard (factoryReset sameBlock applet none current true) ⟨2, 3⟩

/-- `123456` -/
def wrongPin : CurrentMgmtAuth := .pin [0x31, 0x32, 0x33, 0x34, 0x35, 0x36]

/-- One reset burns all five tries and wipes the applet; the next one is given a PIN that is wrong,
presents it once and stops; the last is given nothing, and asks nothing. -/
theorem tries_are_spent_as_planned_burnt :
    ((triesRun burningApplet none).1 = (.ok .wiped, true) ∧
      triesSpent (triesRun burningApplet none).2.2 = 5 ∧
      ∀ line ∈ (triesRun burningApplet none).2.2, ∀ apdu, line.1 = .transmit apdu →
        SpendsAsPlanned burningApplet none apdu) ∧
    (triesSpent (triesRun guardedApplet (some wrongPin)).2.2 = 1 ∧
      (triesRun guardedApplet (some wrongPin)).2.1 = ⟨1, 3⟩ ∧
      ∀ line ∈ (triesRun guardedApplet (some wrongPin)).2.2, ∀ apdu, line.1 = .transmit apdu →
        SpendsAsPlanned guardedApplet (some wrongPin) apdu) ∧
    (triesRun guardedApplet none).2.2 = [] ∧
      (triesRun guardedApplet none).1.1 = .error .pivResetNeedsManagementAuth := by
  have hburnt := tries_are_spent_as_planned sameBlock burningApplet none none true
    (says_triesRun burningApplet none)
  have hguarded := tries_are_spent_as_planned sameBlock guardedApplet none (some wrongPin) true
    (says_triesRun guardedApplet (some wrongPin))
  have hnothing := tries_are_spent_as_planned sameBlock guardedApplet none none true
    (says_triesRun guardedApplet none)
  exact ⟨⟨by decide, by decide, hburnt.1⟩,
    ⟨by decide, by decide, hguarded.1⟩, hnothing.2.2 rfl (.inr (by decide))⟩

theorem only_forceResetIfKnownSupported (gate : FeatureGate) (sendIfListedUnsupported : Bool) :
    Only (PivSends fun apdu => SpendsTry apdu → gate = .supported)
      (forceResetIfKnownSupported gate sendIfListedUnsupported) := by
  cases gate with
  | supported => exact only_escalatingReset fun _ _ => rfl
  | unverified => exact only_bareReset (fun h => absurd h not_spendsTry_reset) _
  | unsupported =>
      cases sendIfListedUnsupported with
      | true => exact only_bareReset (fun h => absurd h not_spendsTry_reset) _
      | false => exact .pure

/-- **A reset of PIV alone tells whether it wiped it, and burns no tries on a guess.** The result is
a wipe exactly if the card carried RESET out; the whole card is never reset; tries of the PIN or the
PUK are spent only where RESET is known to exist; and where it is known not to, the card is asked
nothing unless that is wanted. -/
theorem forced_reset_tells_and_spares (gate : FeatureGate) (sendIfListedUnsupported : Bool)
    (appletSelected : Bool) {log : List (Asked FactoryAnswer)} {result : FactoryReset}
    {after : Bool}
    (h : Says (forceResetIfKnownSupported gate sendIfListedUnsupported appletSelected) log
      (result, after)) :
    ((course appletSelected log).reset = true ↔ ∃ outcome, result = .ok outcome) ∧
      (course appletSelected log).cardReset = false ∧
      (∀ line ∈ log, ∀ apdu, line.1 = .transmit apdu → SpendsTry apdu → gate = .supported) ∧
      (gate = .unsupported → sendIfListedUnsupported = false → log = []) := by
  obtain ⟨wiped, ⟨htold, -⟩, hc⟩ := always_watch
    (ensures_forceResetIfKnownSupported gate sendIfListedUnsupported
      (atPiv_start appletSelected)) h
  have hreset : (course appletSelected log).reset = wiped := hc.reset
  refine ⟨?_, hc.cardReset, fun line hline => ?_, ?_⟩
  · rw [hreset, htold]
    cases result with
    | error e => exact ⟨fun h => (by cases h), fun ⟨_, h⟩ => (by cases h)⟩
    | ok outcome => exact ⟨fun _ => ⟨outcome, rfl⟩, fun _ => rfl⟩
  · exact Asks.spoken
      (only_forceResetIfKnownSupported gate sendIfListedUnsupported appletSelected) h line hline
  · rintro rfl rfl
    exact (says_pure.mp h).1

theorem says_bareAtOnce : Says (forceResetIfKnownSupported .unverified false true)
    (wipedAtOnce.drop 2) (.ok .wiped, true) :=
  .ask _ (.ask _ (.ask _ (.ask _ .done)))

theorem forced_reset_tells_and_spares_atOnce :
    ((course true (wipedAtOnce.drop 2)).reset = true ↔
        ∃ outcome, (.ok .wiped : FactoryReset) = .ok outcome) ∧
      (course true (wipedAtOnce.drop 2)).cardReset = false ∧
      (∀ line ∈ wipedAtOnce.drop 2, ∀ apdu, line.1 = .transmit apdu → SpendsTry apdu →
        FeatureGate.unverified = .supported) ∧
      (FeatureGate.unverified = .unsupported → false = false → wipedAtOnce.drop 2 = []) :=
  forced_reset_tells_and_spares .unverified false true says_bareAtOnce

/-! ### Whole sessions -/

/-- What a session may be asked to do to the card as a whole or to the key of its management, each
with the arguments of the source's function. -/
inductive CardWork where
  | authenticate (current : CurrentMgmtAuth)
  | setManagementKey (current : CurrentMgmtAuth) (alg : MgmtAlg) (key : List UInt8)
      (requireTouch allowPinUnlock : Bool)
  | reset (sendIfListedUnsupported : Bool)
  | factoryReset (current : Option CurrentMgmtAuth)
deriving DecidableEq, Repr

section Works

variable (cipher : MgmtCipher) (applet : FactoryApplet)

def setManagementKeyNow (hint : Option MgmtAlg) (current : CurrentMgmtAuth) (alg : MgmtAlg)
    (key : List UInt8) (requireTouch allowPinUnlock : Bool) :
    FactoryM (Mgmt PinProtectMaintenance) := do
  let (result, _) ← (setManagementKeyPinProtected applet.mgmt current alg key requireTouch
    allowPinUnlock hint).handle (answerMgmt cipher)
  return result

/-- One piece of work, and what a reset says of itself. -/
def runWork (hint : Option MgmtAlg) : CardWork → FactoryM (Option FactoryReset)
  | .authenticate current => do
      let _ ← authenticateNow cipher applet hint current
      return none
  | .setManagementKey current alg key requireTouch allowPinUnlock => do
      let _ ← setManagementKeyNow cipher applet hint current alg key requireTouch allowPinUnlock
      return none
  | .reset sendIfListedUnsupported => do
      return some (← forceResetIfKnownSupported applet.reset sendIfListedUnsupported)
  | .factoryReset current => do return some (← factoryReset cipher applet hint current)

/-- One piece of work after another, whatever algorithm the session remembers before each. -/
def runWorks : List (Option MgmtAlg × CardWork) → FactoryM (List FactoryReset)
  | [] => return []
  | (hint, work) :: works => do
      let result ← runWork cipher applet hint work
      let results ← runWorks works
      return result.toList ++ results

end Works

/-- What setting the management key sends: never RESET. -/
theorem only_setManagementKeyPinProtected (applet : MgmtApplet) (current : CurrentMgmtAuth)
    (alg : MgmtAlg) (key : List UInt8) (requireTouch allowPinUnlock : Bool) :
    Only (· ≠ MgmtAsk.transmit reset)
      (setManagementKeyPinProtected applet current alg key requireTouch allowPinUnlock) := by
  have hsend : ∀ {ins : UInt8} {apdu : List UInt8}, apdu[1]? = some ins → ins ≠ INS_RESET →
      Only (· ≠ MgmtAsk.transmit reset) (transmitMgmt apdu) := by
    intro ins apdu happ hins
    refine .bind (.ask fun h => ?_) fun _ => .pure
    rw [MgmtAsk.transmit.inj h] at happ
    exact hins (Option.some.inj happ).symm
  have hset : Only (· ≠ MgmtAsk.transmit reset) (sendSetManagementKey alg key requireTouch) :=
    .andThen (hsend rfl (by decide)) fun _ => .pure
  have hput : ∀ label inner, Only (· ≠ MgmtAsk.transmit reset) (putPinProtectedData label inner) :=
    fun _ _ => .andThen (hsend (ins_buildApduExt ..) (by decide)) fun _ => .pure
  have hadmin : Only (· ≠ MgmtAsk.transmit reset)
      (updateAdminDataPinProtectedFlag allowPinUnlock) := by
    refine .andThen (.andThen (hsend rfl (by decide)) fun _ => .pure) fun existing => ?_
    split
    · exact .pure
    · exact .andThen (hsend (ins_buildApduExt ..) (by decide)) fun _ => .pure
  refine .andThen ?_ fun _ => ?_
  · unfold setManagementKey
    split
    · exact .pure
    · split
      · refine .bind (.ask (by decide)) fun reports => ?_
        split
        · exact hset
        · exact .ask fun h => by cases h
      · exact hset
  · split
    · exact .pure
    · refine .andThen hadmin fun _ => .bind ?_ fun _ => .pure
      unfold maintainPinProtectedData
      split
      · exact hput _ _
      · exact hput _ _

section Works

variable {c : Course} {b ρ κ : Bool} (cipher : MgmtCipher) (applet : FactoryApplet)

theorem ensures_setManagementKeyNow (hint : Option MgmtAlg) (current : CurrentMgmtAuth)
    (alg : MgmtAlg) (key : List UInt8) (requireTouch allowPinUnlock : Bool)
    (hc : c.AtPiv ρ κ b) :
    Ensures anyCard (fun _ b' c' => c'.AtPiv ρ κ b')
      (setManagementKeyNow cipher applet hint current alg key requireTouch allowPinUnlock) b c := by
  have hasks := only_setManagementKeyPinProtected applet.mgmt current alg key requireTouch
    allowPinUnlock hint
  refine ensures_bind ((hasks.ensures (J := fun b c => c.AtPiv ρ κ b) ?_ hc).mono ?_)
  · exact fun q b c hq hc => ensures_answerMgmt cipher hq hc
  · exact fun r b' c' hc' => ensures_pure hc'

/-- The results of the resets of a session, beside what the card carried out in it. -/
def AllTold (ρ κ : Bool) (results : List FactoryReset) (b : Bool) (c : Course) : Prop :=
  ∃ reset cardReset, (reset = true ↔ .ok .wiped ∈ results) ∧
    (cardReset = true ↔ .ok .wipedGlobal ∈ results ∨ .ok .wipedKeyRestoreFailed ∈ results) ∧
    c.AtPiv (ρ || reset) (κ || cardReset) b

theorem allTold_nil (hc : c.AtPiv ρ κ b) : AllTold ρ κ [] b c := by
  refine ⟨false, false, by simp, by simp, ?_⟩
  rwa [Bool.or_false, Bool.or_false]

theorem TruthTold.allTold {r : FactoryReset} (h : TruthTold ρ κ r b c) : AllTold ρ κ [r] b c := by
  obtain ⟨reset, cardReset, ⟨hreset, hcard⟩, hc⟩ := h
  refine ⟨reset, cardReset, ?_, ?_, hc⟩
  · rw [hreset, List.mem_singleton, eq_comm]
  · rw [hcard, List.mem_singleton, List.mem_singleton, eq_comm, @eq_comm _ r]

/-- What one piece of work tells. -/
theorem ensures_runWork (hint : Option MgmtAlg) (work : CardWork) (hc : c.AtPiv ρ κ b) :
    Ensures anyCard (fun r b' c' => AllTold ρ κ r.toList b' c')
      (runWork cipher applet hint work) b c := by
  cases work with
  | authenticate current =>
      refine ensures_bind ((ensures_authenticateNow cipher applet hint current hc).mono ?_)
      exact fun _ _ _ hc' => ensures_pure (allTold_nil hc')
  | setManagementKey current alg key requireTouch allowPinUnlock =>
      refine ensures_bind ((ensures_setManagementKeyNow cipher applet hint current alg key
        requireTouch allowPinUnlock hc).mono ?_)
      exact fun _ _ _ hc' => ensures_pure (allTold_nil hc')
  | reset sendIfListedUnsupported =>
      refine ensures_bind ((ensures_forceResetIfKnownSupported applet.reset
        sendIfListedUnsupported hc).mono ?_)
      exact fun _ _ _ h => ensures_pure h.truthTold.allTold
  | factoryReset current =>
      refine ensures_bind ((ensures_factoryReset cipher applet hint current hc).mono ?_)
      exact fun _ _ _ h => ensures_pure h.allTold

theorem ensures_runWorks (works : List (Option MgmtAlg × CardWork)) (hc : c.AtPiv ρ κ b) :
    Ensures anyCard (AllTold ρ κ) (runWorks cipher applet works) b c := by
  induction works generalizing b c ρ κ with
  | nil => exact ensures_pure (allTold_nil hc)
  | cons work works ih =>
      refine ensures_bind ((ensures_runWork cipher applet work.1 work.2 hc).mono ?_)
      rintro result b' c' ⟨reset, cardReset, hreset, hcard, hc'⟩
      refine ensures_bind ((ih hc').mono ?_)
      rintro results b'' c'' ⟨reset', cardReset', hreset', hcard', hc''⟩
      refine ensures_pure ⟨reset || reset', cardReset || cardReset', ?_, ?_, ?_⟩
      · rw [Bool.or_eq_true, hreset, hreset', List.mem_append]
      · rw [Bool.or_eq_true, hcard, hcard', List.mem_append, List.mem_append]
        exact or_or_or_comm
      · rwa [← Bool.or_assoc, ← Bool.or_assoc]

end Works

/-- **A session tells what it wiped.** However proofs and changes of the management key, resets of
PIV and factory resets follow each other in a session: PIV was wiped exactly if one of the results
is that it was, and the whole card exactly if one says so, so that after errors alone neither was;
and a command, reads of the session itself apart, goes to an applet that it is not for only after
a selection of PIV that got no answer. -/
theorem session_tells_what_was_wiped (cipher : MgmtCipher) (applet : FactoryApplet)
    (works : List (Option MgmtAlg × CardWork)) (appletSelected : Bool)
    {log : List (Asked FactoryAnswer)} {results : List FactoryReset} {after : Bool}
    (h : Says (runWorks cipher applet works appletSelected) log (results, after)) :
    ((course appletSelected log).reset = true ↔ .ok .wiped ∈ results) ∧
      ((course appletSelected log).cardReset = true ↔
        .ok .wipedGlobal ∈ results ∨ .ok .wipedKeyRestoreFailed ∈ results) ∧
      ((course appletSelected log).astray = true → (course appletSelected log).lost = true) := by
  obtain ⟨reset, cardReset, hreset, hcard, hc⟩ := always_watch
    (ensures_runWorks cipher applet works (atPiv_start appletSelected)) h
  have hρ : (course appletSelected log).reset = reset := hc.reset
  have hκ : (course appletSelected log).cardReset = cardReset := hc.cardReset
  rw [hρ, hκ]
  exact ⟨hreset, hcard, hc.astray⟩

/-- A reset of PIV, and then a factory reset. -/
def twoResets : List (Option MgmtAlg × CardWork) :=
  [(none, .reset false), (some .aes128, .factoryReset (some shortPin))]

theorem says_twoResets : Says (runWorks sameBlock maybeGlobal twoResets true)
    (wipedAtOnce.drop 2 ++ wipedAtOnce) ([.ok .wiped, .ok .wiped], true) :=
  .ask _ (.ask _ (.ask _ (.ask _ (.ask _ (.ask _ (.ask _ (.ask _ (.ask _ (.ask _ .done)))))))))

theorem session_tells_what_was_wiped_twoResets :
    ((course true (wipedAtOnce.drop 2 ++ wipedAtOnce)).reset = true ↔
        .ok .wiped ∈ ([.ok .wiped, .ok .wiped] : List FactoryReset)) ∧
      ((course true (wipedAtOnce.drop 2 ++ wipedAtOnce)).cardReset = true ↔
        .ok .wipedGlobal ∈ ([.ok .wiped, .ok .wiped] : List FactoryReset) ∨
          .ok .wipedKeyRestoreFailed ∈ ([.ok .wiped, .ok .wiped] : List FactoryReset)) ∧
      ((course true (wipedAtOnce.drop 2 ++ wipedAtOnce)).astray = true →
        (course true (wipedAtOnce.drop 2 ++ wipedAtOnce)).lost = true) :=
  session_tells_what_was_wiped sameBlock maybeGlobal twoResets true says_twoResets

/-- The other applet stays selected, and is sent the RESET of PIV. -/
def wentAstray : List (Asked FactoryAnswer) :=
  [⟨.transmitRaw (selectByAid HID_CRESCENDO_ACA_AID), .ok ([], SW_OK)⟩,
    ⟨.transmitRaw selectFull, .error (.pcsc PcscError.INSUFFICIENT_BUFFER)⟩,
    ⟨.resetFailsIfManagementKeyIsAes, false⟩,
    ⟨.transmit reset, .ok ([], 0x6D00)⟩]

/-- The exception is real: a session goes on as if PIV were selected when its selection got no
answer. -/
theorem reset_went_astray : (course true wentAstray).astray = true ∧
    Says (factoryReset sameBlock maybeGlobal none (some shortPin) true) wentAstray
      (.error (.pivResetUnverifiedFailed (.apdu RESET_LABEL 0x6D 0x00)), true) :=
  ⟨by decide, .ask _ (.ask _ (.ask _ (.ask _ .done)))⟩

end Keyroost.Piv
