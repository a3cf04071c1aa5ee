import Keyroost.Piv.ForceReset
import Mathlib.Data.List.Chain

/-!
# What the factory reset never does

Whatever the card answers: no guess at the PIN before RESET was refused, none at the PUK before the
PIN was reported blocked and RESET refused again, no more guesses than the cap, and no success
without a RESET the card answered `9000`.

All of it is about the log of a conversation of `ForceReset`. The lemmas say what one function
leaves in the log (`says_sendReset`, `says_blockCredential`), in the order of the source, and the
stages are put together from them: `Guarded` carries the conditions on what came before a guess
through a log that grows. `forceReset_limits` collects the limits. That two guesses in a row differ
does not hold across the two credentials, as `same_guess_at_pin_and_puk` shows.
-/

namespace Keyroost.Piv

open Transport Proto Dialogue

/-! ### Reading the conversation -/

abbrev ResetLine : Type := Asked ResetAnswer

/-- The guess in a command with instruction `ins`: VERIFY presents the PIN, RESET RETRY
COUNTER the PUK. -/
def guessOf (ins : UInt8) : ResetAsk → Option (List UInt8)
  | .transmit apdu =>
      if apdu.take 4 = [0x00, ins, 0x00, PIN_REF_APPLICATION] then
        some ((apdu.drop 5).take GUESS_LEN)
      else none
  | _ => none

def guesses (ins : UInt8) (log : List ResetLine) : List (List UInt8) :=
  log.filterMap fun x => guessOf ins x.1

def swAnswered : (q : ResetAsk) → ResetAnswer q → Option UInt16
  | .transmit _, .ok (_, sw) => some sw
  | _, _ => none

def IsGuess (ins : UInt8) (x : ResetLine) : Prop := (guessOf ins x.1).isSome = true

/-- The card's answer to a guess, or to RESET. -/
def GuessAnswered (ins : UInt8) (P : UInt16 → Prop) (x : ResetLine) : Prop :=
  IsGuess ins x ∧ ∃ sw, swAnswered x.1 x.2 = some sw ∧ P sw

def ResetAnswered (P : UInt16 → Prop) (x : ResetLine) : Prop :=
  x.1 = .transmit reset ∧ ∃ sw, swAnswered x.1 x.2 = some sw ∧ P sw

/-- RESET refused for its precondition. -/
def ResetRefused : ResetLine → Prop := ResetAnswered fun sw => resetRefused sw = true

@[simp] theorem guesses_append (ins : UInt8) (a b : List ResetLine) :
    guesses ins (a ++ b) = guesses ins a ++ guesses ins b := List.filterMap_append ..

theorem guesses_eq_nil {ins : UInt8} {log : List ResetLine}
    (h : ∀ x ∈ log, ¬ IsGuess ins x) : guesses ins log = [] := by
  apply List.filterMap_eq_nil_iff.mpr
  intro x hx
  exact Option.not_isSome_iff_eq_none.mp (h x hx)

/-! ### Guesses that differ -/

theorem digit_toNat (b : UInt8) : (0x30 + b % 10 : UInt8).toNat = 48 + b.toNat % 10 := by
  have h : b.toNat % 10 < 10 := Nat.mod_lt _ (by decide)
  rw [UInt8.toNat_add, UInt8.toNat_mod]
  show (48 + b.toNat % 10) % 256 = _
  omega

/-- The next digit is another one. -/
theorem bumped_ne (b : UInt8) :
    (0x30 + ((0x30 + b % 10) - 0x30 + 1) % 10 : UInt8) ≠ 0x30 + b % 10 := by
  intro h
  have hsub : (0x30 + b % 10) - 0x30 = b % 10 := by
    rw [UInt8.add_comm, UInt8.add_sub_cancel]
  have hlt : b.toNat % 10 < 10 := Nat.mod_lt _ (by decide)
  have h' := congrArg UInt8.toNat h
  rw [hsub, digit_toNat, digit_toNat, UInt8.toNat_add, UInt8.toNat_mod] at h'
  have hone : (UInt8.toNat 1) = 1 := rfl
  have hten : (UInt8.toNat 10) = 10 := rfl
  rw [hone, hten] at h'
  omega

theorem length_credentialGuessFrom (raw : Entropy) (previous : Option (List UInt8)) :
    (credentialGuessFrom raw previous).length = GUESS_LEN := by
  simp only [credentialGuessFrom]
  split
  · rw [List.length_set, List.length_map, raw.size]
  · rw [List.length_map, raw.size]

theorem credentialGuessFrom_ne (raw : Entropy) (previous : Option (List UInt8)) :
    previous ≠ some (credentialGuessFrom raw previous) := by
  simp only [credentialGuessFrom]
  split
  · next hsame =>
      rw [hsame]
      intro h
      have hlast : 7 < raw.bytes.length := by
        rw [raw.size]
        decide
      have hget := congrArg (fun guess => guess[7]?) (Option.some.inj h)
      have hmap : (raw.bytes.map fun byte => 0x30 + byte % 10)[7]? =
          some ((0x30 : UInt8) + raw.bytes[7] % 10) := by
        rw [List.getElem?_map, List.getElem?_eq_getElem hlast, Option.map_some]
      have hset : 7 < (raw.bytes.map fun byte => 0x30 + byte % 10).length := by
        rw [List.length_map]
        exact hlast
      simp only [GUESS_LEN, List.getD_eq_getElem?_getD] at hget
      rw [List.getElem?_set_self hset, hmap, Option.getD_some] at hget
      exact bumped_ne _ (Option.some.inj hget).symm
  · next hother => exact hother

/-! ### RESET -/

theorem not_isGuess_reset (ins : UInt8) (a : ResetAnswer (.transmit reset)) :
    ¬ IsGuess ins ⟨.transmit reset, a⟩ := by
  simp [IsGuess, guessOf, reset, PIN_REF_APPLICATION]

/-- What one `sessionReset` sends and what its result says. It makes no guess, and it says that the
reset was refused or accepted only where an answer said so. -/
structure ResetLog (log : List ResetLine) (result : Tried Unit) : Prop where
  noGuess : ∀ ins, ∀ x ∈ log, ¬ IsGuess ins x
  refused : result = .error .pivResetNotAllowed → ∃ x ∈ log, ResetRefused x
  accepted : result = .ok () → ∃ x ∈ log, ResetAnswered (· = SW_OK) x
  sparing : result ≠ .error .pivPukGuessAccepted

theorem toTransport_ne_resetNotAllowed (e : LinkError) :
    e.toTransport ≠ .pivResetNotAllowed := by
  cases e <;> exact nofun

theorem toTransport_ne_pukGuessAccepted (e : LinkError) :
    e.toTransport ≠ .pivPukGuessAccepted := by
  cases e <;> exact nofun

theorem okOrWrite_error {label : String} {sw : UInt16} {e : TransportError}
    (h : okOrWrite label sw = .error e) :
    e = .pivSecurityNotSatisfied ∨ e = .apdu label (sw >>> 8).toUInt8 sw.toUInt8 := by
  unfold okOrWrite okOrApdu at h
  split at h
  · exact .inl (Except.error.inj h).symm
  · split at h
    · cases h
    · exact .inr (Except.error.inj h).symm

theorem says_checkManagementKey {log : List ResetLine} {result : Tried Unit}
    (h : Says checkManagementKey log result) :
    (∀ ins, ∀ x ∈ log, ¬ IsGuess ins x) ∧
      (result = .ok () ∨ ∃ alg, result = .error (.pivResetManagementKeyMustBe3Des alg)) := by
  obtain ⟨quirky, rest, rfl, hnext⟩ := says_ask.mp h
  cases quirky with
  | false =>
      obtain ⟨rfl, rfl⟩ := says_done.mp hnext
      refine ⟨fun ins x hx => ?_, .inl rfl⟩
      rw [List.mem_singleton.mp hx]
      exact nofun
  | true =>
      obtain ⟨alg, rest, rfl, hdone⟩ := says_ask.mp hnext
      have hnone : ∀ ins, ∀ x ∈ [(⟨.resetFailsIfManagementKeyIsAes, true⟩ : ResetLine),
          ⟨.reportedManagementKeyAlgorithm, alg⟩], ¬ IsGuess ins x := by
        intro ins x hx
        rcases List.mem_pair.mp hx with rfl | rfl
        · exact nofun
        · exact nofun
      split at hdone
      · obtain ⟨rfl, rfl⟩ := says_done.mp hdone
        exact ⟨hnone, .inl rfl⟩
      · obtain ⟨rfl, rfl⟩ := says_done.mp hdone
        exact ⟨hnone, .inl rfl⟩
      · obtain ⟨rfl, rfl⟩ := says_done.mp hdone
        exact ⟨hnone, .inr ⟨_, rfl⟩⟩

theorem says_sendReset {log : List ResetLine} {result : Tried Unit}
    (h : Says sendReset log result) : ResetLog log result := by
  obtain ⟨answer, rest, rfl, hnext⟩ := says_ask.mp h
  rcases answer with e | ⟨data, sw⟩
  · obtain ⟨rfl, rfl⟩ := says_done.mp hnext
    refine ⟨fun ins x hx => ?_, fun hres => ?_, fun hok => (nomatch hok), fun hres => ?_⟩
    · rw [List.mem_singleton.mp hx]
      exact not_isGuess_reset ins _
    · exact absurd (Except.error.inj hres) (toTransport_ne_resetNotAllowed e)
    · exact toTransport_ne_pukGuessAccepted e (Except.error.inj hres)
  · by_cases hrefused : resetRefused sw = true
    · simp only [hrefused, if_true] at hnext
      obtain ⟨rfl, rfl⟩ := says_done.mp hnext
      refine ⟨fun ins x hx => ?_, fun _ => ?_, fun hok => (nomatch hok), nofun⟩
      · rw [List.mem_singleton.mp hx]
        exact not_isGuess_reset ins _
      · exact ⟨_, List.mem_singleton_self _, rfl, sw, rfl, hrefused⟩
    · simp only [hrefused] at hnext
      rcases hwrite : okOrWrite RESET_LABEL sw with e | u
      · simp only [hwrite] at hnext
        obtain ⟨rfl, rfl⟩ := says_done.mp hnext
        refine ⟨fun ins x hx => ?_, fun hres => ?_, fun hok => (nomatch hok), fun hres => ?_⟩
        · rw [List.mem_singleton.mp hx]
          exact not_isGuess_reset ins _
        · rw [Except.error.inj hres] at hwrite
          rcases okOrWrite_error hwrite with he | he <;> cases he
        · rw [Except.error.inj hres] at hwrite
          rcases okOrWrite_error hwrite with he | he <;> cases he
      · simp only [hwrite] at hnext
        obtain ⟨refreshed, rest, rfl, hdone⟩ := says_ask.mp hnext
        obtain ⟨rfl, rfl⟩ := says_done.mp hdone
        have hsw : sw = SW_OK := okOrWrite_eq_ok.mp hwrite
        refine ⟨fun ins x hx => ?_, nofun, fun _ => ?_, nofun⟩
        · rcases List.mem_pair.mp hx with rfl | rfl
          · exact not_isGuess_reset ins _
          · exact nofun
        · exact ⟨_, List.mem_cons_self, rfl, sw, rfl, hsw⟩

theorem says_sessionReset {log : List ResetLine} {result : Tried Unit}
    (h : Says sessionReset log result) : ResetLog log result := by
  rcases says_andThen.mp h with ⟨e, rfl, hcheck⟩ | ⟨first, u, rest, rfl, hfirst, hrest⟩
  · obtain ⟨hnone, hok | ⟨alg, halg⟩⟩ := says_checkManagementKey hcheck
    · cases hok
    · rw [halg]
      exact ⟨hnone, nofun, nofun, nofun⟩
  · obtain ⟨hnone, -⟩ := says_checkManagementKey hfirst
    obtain ⟨hrest, hrefused, haccepted, hsparing⟩ := says_sendReset hrest
    refine ⟨fun ins x hx => ?_, fun hres => ?_, fun hres => ?_, hsparing⟩
    · rcases List.mem_append.mp hx with hx | hx
      · exact hnone ins x hx
      · exact hrest ins x hx
    · obtain ⟨x, hx, hx'⟩ := hrefused hres
      exact ⟨x, List.mem_append_right _ hx, hx'⟩
    · obtain ⟨x, hx, hx'⟩ := haccepted hres
      exact ⟨x, List.mem_append_right _ hx, hx'⟩

/-! ### The guessing loops -/

section Block

variable {ins : UInt8} {build : List UInt8 → List UInt8}
  {present : List UInt8 → ResetTalk (Tried Unit)} {accepted : Option TransportError}

/-- What a guessing loop sends, started with `attempts` attempts after the guess `previous`. It
guesses at its own reference alone, not oftener than that, and never the same value twice in a row;
where an accepted guess is an error, it is the last. -/
structure BlockLog (ins : UInt8) (accepted : Option TransportError) (attempts : Nat)
    (previous : Option (List UInt8)) (log : List ResetLine) (result : Tried Bool) : Prop where
  others : ∀ ins', ins' ≠ ins → ∀ x ∈ log, ¬ IsGuess ins' x
  capped : (guesses ins log).length ≤ attempts
  fresh : (previous.toList ++ guesses ins log).IsChain (· ≠ ·)
  blocked : result = .ok true → ∃ x ∈ log, GuessAnswered ins Blocked x
  stopped : ∀ e, accepted = some e →
    log.Pairwise (fun x _ => ¬ GuessAnswered ins (· = SW_OK) x) ∧
      ((∃ x ∈ log, GuessAnswered ins (· = SW_OK) x) → result = .error e)

/-- A command that presents a guess with instruction `ins` and nothing else. -/
def Presents (ins : UInt8) (build : List UInt8 → List UInt8) : Prop :=
  ∀ guess, guess.length = GUESS_LEN → guessOf ins (.transmit (build guess)) = some guess ∧
    ∀ ins', ins' ≠ ins → guessOf ins' (.transmit (build guess)) = none

/-- One draw and one guess, as the conversation has it. -/
def guessRound (raw : Entropy) (apdu : List UInt8) (answer : ResetAnswer (.transmit apdu)) :
    List ResetLine :=
  [⟨.getrandom, some raw⟩, ⟨.transmit apdu, answer⟩]

theorem others_guessRound (hbuild : Presents ins build) {guess : List UInt8}
    (hguess : guess.length = GUESS_LEN) (raw : Entropy)
    (answer : ResetAnswer (.transmit (build guess))) {ins' : UInt8} (hins : ins' ≠ ins) :
    ∀ x ∈ guessRound raw (build guess) answer, ¬ IsGuess ins' x := by
  intro x hx
  rcases List.mem_pair.mp hx with rfl | rfl
  · exact nofun
  · intro h
    rw [IsGuess, (hbuild guess hguess).2 ins' hins] at h
    cases h

theorem guesses_guessRound (hbuild : Presents ins build) {guess : List UInt8}
    (hguess : guess.length = GUESS_LEN) (raw : Entropy)
    (answer : ResetAnswer (.transmit (build guess))) :
    guesses ins (guessRound raw (build guess) answer) = [guess] := by
  have hsome : guessOf ins (⟨.transmit (build guess), answer⟩ : ResetLine).1 = some guess :=
    (hbuild guess hguess).1
  rw [guesses, guessRound, List.filterMap_cons_none rfl,
    List.filterMap_cons_some (f := fun (x : ResetLine) => guessOf ins x.1) hsome]
  rfl

theorem isChain_cons_guess {previous : Option (List UInt8)} {guess : List UInt8}
    {later : List (List UInt8)} (hnew : previous ≠ some guess)
    (h : ([guess] ++ later).IsChain (· ≠ ·)) :
    (previous.toList ++ ([guess] ++ later)).IsChain (· ≠ ·) := by
  cases previous with
  | none => exact h
  | some p => exact .cons_cons (fun hp => hnew (congrArg some hp)) h

/-- One round in front of a loop that goes on. -/
theorem BlockLog.round (hbuild : Presents ins build) {attempts : Nat}
    {previous : Option (List UInt8)} {guess : List UInt8} (hguess : guess.length = GUESS_LEN)
    (hnew : previous ≠ some guess) (raw : Entropy)
    {answer : ResetAnswer (.transmit (build guess))}
    (hgoes : accepted ≠ none → ¬ GuessAnswered ins (· = SW_OK) ⟨_, answer⟩)
    {rest : List ResetLine} {result : Tried Bool}
    (h : BlockLog ins accepted attempts (some guess) rest result) :
    BlockLog ins accepted (attempts + 1) previous
      (guessRound raw (build guess) answer ++ rest) result := by
  have hround := guesses_guessRound hbuild hguess raw answer
  refine ⟨?_, ?_, ?_, ?_, ?_⟩
  · intro ins' hins x hx
    rcases List.mem_append.mp hx with hx | hx
    · exact others_guessRound hbuild hguess raw answer hins x hx
    · exact h.others ins' hins x hx
  · rw [guesses_append, hround, List.length_append, Nat.add_comm]
    exact Nat.succ_le_succ h.capped
  · rw [guesses_append, hround]
    exact isChain_cons_guess hnew h.fresh
  · intro hres
    obtain ⟨x, hx, hx'⟩ := h.blocked hres
    exact ⟨x, List.mem_append_right _ hx, hx'⟩
  · intro e he
    obtain ⟨hpair, herror⟩ := h.stopped e he
    have hgo : ¬ GuessAnswered ins (· = SW_OK) ⟨_, answer⟩ := hgoes (by rw [he]; exact nofun)
    have hnone : ∀ x ∈ guessRound raw (build guess) answer,
        ¬ GuessAnswered ins (· = SW_OK) x := by
      intro x hx
      rcases List.mem_pair.mp hx with rfl | rfl
      · exact fun hg => nomatch hg.1
      · exact hgo
    refine ⟨?_, ?_⟩
    · exact List.pairwise_append.mpr ⟨List.pairwise_of_forall_mem_list
        fun x hx _ _ => hnone x hx, hpair, fun x hx _ _ => hnone x hx⟩
    · rintro ⟨x, hx, hx'⟩
      rcases List.mem_append.mp hx with hx | hx
      · exact absurd hx' (hnone x hx)
      · exact herror ⟨x, hx, hx'⟩

/-- A round that ends the loop. -/
theorem BlockLog.last (hbuild : Presents ins build) {attempts : Nat}
    {previous : Option (List UInt8)} {guess : List UInt8} (hguess : guess.length = GUESS_LEN)
    (hnew : previous ≠ some guess) (raw : Entropy)
    {answer : ResetAnswer (.transmit (build guess))} {result : Tried Bool}
    (hblocked : result = .ok true → GuessAnswered ins Blocked ⟨_, answer⟩)
    (hstops : ∀ e, accepted = some e → GuessAnswered ins (· = SW_OK) ⟨_, answer⟩ →
      result = .error e) :
    BlockLog ins accepted (attempts + 1) previous (guessRound raw (build guess) answer)
      result := by
  have hround := guesses_guessRound hbuild hguess raw answer
  refine ⟨fun ins' hins => others_guessRound hbuild hguess raw answer hins, ?_, ?_, ?_, ?_⟩
  · rw [hround]
    exact Nat.le_add_left 1 attempts
  · rw [hround]
    exact isChain_cons_guess hnew (.singleton guess)
  · intro hres
    exact ⟨_, List.mem_cons_of_mem _ (List.mem_singleton_self _), hblocked hres⟩
  · intro e he
    refine ⟨?_, ?_⟩
    · exact .cons (fun _ _ hg => nomatch hg.1) (List.pairwise_singleton _ _)
    · rintro ⟨x, hx, hx'⟩
      rcases List.mem_pair.mp hx with rfl | rfl
      · exact nomatch hx'.1
      · exact hstops e he hx'

theorem isGuess_build (hbuild : Presents ins build) {guess : List UInt8}
    (hguess : guess.length = GUESS_LEN) (answer : ResetAnswer (.transmit (build guess))) :
    IsGuess ins ⟨_, answer⟩ := by
  rw [IsGuess, (hbuild guess hguess).1]
  rfl

theorem guessAnswered_of_pinResult (hbuild : Presents ins build) {guess : List UInt8}
    (hguess : guess.length = GUESS_LEN) (answer : ResetAnswer (.transmit (build guess))) :
    (GuessAnswered ins (· = SW_OK) ⟨_, answer⟩ ↔ pinResult answer = .ok ()) ∧
      (pinResult answer = .error (.pivPinRejected (some 0)) →
        GuessAnswered ins Blocked ⟨_, answer⟩) := by
  have hisGuess := isGuess_build hbuild hguess answer
  rcases answer with e | ⟨data, sw⟩
  · refine ⟨⟨fun hg => ?_, nofun⟩, fun h => ?_⟩
    · obtain ⟨-, sw, hsw, -⟩ := hg
      cases hsw
    · have he := Except.error.inj h
      cases e <;> cases he
  · refine ⟨⟨fun hg => ?_, fun h => ?_⟩, fun h => ?_⟩
    · obtain ⟨-, sw', hsw, rfl⟩ := hg
      rw [Option.some.inj hsw]
      rfl
    · exact ⟨hisGuess, sw, rfl, mapPinSw_eq_ok.mp h⟩
    · exact ⟨hisGuess, sw, rfl, mapPinSw_eq_blocked.mp h⟩

theorem says_randomCredentialGuess {previous : Option (List UInt8)} {log : List ResetLine}
    {result : Tried (List UInt8)} (h : Says (randomCredentialGuess previous) log result) :
    (log = [⟨.getrandom, none⟩] ∧ result = .error .hostRngFailed) ∨
      ∃ raw, log = [⟨.getrandom, some raw⟩] ∧ result = .ok (credentialGuessFrom raw previous) := by
  obtain ⟨filled, rest, rfl, hnext⟩ := says_ask.mp h
  cases filled with
  | none =>
      obtain ⟨rfl, rfl⟩ := says_done.mp hnext
      exact .inl ⟨rfl, rfl⟩
  | some raw =>
      obtain ⟨rfl, rfl⟩ := says_done.mp hnext
      exact .inr ⟨raw, rfl, rfl⟩

/-- What follows a guess: on, or an end of the loop. -/
theorem says_blockCredential (hbuild : Presents ins build)
    (hpresent : ∀ guess, guess.length = GUESS_LEN →
      present guess = presentPin (.ok (build guess))) {attempts : Nat}
    {previous : Option (List UInt8)} {log : List ResetLine} {result : Tried Bool}
    (h : Says (blockCredential present accepted attempts previous) log result) :
    BlockLog ins accepted attempts previous log result := by
  induction attempts generalizing previous log with
  | zero =>
      obtain ⟨rfl, rfl⟩ := says_done.mp h
      refine ⟨nofun, Nat.le_refl 0, ?_, nofun, fun e he => ⟨.nil, nofun⟩⟩
      cases previous with
      | none => exact .nil
      | some p => exact .singleton p
  | succ attempts ih =>
      rcases says_andThen.mp h with ⟨e, rfl, hdraw⟩ | ⟨first, guess, rest, rfl, hdraw, hrest⟩
      · rcases says_randomCredentialGuess hdraw with ⟨rfl, -⟩ | ⟨raw, -, hok⟩
        · refine ⟨?_, Nat.zero_le _, ?_, nofun, fun e' he => ⟨List.pairwise_singleton _ _, ?_⟩⟩
          · intro ins' _ x hx
            rw [List.mem_singleton.mp hx]
            exact nofun
          · cases previous with
            | none => exact .nil
            | some p => exact .singleton p
          · rintro ⟨x, hx, hx'⟩
            rw [List.mem_singleton.mp hx] at hx'
            exact nomatch hx'.1
        · cases hok
      · rcases says_randomCredentialGuess hdraw with ⟨-, hfail⟩ | ⟨raw, rfl, hok⟩
        · cases hfail
        · obtain rfl := Except.ok.inj hok
          have hguess := length_credentialGuessFrom raw previous
          have hnew := credentialGuessFrom_ne raw previous
          obtain ⟨second, r, rest, rfl, hsend, hrest⟩ := says_bind.mp hrest
          rw [hpresent _ hguess] at hsend
          obtain ⟨answer, none_left, rfl, hdone⟩ := says_ask.mp hsend
          obtain ⟨rfl, rfl⟩ := says_done.mp hdone
          have hanswer := guessAnswered_of_pinResult hbuild hguess answer
          obtain ⟨hok, hblocked⟩ := hanswer
          split at hrest
          · next hpin =>
              split at hrest
              · next e =>
                  obtain ⟨rfl, rfl⟩ := says_done.mp hrest
                  refine .last hbuild hguess hnew raw nofun fun e' he' _ => ?_
                  rw [Option.some.inj he']
              · exact .round hbuild hguess hnew raw (fun ha => absurd rfl ha) (ih hrest)
          · next hpin =>
              obtain ⟨rfl, rfl⟩ := says_done.mp hrest
              refine .last hbuild hguess hnew raw (fun _ => hblocked hpin) fun e' _ hg => ?_
              rw [hok.mp hg] at hpin
              cases hpin
          · next hpin =>
              refine .round hbuild hguess hnew raw (fun _ hg => ?_) (ih hrest)
              rw [hok.mp hg] at hpin
              cases hpin
          · next hpin =>
              obtain ⟨rfl, rfl⟩ := says_done.mp hrest
              refine .last hbuild hguess hnew raw nofun fun e' _ hg => ?_
              rw [hok.mp hg] at hpin
              cases hpin

end Block

theorem presents_verifyPin :
    Presents INS_VERIFY (buildApdu 0x00 INS_VERIFY 0x00 PIN_REF_APPLICATION) := by
  intro guess hguess
  refine ⟨?_, fun ins' hins => ?_⟩
  · simp [guessOf, buildApdu, List.take_of_length_le (Nat.le_of_eq hguess)]
  · have hother : ¬ INS_VERIFY = ins' := fun h => hins h.symm
    simp [guessOf, buildApdu, hother]

theorem presents_unblockPin : Presents INS_RESET_RETRY_COUNTER
    (fun guess => buildApdu 0x00 INS_RESET_RETRY_COUNTER 0x00 PIN_REF_APPLICATION
      (guess ++ (RECOVERY_PIN ++ List.replicate 2 0xFF))) := by
  intro guess hguess
  refine ⟨?_, fun ins' hins => ?_⟩
  · simp [guessOf, buildApdu, ← hguess]
  · have hother : ¬ INS_RESET_RETRY_COUNTER = ins' := fun h => hins h.symm
    simp [guessOf, buildApdu, hother]

theorem says_blockPin {attempts : Nat} {log : List ResetLine} {result : Tried Bool}
    (h : Says (blockPin attempts) log result) :
    BlockLog INS_VERIFY none attempts none log result := by
  refine says_blockCredential presents_verifyPin (fun guess hguess => ?_) h
  rw [sessionVerifyPin, verifyPin, padPin_eight hguess]
  rfl

theorem says_blockPuk {attempts : Nat} {log : List ResetLine} {result : Tried Bool}
    (h : Says (blockPuk attempts) log result) :
    BlockLog INS_RESET_RETRY_COUNTER (some .pivPukGuessAccepted) attempts none log result := by
  refine says_blockCredential presents_unblockPin (fun guess hguess => ?_) h
  rw [sessionUnblockPin, unblockPin, padPin_eight hguess]
  rfl

/-! ### The stages -/

/-- The PUK's remaining tries in a metadata answer. -/
def pukTries (md : Option (Option (UInt8 × UInt8))) : Option UInt8 :=
  (md.bind fun retries => retries).map Prod.fst

/-- What holds of the conversation of every stage, and so of the whole. The conditions on what comes
before a guess depend on the stage, and are stated apart. -/
structure Limits (log : List ResetLine) (result : Tried FactoryResetOutcome) : Prop where
  wiped : ∀ outcome, result = .ok outcome →
    outcome = .wiped ∧ ∃ x ∈ log, ResetAnswered (· = SW_OK) x
  pukAccepted : log.Pairwise (fun x _ =>
      ¬ GuessAnswered INS_RESET_RETRY_COUNTER (· = SW_OK) x) ∧
    ((∃ x ∈ log, GuessAnswered INS_RESET_RETRY_COUNTER (· = SW_OK) x) →
      result = .error .pivPukGuessAccepted)
  pinCapped : guesses INS_VERIFY log = [] ∨ ∃ retries,
    ⟨.status, .ok retries⟩ ∈ log ∧
      (guesses INS_VERIFY log).length ≤ blockAttemptsCap retries
  pukCapped : guesses INS_RESET_RETRY_COUNTER log = [] ∨ ∃ md,
    ⟨.metadata PIN_REF_PUK, md⟩ ∈ log ∧
      (guesses INS_RESET_RETRY_COUNTER log).length ≤ blockAttemptsCap (pukTries md)
  pinFresh : (guesses INS_VERIFY log).IsChain (· ≠ ·)
  pukFresh : (guesses INS_RESET_RETRY_COUNTER log).IsChain (· ≠ ·)

/-- What came before without a guess changes nothing. -/
theorem Limits.prepend {first rest : List ResetLine} {result : Tried FactoryResetOutcome}
    (hfirst : ∀ ins, ∀ x ∈ first, ¬ IsGuess ins x) (h : Limits rest result) :
    Limits (first ++ rest) result := by
  have hguesses : ∀ ins, guesses ins (first ++ rest) = guesses ins rest := by
    intro ins
    rw [guesses_append, guesses_eq_nil (hfirst ins), List.nil_append]
  refine ⟨?_, ⟨?_, ?_⟩, ?_, ?_, ?_, ?_⟩
  · intro outcome hres
    obtain ⟨rfl, x, hx, hx'⟩ := h.wiped outcome hres
    exact ⟨rfl, x, List.mem_append_right _ hx, hx'⟩
  · exact List.pairwise_append.mpr ⟨List.pairwise_of_forall_mem_list
      fun x hx _ _ hg => hfirst _ x hx hg.1, h.pukAccepted.1,
      fun x hx _ _ hg => hfirst _ x hx hg.1⟩
  · rintro ⟨x, hx, hx'⟩
    rcases List.mem_append.mp hx with hx | hx
    · exact absurd hx'.1 (hfirst _ x hx)
    · exact h.pukAccepted.2 ⟨x, hx, hx'⟩
  · rw [hguesses]
    exact h.pinCapped.imp_right fun ⟨r, hr, hle⟩ => ⟨r, List.mem_append_right _ hr, hle⟩
  · rw [hguesses]
    exact h.pukCapped.imp_right fun ⟨md, hmd, hle⟩ => ⟨md, List.mem_append_right _ hmd, hle⟩
  · rw [hguesses]
    exact h.pinFresh
  · rw [hguesses]
    exact h.pukFresh

/-- A conversation without guesses that ends in an error. -/
theorem limits_of_error {log : List ResetLine} (hlog : ∀ ins, ∀ x ∈ log, ¬ IsGuess ins x)
    (e : TransportError) : Limits log (.error e) := by
  have h : Limits [] (.error e) :=
    ⟨nofun, ⟨.nil, nofun⟩, .inl rfl, .inl rfl, .nil, .nil⟩
  have h' := h.prepend hlog
  rwa [List.append_nil] at h'

/-- A RESET the card accepted, and nothing after it. -/
theorem limits_of_accepted {log : List ResetLine} {r : Tried Unit} (hlog : ResetLog log r)
    (hr : r = .ok ()) : Limits log (.ok .wiped) := by
  have hnil : ∀ ins, guesses ins log = [] := fun ins => guesses_eq_nil (hlog.noGuess ins)
  refine ⟨?_, ⟨?_, ?_⟩, .inl (hnil _), .inl (hnil _), ?_, ?_⟩
  · intro outcome hres
    exact ⟨(Except.ok.inj hres).symm, hlog.accepted hr⟩
  · exact List.pairwise_of_forall_mem_list fun x hx _ _ hg => hlog.noGuess _ x hx hg.1
  · rintro ⟨x, hx, hx'⟩
    exact absurd hx'.1 (hlog.noGuess _ x hx)
  · rw [hnil]
    exact .nil
  · rw [hnil]
    exact .nil

theorem says_resetOr {next : ResetTalk (Tried FactoryResetOutcome)} {log : List ResetLine}
    {result : Tried FactoryResetOutcome} (h : Says (resetOr next) log result) :
    (Limits log result ∧ ∀ ins, ∀ x ∈ log, ¬ IsGuess ins x) ∨
      ∃ first rest, log = first ++ rest ∧ ResetLog first (.error .pivResetNotAllowed) ∧
        Says next rest result := by
  obtain ⟨first, r, rest, rfl, hfirst, hrest⟩ := says_bind.mp h
  have hlog := says_sessionReset hfirst
  split at hrest
  · obtain ⟨rfl, rfl⟩ := says_done.mp hrest
    rw [List.append_nil]
    exact .inl ⟨limits_of_accepted hlog rfl, hlog.noGuess⟩
  · exact .inr ⟨first, rest, rfl, hlog, hrest⟩
  · obtain ⟨rfl, rfl⟩ := says_done.mp hrest
    rw [List.append_nil]
    exact .inl ⟨limits_of_error hlog.noGuess _, hlog.noGuess⟩

theorem says_lastReset {log : List ResetLine} {result : Tried FactoryResetOutcome}
    (h : Says lastReset log result) :
    Limits log result ∧ ∀ ins, ∀ x ∈ log, ¬ IsGuess ins x := by
  obtain ⟨first, r, rest, rfl, hfirst, hrest⟩ := says_bind.mp h
  have hlog := says_sessionReset hfirst
  split at hrest
  · obtain ⟨rfl, rfl⟩ := says_done.mp hrest
    rw [List.append_nil]
    exact ⟨limits_of_accepted hlog rfl, hlog.noGuess⟩
  · obtain ⟨rfl, rfl⟩ := says_done.mp hrest
    rw [List.append_nil]
    exact ⟨limits_of_error hlog.noGuess _, hlog.noGuess⟩

theorem no_guess_nil : ∀ ins, ∀ x ∈ ([] : List ResetLine), ¬ IsGuess ins x :=
  fun _ _ hx => nomatch hx

theorem verify_ne_unblock : INS_VERIFY ≠ INS_RESET_RETRY_COUNTER := by decide

/-- The PUK loop, and what follows it without a guess. -/
theorem limits_of_blockPuk {md : Option (Option (UInt8 × UInt8))} {puk rest : List ResetLine}
    {blocked : Tried Bool} {result : Tried FactoryResetOutcome}
    (hpuk : BlockLog INS_RESET_RETRY_COUNTER (some .pivPukGuessAccepted)
      (blockAttemptsCap (pukTries md)) none puk blocked)
    (hrest : Limits rest result) (hnone : ∀ ins, ∀ x ∈ rest, ¬ IsGuess ins x)
    (herror : ∀ e, blocked = .error e → result = .error e)
    (hends : (∃ e, blocked = .error e) → rest = []) :
    Limits (⟨.metadata PIN_REF_PUK, md⟩ :: (puk ++ rest)) result := by
  have hguesses : guesses INS_RESET_RETRY_COUNTER (puk ++ rest) =
      guesses INS_RESET_RETRY_COUNTER puk := by
    rw [guesses_append, guesses_eq_nil (hnone _), List.append_nil]
  have hpin : guesses INS_VERIFY (puk ++ rest) = [] := by
    rw [guesses_append, guesses_eq_nil (hnone _), List.append_nil]
    exact guesses_eq_nil (hpuk.others _ verify_ne_unblock)
  obtain ⟨hpair, haccepted⟩ := hpuk.stopped _ rfl
  have hmd : ∀ ins, guesses ins (⟨.metadata PIN_REF_PUK, md⟩ :: (puk ++ rest)) =
      guesses ins (puk ++ rest) := fun _ => rfl
  refine ⟨?_, ⟨.cons (fun _ _ hg => nomatch hg.1) ?_, ?_⟩, .inl ?_, .inr ⟨md, ?_, ?_⟩, ?_, ?_⟩
  · intro outcome hres
    obtain ⟨rfl, x, hx, hx'⟩ := hrest.wiped outcome hres
    exact ⟨rfl, x, List.mem_cons_of_mem _ (List.mem_append_right _ hx), hx'⟩
  · refine List.pairwise_append.mpr ⟨hpair, hrest.pukAccepted.1, ?_⟩
    intro x hx y hy hg
    rw [hends ⟨_, haccepted ⟨x, hx, hg⟩⟩] at hy
    cases hy
  · rintro ⟨x, hx, hx'⟩
    rcases List.mem_cons.mp hx with rfl | hx
    · exact nomatch hx'.1
    · rcases List.mem_append.mp hx with hx | hx
      · exact herror _ (haccepted ⟨x, hx, hx'⟩)
      · exact absurd hx'.1 (hnone _ x hx)
  · rw [hmd, hpin]
  · exact List.mem_cons_self
  · rw [hmd, hguesses]
    exact hpuk.capped
  · rw [hmd, hpin]
    exact .nil
  · rw [hmd, hguesses]
    exact hpuk.fresh

theorem says_pukStage {log : List ResetLine} {result : Tried FactoryResetOutcome}
    (h : Says pukStage log result) :
    Limits log result ∧ ∀ x ∈ log, ¬ IsGuess INS_VERIFY x := by
  obtain ⟨md, log, rfl, hnext⟩ := says_ask.mp h
  have hnoPin : ∀ {puk rest : List ResetLine} {blocked : Tried Bool},
      BlockLog INS_RESET_RETRY_COUNTER (some .pivPukGuessAccepted)
        (blockAttemptsCap (pukTries md)) none puk blocked →
      (∀ ins, ∀ x ∈ rest, ¬ IsGuess ins x) →
      ∀ x ∈ (⟨.metadata PIN_REF_PUK, md⟩ : ResetLine) :: (puk ++ rest),
        ¬ IsGuess INS_VERIFY x := by
    intro puk rest blocked hpuk hrest x hx
    rcases List.mem_cons.mp hx with rfl | hx
    · exact nofun
    · rcases List.mem_append.mp hx with hx | hx
      · exact hpuk.others _ verify_ne_unblock x hx
      · exact hrest _ x hx
  rcases says_andThen.mp hnext with ⟨e, rfl, hpuk⟩ | ⟨puk, blocked, rest, rfl, hpuk, hrest⟩
  · have hblock := says_blockPuk hpuk
    have hlimits := limits_of_blockPuk hblock (limits_of_error no_guess_nil e) no_guess_nil
      (fun e' he => by rw [Except.error.inj he]) fun _ => rfl
    have hpins := hnoPin hblock no_guess_nil
    rw [List.append_nil] at hlimits hpins
    exact ⟨hlimits, hpins⟩
  · have hblock := says_blockPuk hpuk
    cases blocked with
    | true =>
        obtain ⟨hrest, hnone⟩ := says_lastReset hrest
        exact ⟨limits_of_blockPuk hblock hrest hnone nofun nofun, hnoPin hblock hnone⟩
    | false =>
        obtain ⟨rfl, rfl⟩ := says_done.mp hrest
        exact ⟨limits_of_blockPuk hblock (limits_of_error no_guess_nil _) no_guess_nil nofun
          nofun, hnoPin hblock no_guess_nil⟩

/-! ### Guesses are guarded -/

/-- What a condition on the conversation so far holds of, whenever a line like `x` comes. -/
def Guarded (ready : List ResetLine → Prop) (ins : UInt8) (log : List ResetLine) : Prop :=
  ∀ before x after, log = before ++ x :: after → IsGuess ins x → ready before

theorem guarded_of_none {ready : List ResetLine → Prop} {ins : UInt8} {log : List ResetLine}
    (h : ∀ x ∈ log, ¬ IsGuess ins x) : Guarded ready ins log := by
  rintro before x after rfl hx
  exact absurd hx (h x (List.mem_append_right _ List.mem_cons_self))

/-- No guess in `first`, and the condition holds at its end: it holds at every later guess. -/
theorem guarded_append {ready : List ResetLine → Prop} {ins : UInt8}
    {first rest : List ResetLine} (hmono : ∀ a b, ready a → ready (a ++ b))
    (hfirst : ∀ x ∈ first, ¬ IsGuess ins x) (hready : ready first) :
    Guarded ready ins (first ++ rest) := by
  intro before x after hsplit hx
  rcases List.append_eq_append_iff.mp hsplit with ⟨mid, rfl, -⟩ | ⟨mid, rfl, hmid⟩
  · exact hmono _ _ hready
  · cases mid with
    | nil =>
        rw [List.append_nil] at hready
        exact hready
    | cons y mid =>
        obtain ⟨rfl, -⟩ := List.cons.inj hmid
        exact absurd hx (hfirst _ (List.mem_append_right _ List.mem_cons_self))

/-- RESET was refused for its precondition. -/
def WasRefused (log : List ResetLine) : Prop := ∃ x ∈ log, ResetRefused x

/-- The PIN was reported blocked, and RESET refused after that. -/
def PinBlockedThenRefused (log : List ResetLine) : Prop :=
  ∃ x y, [x, y].Sublist log ∧ GuessAnswered INS_VERIFY Blocked x ∧ ResetRefused y

theorem WasRefused.append {a : List ResetLine} (b : List ResetLine) (h : WasRefused a) :
    WasRefused (a ++ b) :=
  h.imp fun _ hx => ⟨List.mem_append_left b hx.1, hx.2⟩

theorem PinBlockedThenRefused.append {a : List ResetLine} (b : List ResetLine)
    (h : PinBlockedThenRefused a) : PinBlockedThenRefused (a ++ b) := by
  obtain ⟨x, y, hsub, h⟩ := h
  exact ⟨x, y, hsub.trans (List.sublist_append_left a b), h⟩

/-- The PIN loop in front of stages that spend nothing of the PIN. -/
theorem limits_of_blockPin {retries : Option UInt8} {pin rest : List ResetLine}
    {blocked : Tried Bool} {result : Tried FactoryResetOutcome}
    (hpin : BlockLog INS_VERIFY none (blockAttemptsCap retries) none pin blocked)
    (hrest : Limits rest result) (hnone : ∀ x ∈ rest, ¬ IsGuess INS_VERIFY x) :
    Limits (⟨.status, .ok retries⟩ :: (pin ++ rest)) result := by
  have hguesses : guesses INS_VERIFY (⟨.status, .ok retries⟩ :: (pin ++ rest)) =
      guesses INS_VERIFY pin := by
    show guesses INS_VERIFY (pin ++ rest) = _
    rw [guesses_append, guesses_eq_nil hnone, List.append_nil]
  have hpuk : guesses INS_RESET_RETRY_COUNTER (⟨.status, .ok retries⟩ :: (pin ++ rest)) =
      guesses INS_RESET_RETRY_COUNTER rest := by
    show guesses INS_RESET_RETRY_COUNTER (pin ++ rest) = _
    rw [guesses_append, guesses_eq_nil (hpin.others _ verify_ne_unblock.symm), List.nil_append]
  have hnoPuk : ∀ x ∈ pin, ¬ GuessAnswered INS_RESET_RETRY_COUNTER (· = SW_OK) x :=
    fun x hx hg => hpin.others _ verify_ne_unblock.symm x hx hg.1
  refine ⟨?_, ⟨.cons (fun _ _ hg => nomatch hg.1) ?_, ?_⟩, .inr ⟨retries, ?_, ?_⟩, ?_, ?_, ?_⟩
  · intro outcome hres
    obtain ⟨rfl, x, hx, hx'⟩ := hrest.wiped outcome hres
    exact ⟨rfl, x, List.mem_cons_of_mem _ (List.mem_append_right _ hx), hx'⟩
  · exact List.pairwise_append.mpr ⟨List.pairwise_of_forall_mem_list
      fun x hx _ _ => hnoPuk x hx, hrest.pukAccepted.1, fun x hx _ _ => hnoPuk x hx⟩
  · rintro ⟨x, hx, hx'⟩
    rcases List.mem_cons.mp hx with rfl | hx
    · exact nomatch hx'.1
    · rcases List.mem_append.mp hx with hx | hx
      · exact absurd hx' (hnoPuk x hx)
      · exact hrest.pukAccepted.2 ⟨x, hx, hx'⟩
  · exact List.mem_cons_self
  · rw [hguesses]
    exact hpin.capped
  · rw [hpuk]
    exact hrest.pukCapped.imp_right fun ⟨md, hmd, hle⟩ =>
      ⟨md, List.mem_cons_of_mem _ (List.mem_append_right _ hmd), hle⟩
  · rw [hguesses]
    exact hpin.fresh
  · rw [hpuk]
    exact hrest.pukFresh

theorem says_pinStage {log : List ResetLine} {result : Tried FactoryResetOutcome}
    (h : Says pinStage log result) :
    Limits log result ∧ Guarded PinBlockedThenRefused INS_RESET_RETRY_COUNTER log := by
  obtain ⟨status, log, rfl, hnext⟩ := says_ask.mp h
  rcases status with e | retries
  · obtain ⟨rfl, rfl⟩ := says_done.mp hnext
    have hnone : ∀ ins, ∀ x ∈ [(⟨.status, .error e⟩ : ResetLine)], ¬ IsGuess ins x := by
      intro ins x hx
      rw [List.mem_singleton.mp hx]
      exact nofun
    exact ⟨limits_of_error hnone _, guarded_of_none (hnone _)⟩
  · have hspares : ∀ {pin rest : List ResetLine} {blocked : Tried Bool},
        BlockLog INS_VERIFY none (blockAttemptsCap retries) none pin blocked →
        (∀ x ∈ rest, ¬ IsGuess INS_RESET_RETRY_COUNTER x) →
        ∀ x ∈ (⟨.status, .ok retries⟩ : ResetLine) :: (pin ++ rest),
          ¬ IsGuess INS_RESET_RETRY_COUNTER x := by
      intro pin rest blocked hpin hrest x hx
      rcases List.mem_cons.mp hx with rfl | hx
      · exact nofun
      · rcases List.mem_append.mp hx with hx | hx
        · exact hpin.others _ verify_ne_unblock.symm x hx
        · exact hrest x hx
    rcases says_andThen.mp hnext with ⟨e, rfl, hpin⟩ | ⟨pin, blocked, rest, rfl, hpin, hrest⟩
    · have hblock := says_blockPin hpin
      have hlimits := limits_of_blockPin hblock (limits_of_error no_guess_nil e)
        (no_guess_nil _)
      have hpuks := hspares hblock (no_guess_nil _)
      rw [List.append_nil] at hlimits hpuks
      exact ⟨hlimits, guarded_of_none hpuks⟩
    · have hblock := says_blockPin hpin
      cases blocked with
      | false =>
          obtain ⟨rfl, rfl⟩ := says_done.mp hrest
          exact ⟨limits_of_blockPin hblock (limits_of_error no_guess_nil _) (no_guess_nil _),
            guarded_of_none (hspares hblock (no_guess_nil _))⟩
      | true =>
          rcases says_resetOr hrest with ⟨hlimits, hnone⟩ | ⟨first, last, rfl, hreset, hpuk⟩
          · exact ⟨limits_of_blockPin hblock hlimits (hnone _),
              guarded_of_none (hspares hblock (hnone _))⟩
          · obtain ⟨hlimits, hnoPin⟩ := says_pukStage hpuk
            obtain ⟨x, hx, hblocked⟩ := hblock.blocked rfl
            obtain ⟨y, hy, hrefused⟩ := hreset.refused rfl
            refine ⟨limits_of_blockPin hblock (hlimits.prepend hreset.noGuess) ?_, ?_⟩
            · intro z hz
              rcases List.mem_append.mp hz with hz | hz
              · exact hreset.noGuess _ z hz
              · exact hnoPin z hz
            · rw [← List.append_assoc, ← List.cons_append]
              refine guarded_append (fun a b h => h.append b)
                (hspares hblock (hreset.noGuess _)) ⟨x, y, ?_, hblocked, hrefused⟩
              exact ((List.singleton_sublist.mpr hx).append
                (List.singleton_sublist.mpr hy)).cons _

/-! ### Results -/

/-- **What a factory reset keeps to**, against any card: success only after a RESET that was
answered `9000`; no guess at the PIN before RESET was refused for its precondition; no guess at
the PUK before the PIN was reported blocked and RESET refused again; nothing after a PUK guess
that was accepted, which is the reported error; and for each of PIN and PUK no more guesses
than the cap, none equal to the one before. -/
theorem forceReset_limits {log : List ResetLine} {result : Tried FactoryResetOutcome}
    (h : Says forceReset log result) :
    Limits log result ∧ Guarded WasRefused INS_VERIFY log ∧
      Guarded PinBlockedThenRefused INS_RESET_RETRY_COUNTER log := by
  rcases says_resetOr h with ⟨hlimits, hnone⟩ | ⟨first, rest, rfl, hreset, hrest⟩
  · exact ⟨hlimits, guarded_of_none (hnone _), guarded_of_none (hnone _)⟩
  · obtain ⟨hlimits, hguarded⟩ := says_pinStage hrest
    refine ⟨hlimits.prepend hreset.noGuess, ?_, ?_⟩
    · exact guarded_append (fun a b h => h.append b) (hreset.noGuess _) (hreset.refused rfl)
    · intro before x after hsplit hx
      rcases List.append_eq_append_iff.mp hsplit with ⟨mid, rfl, hmid⟩ | ⟨mid, rfl, hmid⟩
      · obtain ⟨y, z, hsub, hyz⟩ := hguarded mid x after hmid hx
        exact ⟨y, z, hsub.trans (List.sublist_append_right first mid), hyz⟩
      · cases mid with
        | nil =>
            obtain ⟨y, z, hsub, hyz⟩ := hguarded [] x after hmid.symm hx
            exact ⟨y, z, hsub.trans (List.nil_sublist _), hyz⟩
        | cons y mid =>
            obtain ⟨rfl, -⟩ := List.cons.inj hmid
            exact absurd hx (hreset.noGuess _ _ (List.mem_append_right _ List.mem_cons_self))

/-! ### A reset of a card that needs both counters spent -/

def ZEROS : Entropy := ⟨List.replicate GUESS_LEN 0, rfl⟩

/-- The guesses of both loops, in order. -/
def allGuesses (log : List ResetLine) : List (List UInt8) :=
  log.filterMap fun x => (guessOf INS_VERIFY x.1).or (guessOf INS_RESET_RETRY_COUNTER x.1)

def resetLines (sw : UInt16) : List ResetLine :=
  [⟨.resetFailsIfManagementKeyIsAes, false⟩, ⟨.transmit reset, .ok ([], sw)⟩]

/-- One guess blocks the PIN, one blocks the PUK, and the generator gives the same bytes for
both: the second loop starts without a previous guess. -/
def drawnTwice : List ResetLine :=
  resetLines SW_CONDITIONS_NOT_SATISFIED ++
  [⟨.status, .ok (some 1)⟩, ⟨.getrandom, some ZEROS⟩,
    ⟨.transmit ([0x00, INS_VERIFY, 0x00, PIN_REF_APPLICATION, 8] ++ List.replicate 8 0x30),
      .ok ([], SW_AUTH_BLOCKED)⟩] ++
  resetLines SW_CONDITIONS_NOT_SATISFIED ++
  [⟨.metadata PIN_REF_PUK, none⟩, ⟨.getrandom, some ZEROS⟩,
    ⟨.transmit ([0x00, INS_RESET_RETRY_COUNTER, 0x00, PIN_REF_APPLICATION, 16] ++
        List.replicate 8 0x30 ++ RECOVERY_PIN ++ [0xFF, 0xFF]), .ok ([], SW_AUTH_BLOCKED)⟩] ++
  resetLines SW_OK ++ [⟨.refresh, .ok ()⟩]

theorem says_drawnTwice : Says forceReset drawnTwice (.ok .wiped) := by
  repeat' first | exact .done | apply Says.ask

theorem forceReset_limits_drawnTwice :
    Limits drawnTwice (.ok .wiped) ∧ Guarded WasRefused INS_VERIFY drawnTwice ∧
      Guarded PinBlockedThenRefused INS_RESET_RETRY_COUNTER drawnTwice :=
  forceReset_limits says_drawnTwice

/-- Across the two loops a guess may repeat. -/
theorem same_guess_at_pin_and_puk :
    ¬ ∀ log result, Says forceReset log result → (allGuesses log).IsChain (· ≠ ·) := by
  intro h
  have hchain := h drawnTwice _ says_drawnTwice
  revert hchain
  decide

end Keyroost.Piv
