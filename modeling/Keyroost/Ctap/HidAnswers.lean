import Keyroost.Ctap.HidAssembly

/-!
# Answers and the requests they are for

One open channel of `keyroost-ctap/src/hid.rs`, over any number of transactions. A transaction that
ends in a timeout or a cancellation leaves its answer to be read later: nothing in the source takes
it off the channel.

The device's side is its own: to each request it may answer once, in whole reports after any
KEEPALIVEs. `Session` strings transactions together, with the reports that are due between them as
its state. Which message a receive takes is settled by `HidAssembly`; here `transact_answer` says
whose answer it is, and `session_answered` carries that over a whole session by induction on its
steps. `late_answer_taken` is the session in which a late answer is taken for another's.
-/

namespace Keyroost.Ctap

/-! ### The device's side -/

/-- What the device answers to one request: KEEPALIVEs with these statuses while it works,
then a message. -/
structure Answer where
  statuses : List UInt8
  cmd : UInt8
  payload : List UInt8
  initial : cmd &&& 0x80 ≠ 0
  notKeepalive : cmd ≠ CTAPHID_KEEPALIVE
  fits : payload.length ≤ CTAPHID_MAX_PAYLOAD
deriving DecidableEq, Repr

namespace Answer

def keepalives (cid : UInt32) (a : Answer) : List Report :=
  a.statuses.map fun status => initReport cid CTAPHID_KEEPALIVE [status]

def reports (cid : UInt32) (a : Answer) : List Report :=
  a.keepalives cid ++ Ctap.reports cid a.cmd a.payload

end Answer

/-! ### Transactions of a channel

`due` lists the reports of the channel that the device has for the host, read or still to
be sent, in the order of the requests they answer. -/

/-- An attempt, with the device's answer to its request where the device received it. -/
structure Exchange where
  attempt : Attempt
  answer : Option Answer
deriving DecidableEq, Repr

structure Transaction where
  timeout : Nat
  cmd : UInt8
  payload : List UInt8
  exchanges : List Exchange
  result : Except HidTransportError (List UInt8)
deriving DecidableEq, Repr

/-- The reports of the channel that one attempt reads. -/
def takenBy (timeout : Nat) (cid : UInt32) (cmd : UInt8) (payload : List UInt8)
    (a : Attempt) : List Report :=
  match attemptOnce timeout cid cmd payload a with
  | some (_, rest) => own cid (a.polls.take (a.polls.length - rest.length))
  | none => own cid a.polls

namespace Transaction

/-- The answers to the requests of these exchanges. -/
def answersOf (exchanges : List Exchange) : List Answer := exchanges.filterMap (·.answer)

theorem answersOf_cons (e : Exchange) (exchanges : List Exchange) :
    answersOf (e :: exchanges) = answersOf [e] ++ answersOf exchanges := by
  rw [answersOf, ← List.singleton_append, List.filterMap_append]
  rfl

/-- Each attempt reads from the front of what is due, its own answer at the end of it. What it does
not take stays due for the next attempt. -/
inductive Reads (t : Transaction) (cid : UInt32) :
    List Report → List Exchange → List Report → Prop
  | done (due : List Report) : Reads t cid due [] due
  | attempt {due mid due' : List Report} {e : Exchange} {exchanges : List Exchange}
      (htaken : due ++ (answersOf [e]).flatMap (Answer.reports cid) =
        takenBy t.timeout cid t.cmd t.payload e.attempt ++ mid)
      (hrest : Reads t cid mid exchanges due') : Reads t cid due (e :: exchanges) due'

/-- The transaction takes place, its attempts those it makes. What is due before it are reports of
earlier answers, and what is due after it are those that it leaves unread. -/
structure Runs (t : Transaction) (cid : UInt32) (due due' : List Report) : Prop where
  transacts : CtapHidDevice.transact t.timeout cid t.cmd t.payload 1
    (t.exchanges.map (·.attempt)) = some (t.result, [])
  reads : t.Reads cid due t.exchanges due'

end Transaction

/-- Transactions one after another, each with what was due when it began, from an open
channel with nothing due on it. -/
inductive Session (cid : UInt32) : List (List Report × Transaction) → List Report → Prop
  | opened : Session cid [] []
  | next {steps : List (List Report × Transaction)} {t : Transaction} {due due' : List Report}
      (hbefore : Session cid steps due) (hruns : t.Runs cid due due') :
      Session cid (steps ++ [(due, t)]) due'

/-- The device's answers in these transactions. -/
def answersIn (steps : List (List Report × Transaction)) : List Answer :=
  steps.flatMap fun step => Transaction.answersOf step.2.exchanges

theorem answersIn_concat (steps : List (List Report × Transaction)) (due : List Report)
    (t : Transaction) :
    answersIn (steps ++ [(due, t)]) = answersIn steps ++ Transaction.answersOf t.exchanges := by
  rw [answersIn, List.flatMap_append, List.flatMap_singleton]
  rfl

/-! ### The message a receive finds -/

/-- An element that is not in `l` comes after it. -/
theorem mem_after {α : Type} {before rest l more : List α} {x : α}
    (h : before ++ x :: rest = l ++ more) (hx : x ∉ l) :
    ∃ before', more = before' ++ x :: rest := by
  rcases List.append_eq_append_iff.mp h with ⟨as, hl, hmore⟩ | ⟨bs, -, hmore⟩
  · cases as with
    | nil => exact ⟨[], hmore.symm⟩
    | cons y as =>
        rw [List.cons_append, List.cons.injEq] at hmore
        rw [hl, hmore.1] at hx
        exact absurd (List.mem_append_right _ List.mem_cons_self) hx
  · exact ⟨bs, hmore⟩

/-- A continuation is no initial report. -/
theorem initial_notMem_contReports {cid : UInt32} {cmd : UInt8} {payload : List UInt8}
    {first : Report} (hinitial : cmd &&& 0x80 ≠ 0) (hcmd : first.cmd = cmd)
    (hlen : payload.length ≤ CTAPHID_MAX_PAYLOAD) :
    first ∉ contReports cid payload (contOffset payload.length 0) (UInt8.ofNat 0) := by
  intro hmem
  obtain ⟨i, hi⟩ := List.mem_iff_getElem?.mp hmem
  obtain ⟨-, hlt, hseq⟩ := cmd_contReports hlen hi
  rw [← hcmd, hseq, seq_not_initial hlt] at hinitial
  exact hinitial rfl

/-- Among the reports of some answers, an initial report other than a KEEPALIVE is that of
one of them, and the answer's continuations follow it. -/
theorem answer_of_first {cid : UInt32} {cmd : UInt8} {answers : List Answer}
    {before rest : List Report} {first : Report} (hinitial : cmd &&& 0x80 ≠ 0)
    (hkeepalive : cmd ≠ CTAPHID_KEEPALIVE) (hcmd : first.cmd = cmd)
    (h : before ++ first :: rest = answers.flatMap (Answer.reports cid)) :
    ∃ a ∈ answers, a.cmd = cmd ∧ first = initReport cid a.cmd a.payload ∧ ∃ more,
      rest = contReports cid a.payload (contOffset a.payload.length 0) (UInt8.ofNat 0) ++
        more := by
  induction answers generalizing before with
  | nil => exact absurd h (List.append_ne_nil_of_right_ne_nil _ (List.cons_ne_nil _ _))
  | cons a answers ih =>
      rw [List.flatMap_cons, Answer.reports, reports_eq, List.append_assoc] at h
      have hstatus : first ∉ a.keepalives cid := by
        intro hmem
        obtain ⟨status, -, hstatus⟩ := List.mem_map.mp hmem
        rw [← hstatus, cmd_initReport] at hcmd
        exact hkeepalive hcmd.symm
      obtain ⟨before', hrest⟩ := mem_after h hstatus
      cases before' with
      | nil =>
          rw [List.nil_append, List.cons_append, List.cons.injEq] at hrest
          obtain ⟨hfirst, hrest⟩ := hrest
          refine ⟨a, List.mem_cons_self, ?_, hfirst.symm, _, hrest.symm⟩
          rw [← hcmd, ← hfirst, cmd_initReport]
      | cons r before' =>
          rw [List.cons_append, List.cons_append, List.cons.injEq] at hrest
          obtain ⟨before'', hlater⟩ := mem_after hrest.2.symm
            (initial_notMem_contReports hinitial hcmd a.fits)
          obtain ⟨a', ha', hfound⟩ := ih hlater.symm
          exact ⟨a', List.mem_cons_of_mem a ha', hfound⟩

/-- Taken off the continuations of `payload`, what is accepted is `payload`. -/
theorem acceptConts_contReports {cid : UInt32} {payload got : List UInt8} {k : Nat}
    {conts after more : List Report}
    (hconts : conts ++ after =
      contReports cid payload (contOffset payload.length k) (UInt8.ofNat k) ++ more)
    (h : acceptConts payload.length (payload.take (contOffset payload.length k))
      (UInt8.ofNat k) conts = some got) : got = payload := by
  induction conts generalizing k with
  | nil =>
      rw [acceptConts] at h
      split at h
      · cases h
      · rename_i hdone
        rw [List.length_take] at hdone
        rw [← Option.some.inj h]
        exact List.take_of_length_le (by omega)
  | cons r conts ih =>
      rw [acceptConts] at h
      split at h
      · rename_i haccept
        obtain ⟨hmore, -, -⟩ := haccept
        rw [List.length_take] at hmore
        have hmore' : contOffset payload.length k < payload.length := by omega
        rw [contReports_of_lt cid _ hmore', List.cons_append, List.cons_append,
          List.cons.injEq] at hconts
        obtain ⟨hr, hconts⟩ := hconts
        rw [hr, List.length_take_of_le hmore'.le, take_append_contReport,
          contOffset_succ hmore', seq_succ] at h
        rw [contOffset_succ hmore', seq_succ] at hconts
        exact ih hconts h
      · cases h

/-- A message assembled from reports of some answers, past others without its command, is
the message of one of them. -/
theorem assemble_answer {cid : UInt32} {cmd : UInt8} {answers : List Answer}
    {stale gone taken mid : List Report} {got : List UInt8} (hinitial : cmd &&& 0x80 ≠ 0)
    (hstale : ∀ r ∈ stale, r.cmd ≠ cmd)
    (hdue : gone ++ (taken ++ mid) = stale ++ answers.flatMap (Answer.reports cid))
    (h : assemble cmd taken = some got) : ∃ a ∈ answers, a.cmd = cmd ∧ a.payload = got := by
  obtain ⟨keepalives, first, conts, htaken, -, hcmd, hkeepalive, -, haccept⟩ := assemble_split h
  rw [htaken, List.append_assoc, ← List.append_assoc, List.cons_append] at hdue
  obtain ⟨before, hanswers⟩ := mem_after hdue fun hmem => hstale first hmem hcmd
  obtain ⟨a, ha, hacmd, hfirst, more, hrest⟩ :=
    answer_of_first hinitial hkeepalive hcmd hanswers.symm
  rw [hfirst, bcnt_initReport a.fits, data_initReport] at haccept
  exact ⟨a, ha, hacmd, (acceptConts_contReports (k := 0) hrest haccept).symm⟩

/-! ### One transaction -/

theorem takenBy_ok {timeout : Nat} {cid : UInt32} {cmd : UInt8} {payload got : List UInt8}
    {a : Attempt} {rest : List Poll}
    (h : attemptOnce timeout cid cmd payload a = some (.ok got, rest)) :
    assemble cmd (takenBy timeout cid cmd payload a) = some got := by
  have htaken : takenBy timeout cid cmd payload a =
      own cid (a.polls.take (a.polls.length - rest.length)) := by
    rw [takenBy, h]
  rw [attemptOnce] at h
  split at h
  · cases h
  · split at h
    · cases h
    · obtain ⟨used, hused, hassemble⟩ := recvBy_ok h
      have hcut : a.polls.take (a.polls.length - rest.length) = used := by
        rw [hused, List.length_append, Nat.add_sub_cancel]
        exact List.take_left
      rw [htaken, hcut]
      exact hassemble

namespace Transaction

variable {t : Transaction} {cid : UInt32}

/-- What is due after some attempts is the end of what was due and what they were
answered. -/
theorem reads_due {due due' : List Report} {exchanges : List Exchange}
    (h : t.Reads cid due exchanges due') :
    ∃ gone, gone ++ due' = due ++ (answersOf exchanges).flatMap (Answer.reports cid) := by
  induction h with
  | done due => exact ⟨[], (List.append_nil due).symm⟩
  | @attempt due mid due' e exchanges htaken _ ih =>
      obtain ⟨gone, hgone⟩ := ih
      refine ⟨takenBy t.timeout cid t.cmd t.payload e.attempt ++ gone, ?_⟩
      rw [answersOf_cons, List.flatMap_append, ← List.append_assoc, htaken, List.append_assoc,
        List.append_assoc, hgone]

/-- From any attempt on: `answers` are those of the earlier attempts, `stale` what was due
before the first. -/
theorem transact_answer {stale gone due due' : List Report} {exchanges : List Exchange}
    {answers : List Answer} {attempt : Nat} {got : List UInt8} (hinitial : t.cmd &&& 0x80 ≠ 0)
    (hstale : ∀ r ∈ stale, r.cmd ≠ t.cmd)
    (hdue : gone ++ due = stale ++ answers.flatMap (Answer.reports cid))
    (hreads : t.Reads cid due exchanges due')
    (h : CtapHidDevice.transact t.timeout cid t.cmd t.payload attempt
        (exchanges.map (·.attempt)) =
      some (.ok got, [])) :
    ∃ a ∈ answers ++ answersOf exchanges, a.cmd = t.cmd ∧ a.payload = got := by
  induction hreads generalizing gone answers attempt with
  | done due => cases h
  | @attempt due mid due' e exchanges htaken _ ih =>
      have hall : gone ++ (takenBy t.timeout cid t.cmd t.payload e.attempt ++ mid) =
          stale ++ (answers ++ answersOf [e]).flatMap (Answer.reports cid) := by
        rw [← htaken, ← List.append_assoc, hdue, List.append_assoc, List.flatMap_append]
      rw [answersOf_cons, ← List.append_assoc]
      rw [List.map_cons, CtapHidDevice.transact] at h
      split at h
      · cases h
      · rename_i resp rest hattempt
        rw [Option.some.injEq, Prod.mk.injEq, Except.ok.injEq] at h
        obtain ⟨a, ha, hfound⟩ :=
          assemble_answer hinitial hstale hall (h.1 ▸ takenBy_ok hattempt)
        exact ⟨a, List.mem_append_left _ ha, hfound⟩
      · split at h
        · cases h
        · split at h
          · cases h
          · rw [← List.append_assoc] at hall
            exact ih hall h
      · cases h

end Transaction

/-! ### Sessions -/

/-- What is due in a session is the end of what the device answered in it. -/
theorem session_due {cid : UInt32} {steps : List (List Report × Transaction)}
    {due : List Report} (h : Session cid steps due) :
    ∃ gone, gone ++ due = (answersIn steps).flatMap (Answer.reports cid) := by
  induction h with
  | opened => exact ⟨[], rfl⟩
  | @next steps t due due' _ hruns ih =>
      obtain ⟨gone, hgone⟩ := ih
      obtain ⟨gone', hgone'⟩ := Transaction.reads_due hruns.reads
      refine ⟨gone ++ gone', ?_⟩
      rw [List.append_assoc, hgone', ← List.append_assoc, hgone, answersIn_concat,
        List.flatMap_append]

/-- **Answers match requests.** In every session, a transaction of an initial command that
began with no report of its command due returns only the answer to one of its own
requests; and what was due when it began are the last reports of earlier answers. -/
theorem session_answered {cid : UInt32} {steps : List (List Report × Transaction)}
    {due : List Report} (h : Session cid steps due)
    {before after : List (List Report × Transaction)} {begun : List Report} {t : Transaction}
    (hstep : steps = before ++ (begun, t) :: after) :
    (∃ gone, gone ++ begun = (answersIn before).flatMap (Answer.reports cid)) ∧
    (t.cmd &&& 0x80 ≠ 0 → (∀ r ∈ begun, r.cmd ≠ t.cmd) →
      ∀ got, t.result = .ok got →
        ∃ a ∈ Transaction.answersOf t.exchanges, a.cmd = t.cmd ∧ a.payload = got) := by
  induction h generalizing after with
  | opened => exact absurd hstep.symm (List.append_ne_nil_of_right_ne_nil _ (List.cons_ne_nil _ _))
  | @next steps t' due due' hbefore hruns ih =>
      rcases List.eq_nil_or_concat after with hafter | ⟨after', last, hafter⟩
      · rw [hafter] at hstep
        obtain ⟨hsteps, hlast⟩ := List.append_inj' hstep rfl
        cases hlast
        subst hsteps
        refine ⟨session_due hbefore, ?_⟩
        intro hinitial hstale got hok
        have htransacts := hruns.transacts
        rw [hok] at htransacts
        have hdue : [] ++ begun = begun ++ ([] : List Answer).flatMap (Answer.reports cid) :=
          (List.append_nil _).symm
        exact Transaction.transact_answer hinitial hstale hdue hruns.reads htransacts
      · rw [hafter, List.concat_eq_append, ← List.cons_append, ← List.append_assoc] at hstep
        exact ih (List.append_inj' hstep rfl).1

/-! ### A late answer -/

def sampleAnswer (payload : List UInt8) (hfits : payload.length ≤ CTAPHID_MAX_PAYLOAD) :
    Answer :=
  { statuses := [], cmd := CTAPHID_CBOR, payload, initial := by decide,
    notKeepalive := by decide, fits := hfits }

/-- A request of one byte, answered with one byte; the host makes one poll. -/
def sampleTransaction (request answer : UInt8) (p : Poll)
    (result : Except HidTransportError (List UInt8)) : Transaction :=
  { timeout := 2000
    cmd := CTAPHID_CBOR
    payload := [request]
    exchanges := [{
      attempt := { write := .ok (), started := 0, polls := [p], elapsed := 0,
                   cancelBefore := false, cancelAfter := false }
      answer := some (sampleAnswer [answer] (Nat.succ_le_of_lt (Nat.succ_pos 7608))) }]
    result }

/-- The poll of a transaction whose answer is late. -/
def latePoll : Poll :=
  { now := 2000, cancelRequested := false, read := .ok none, keepaliveCancel := false,
    keepaliveNow := 0 }

theorem reports_one (cmd answer : UInt8) : reports 7 cmd [answer] = [initReport 7 cmd [answer]] := by
  rw [reports, contReports_of_le _ _ (Nat.le_refl 1)]

theorem flatMap_sampleAnswer (answer : UInt8) (request : UInt8) (p : Poll)
    (result : Except HidTransportError (List UInt8)) :
    (Transaction.answersOf (sampleTransaction request answer p result).exchanges).flatMap
      (Answer.reports 7) = [initReport 7 CTAPHID_CBOR [answer]] := by
  rw [← reports_one]
  exact List.append_nil _

/-- A request of one byte that times out: its answer is due when it ends. -/
def lateTransaction : Transaction := sampleTransaction 1 5 latePoll (.error .timeout)

/-- A PING that the device never got: it meets the late answer. -/
def strayTransaction : Transaction where
  timeout := 2000
  cmd := 0x81
  payload := [9]
  exchanges := [{
    attempt := { write := .ok (), started := 0, polls := [pollOf (initReport 7 CTAPHID_CBOR [5])],
                 elapsed := 0, cancelBefore := false, cancelAfter := false }
    answer := none }]
  result := .error (.unexpectedCommand 0x81 CTAPHID_CBOR)

/-- One KEEPALIVE, and then one byte. -/
def slowAnswer : Answer where
  statuses := [1]
  cmd := CTAPHID_CBOR
  payload := [6]
  initial := by decide
  notKeepalive := by decide
  fits := Nat.le_add_left 1 _

/-- A request that is answered after a KEEPALIVE. -/
def slowTransaction : Transaction where
  timeout := 2000
  cmd := CTAPHID_CBOR
  payload := [2]
  exchanges := [{
    attempt := { write := .ok (), started := 0,
                 polls := [pollOf (initReport 7 CTAPHID_KEEPALIVE [1]),
                   pollOf (initReport 7 CTAPHID_CBOR [6])],
                 elapsed := 0, cancelBefore := false, cancelAfter := false }
    answer := some slowAnswer }]
  result := .ok [6]

theorem runs_lateTransaction : lateTransaction.Runs 7 [] [initReport 7 CTAPHID_CBOR [5]] := by
  refine ⟨by decide, Transaction.Reads.attempt ?_ (Transaction.Reads.done _)⟩
  exact (flatMap_sampleAnswer 5 1 latePoll (.error .timeout)).trans (by decide)

theorem runs_strayTransaction : strayTransaction.Runs 7 [initReport 7 CTAPHID_CBOR [5]] [] :=
  ⟨by decide, .attempt (by decide) (.done _)⟩

theorem runs_slowTransaction : slowTransaction.Runs 7 [] [] := by
  refine ⟨by decide, Transaction.Reads.attempt ?_ (Transaction.Reads.done _)⟩
  have hreports : slowAnswer.reports 7 =
      [initReport 7 CTAPHID_KEEPALIVE [1], initReport 7 CTAPHID_CBOR [6]] :=
    congrArg (slowAnswer.keepalives 7 ++ ·) (reports_one CTAPHID_CBOR 6)
  show (slowAnswer.reports 7 ++ []) = _
  rw [hreports]
  decide

/-- After a request that timed out and one that met its late answer, the next one returns its own
answer. -/
theorem sampleTransaction_answered :
    Session 7 [([], lateTransaction), ([initReport 7 CTAPHID_CBOR [5]], strayTransaction),
      ([], slowTransaction)] [] ∧
    ∃ a ∈ Transaction.answersOf slowTransaction.exchanges, a.cmd = CTAPHID_CBOR ∧
      a.payload = [6] := by
  have hsession : Session 7 [([], lateTransaction),
      ([initReport 7 CTAPHID_CBOR [5]], strayTransaction), ([], slowTransaction)] [] :=
    ((Session.opened.next runs_lateTransaction).next runs_strayTransaction).next
      runs_slowTransaction
  have hlast : [([], lateTransaction), ([initReport 7 CTAPHID_CBOR [5]], strayTransaction),
      ([], slowTransaction)] = [([], lateTransaction),
        ([initReport 7 CTAPHID_CBOR [5]], strayTransaction)] ++ ([], slowTransaction) :: [] := rfl
  exact ⟨hsession, (session_answered hsession hlast).2 (by decide)
    (fun r hr => absurd hr List.not_mem_nil) [6] rfl⟩

/-- The second transaction returns the answer to the first, which timed out. -/
theorem late_answer_taken :
    ∃ steps due, Session 7 steps due ∧ ∃ begun t, (begun, t) ∈ steps ∧ t.result = .ok [5] ∧
      (Transaction.answersOf t.exchanges).map (·.payload) = [[6]] := by
  let second := sampleTransaction 2 6 (pollOf (initReport 7 CTAPHID_CBOR [5])) (.ok [5])
  have hsecond : second.Runs 7 [initReport 7 CTAPHID_CBOR [5]]
      [initReport 7 CTAPHID_CBOR [6]] := by
    refine ⟨by decide, Transaction.Reads.attempt ?_ (Transaction.Reads.done _)⟩
    exact (congrArg ([initReport 7 CTAPHID_CBOR [5]] ++ ·) (flatMap_sampleAnswer 6 2
      (pollOf (initReport 7 CTAPHID_CBOR [5])) (.ok [5]))).trans (by decide)
  refine ⟨_, _, Session.next (Session.next Session.opened runs_lateTransaction) hsecond,
    [initReport 7 CTAPHID_CBOR [5]], second, ?_, rfl, by decide⟩
  exact List.mem_append_right _ List.mem_cons_self

end Keyroost.Ctap
