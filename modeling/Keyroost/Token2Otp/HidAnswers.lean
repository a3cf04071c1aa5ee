import Keyroost.Token2Otp.HidFraming

/-!
# Answers and the commands they are for

One open device, over any number of commands. A command that ends in a timeout leaves its answer to
be read later: nothing takes its reports off the device, and the next command starts anew.

`HidCall` is one command with the polls that its reading saw, and `Calls` strings any number of them
together, with the reports that are due in between. `calls_answered` says which calls get their own
answer: those that find no other begun before them. `HidFraming` has what one assembler makes of the
reports, and `reports_framed` states the two together. In `late_reports_taken` the rest of a late
answer is taken for the beginning of another.
-/

namespace Keyroost.Token2Otp

open ResponseAssembler Transport

/-! ### The reports a command reads -/

def Poll.given (deadline : Nat) (p : Poll) : Option (List UInt8) :=
  if deadline ≤ p.now then none
  else
    match p.read with
    | .ok raw => raw
    | .error _ => none

def taken (deadline : Nat) (polls : List Poll) : List (List UInt8) :=
  polls.filterMap (Poll.given deadline)

section Reads

variable {deadline : Nat} {detect : Bool} {r : HidReading} {polls : List Poll}
  {answer : List UInt8 × UInt16} {prompted : Bool}

/-- A command that succeeds was driven to the end by the reports it read. -/
theorem readResponse_ok
    (h : readResponse deadline detect r polls = .returned ⟨.ok answer, prompted, []⟩) :
    ∃ a, r.asm.drive (taken deadline polls) = .done a [] ∧ a.finish = .ok answer := by
  induction polls generalizing r with
  | nil => cases h
  | cons p polls ih =>
      rw [readResponse] at h
      split at h
      · cases h
      · next htime =>
          have hgiven : p.given deadline = (match p.read with
              | .ok raw => raw
              | .error _ => none) := if_neg htime
          rw [taken, List.filterMap_cons, hgiven]
          cases hread : p.read with
          | error text =>
              rw [hread] at h
              cases h
          | ok read =>
              cases read with
              | none =>
                  rw [hread] at h
                  exact ih h
              | some raw =>
                  rw [hread] at h
                  dsimp only at h
                  rw [drive]
                  generalize r.asm.push raw = pushed at h
                  rcases pushed with - | ⟨e | - | retries | -, asm⟩
                  · cases h
                  · cases h
                  · exact ih h
                  · exact ih h
                  · obtain ⟨hresult, -, hrest⟩ := Transmitted.mk.inj (Wait.returned.inj h)
                    subst hrest
                    exact ⟨asm, rfl, hresult⟩

theorem drive_append {asm a : ResponseAssembler} {raws rest : List (List UInt8)}
    (h : asm.drive raws = .done a rest) (more : List (List UInt8)) :
    asm.drive (raws ++ more) = .done a (rest ++ more) := by
  induction raws generalizing asm with
  | nil => cases h
  | cons raw raws ih =>
      rw [drive] at h
      rw [List.cons_append, drive]
      generalize asm.push raw = pushed at h
      rcases pushed with - | ⟨e | - | retries | -, asm'⟩
      · cases h
      · cases h
      · exact ih h
      · exact ih h
      · cases h
        rfl

/-! ### What is still to be read -/

def number (raw : List UInt8) : UInt8 := (payloadOf raw).getD 1 0 &&& 0x0F

/-- The first report that is not busy, if there is one, is none a message starts with. -/
def NoneStarts (raws : List (List UInt8)) : Prop :=
  ∀ raw, raws.find? (fun raw => !isBusy raw) = some raw → number raw ≠ 0

theorem push_numbered {raw : List UInt8} {asm : ResponseAssembler} (hbusy : isBusy raw = false)
    (hnumber : number raw ≠ 0) (hreceived : asm.received = 0) :
    ∃ e asm', asm.push raw = some (.error e, asm') := by
  rw [push]
  split
  · next magic control len rest hpayload =>
      rw [number, hpayload] at hnumber
      rw [isBusy, hpayload] at hbusy
      split
      · exact ⟨_, _, rfl⟩
      · next hmagic =>
          rw [not_not] at hmagic
          split
          · next hflags =>
              have htrue : (magic == MAGIC && control &&& 0xF0 == FLAG_BUSY) = true :=
                Bool.and_eq_true_iff.mpr ⟨beq_of_eq hmagic, beq_of_eq hflags⟩
              exact absurd (htrue.symm.trans hbusy) Bool.true_eq_false.mp
          · refine ⟨_, _, congrArg some (if_pos ?_)⟩
            rw [hreceived]
            exact hnumber
  · exact ⟨_, _, rfl⟩

/-- Behind reports none of which starts a message, an assembler is done only where they were all
busy. -/
theorem drive_begun {begun raws rest : List (List UInt8)} {asm a : ResponseAssembler}
    (hbegun : NoneStarts begun) (hreceived : asm.received = 0) (hbuf : asm.buf = [])
    (h : asm.drive (begun ++ raws) = .done a rest) :
    ∃ asm' : ResponseAssembler, asm'.received = 0 ∧ asm'.buf = [] ∧
      asm'.drive raws = .done a rest := by
  induction begun generalizing asm with
  | nil => exact ⟨asm, hreceived, hbuf, h⟩
  | cons raw begun ih =>
      rw [List.cons_append] at h
      cases hbusy : isBusy raw with
      | true =>
          have hstalled : asm.stalled.received = 0 := hreceived
          have hrest : NoneStarts begun := by
            intro raw' hfind
            refine hbegun raw' ?_
            rw [List.find?_cons_of_neg (by rw [hbusy]; exact Bool.false_ne_true)]
            exact hfind
          exact ih hrest hstalled hbuf (drive_busy_done hbusy h)
      | false =>
          have hnumber : number raw ≠ 0 :=
            hbegun raw (List.find?_cons_of_pos (by rw [hbusy]; rfl))
          obtain ⟨e, asm', herror⟩ := push_numbered hbusy hnumber hreceived
          rw [drive_refused herror] at h
          cases h

end Reads

/-! ### The device's side

`due` lists the reports that the device has for the host, read or still to be sent, in the order of
the commands they answer. -/

/-- What the device answers to one command: its reports, with busy ones before and between. That
they are whole is a field; how many of them the host reads is the matter of a call. -/
structure Answer where
  bytes : List UInt8
  reports : List (List UInt8)
  whole : Offers (buildSendFrames bytes) (List.range (buildSendFrames bytes).length) reports

/-- A command, with the device's answer to it where the device received it. The polls are what the
host read meanwhile, and the result what it made of them. -/
structure HidCall where
  timeout : Nat
  detectButtonWait : Bool
  writes : Except RustStr Unit
  started : Nat
  polls : List Poll
  answer : Option Answer
  result : Except OtpTransportError (List UInt8 × UInt16)
  prompted : Bool

namespace HidCall

def answers (c : HidCall) : List Answer := c.answer.toList

/-- The command takes place, its polls those it makes, and reads from the front of what is due,
its own answer at the end of it. -/
structure Runs (c : HidCall) (due due' : List (List UInt8)) : Prop where
  transmits : hidTransmit c.timeout c.detectButtonWait c.writes c.started c.polls =
    .returned ⟨c.result, c.prompted, []⟩
  reads : due ++ c.answers.flatMap (·.reports) = taken (c.started + c.timeout) c.polls ++ due'

end HidCall

/-- Commands one after another, each with what was due when it began, from an open device with
nothing due. -/
inductive Calls : List (List (List UInt8) × HidCall) → List (List UInt8) → Prop
  | opened : Calls [] []
  | next {steps : List (List (List UInt8) × HidCall)} {c : HidCall} {due due' : List (List UInt8)}
      (hbefore : Calls steps due) (hruns : c.Runs due due') : Calls (steps ++ [(due, c)]) due'

def answersIn (steps : List (List (List UInt8) × HidCall)) : List Answer :=
  steps.flatMap fun step => step.2.answers

theorem answersIn_concat (steps : List (List (List UInt8) × HidCall)) (due : List (List UInt8))
    (c : HidCall) : answersIn (steps ++ [(due, c)]) = answersIn steps ++ c.answers := by
  rw [answersIn, List.flatMap_append, List.flatMap_singleton]
  rfl

/-! ### One command -/

theorem map_getD_range {α : Type} (l : List (List α)) :
    (List.range l.length).flatMap (fun j => l.getD j []) = l.flatten := by
  rw [List.flatMap]
  congr 1
  refine List.ext_getElem (by simp) ?_
  intro i hi hi'
  simp [hi']

/-- Of the reports in their order a done assembler was given all. -/
theorem buf_of_whole {bytes : List UInt8} {raws rest : List (List UInt8)}
    {asm a : ResponseAssembler}
    (h : Offers (buildSendFrames bytes) (List.range (buildSendFrames bytes).length) raws)
    (hreceived : asm.received = 0) (hbuf : asm.buf = []) (hdone : asm.drive raws = .done a rest) :
    a.buf = bytes := by
  obtain ⟨ps, qs, hjs, hcollected, -⟩ := drive_done (k := 0) h hreceived hdone
  rw [length_buildSendFrames] at hjs
  have hps : ps = List.range (messageChunks bytes).length := by
    have htake : ps = List.range (min ps.length (messageChunks bytes).length) := by
      rw [← List.take_range, hjs, List.take_left]
    have hlast := hcollected.last
    have hpos := messageChunks_length_pos bytes
    rw [htake, List.getLast?_eq_getElem?, List.length_range, List.getElem?_eq_some_iff] at hlast
    obtain ⟨hlt, hget⟩ := hlast
    rw [List.getElem_range] at hget
    rw [htake]
    congr 1
    rw [List.length_range] at hlt
    omega
  rw [hcollected.buf, hbuf, List.nil_append, hps, map_getD_range, flatten_messageChunks]

theorem HidCall.Runs.answered {c : HidCall} {due due' : List (List UInt8)} (h : c.Runs due due')
    (hdue : NoneStarts due) {data : List UInt8} {sw : UInt16} (hok : c.result = .ok (data, sw)) :
    ∃ a sw1 sw2, c.answer = some a ∧ sw = swOf sw1 sw2 ∧ a.bytes = data ++ [sw1, sw2] := by
  have htransmits := h.transmits
  rw [hok] at htransmits
  cases hwrites : c.writes with
  | error text =>
    rw [hwrites] at htransmits
    cases htransmits
  | ok _ =>
    rw [hwrites] at htransmits
    obtain ⟨asm, hdrive, hfinish⟩ := readResponse_ok htransmits
    have hall := drive_append hdrive due'
    rw [← h.reads] at hall
    obtain ⟨asm', hreceived, hbuf, hdone⟩ := drive_begun hdue rfl rfl hall
    rw [HidCall.answers] at hdone
    obtain ⟨sw1, sw2, hsw, hbytes⟩ := finish_ok hfinish
    cases hanswer : c.answer with
    | none =>
        rw [hanswer] at hdone
        cases hdone
    | some a =>
        rw [hanswer, Option.toList_some, List.flatMap_singleton] at hdone
        refine ⟨a, sw1, sw2, rfl, hsw, ?_⟩
        rw [← buf_of_whole a.whole hreceived hbuf hdone]
        exact hbytes

/-! ### Sequences of commands -/

/-- What is due is the end of what the device answered. -/
theorem calls_due {steps : List (List (List UInt8) × HidCall)} {due : List (List UInt8)}
    (h : Calls steps due) : ∃ gone, gone ++ due = (answersIn steps).flatMap (·.reports) := by
  induction h with
  | opened => exact ⟨[], rfl⟩
  | @next steps c due due' _ hruns ih =>
      obtain ⟨gone, hgone⟩ := ih
      refine ⟨gone ++ taken (c.started + c.timeout) c.polls, ?_⟩
      rw [List.append_assoc, ← hruns.reads, ← List.append_assoc, hgone, answersIn_concat,
        List.flatMap_append]

theorem calls_answered {steps : List (List (List UInt8) × HidCall)} {due : List (List UInt8)}
    (h : Calls steps due) {before after : List (List (List UInt8) × HidCall)}
    {begun : List (List UInt8)} {c : HidCall} (hstep : steps = before ++ (begun, c) :: after) :
    (∃ gone, gone ++ begun = (answersIn before).flatMap (·.reports)) ∧
    (NoneStarts begun → ∀ data sw, c.result = .ok (data, sw) →
      ∃ a sw1 sw2, c.answer = some a ∧ sw = swOf sw1 sw2 ∧ a.bytes = data ++ [sw1, sw2]) := by
  induction h generalizing after with
  | opened => exact absurd hstep.symm (List.append_ne_nil_of_right_ne_nil _ (List.cons_ne_nil _ _))
  | @next steps c' due due' hbefore hruns ih =>
      rcases List.eq_nil_or_concat after with hafter | ⟨after', last, hafter⟩
      · rw [hafter] at hstep
        obtain ⟨hsteps, hlast⟩ := List.append_inj' hstep rfl
        cases hlast
        subst hsteps
        exact ⟨calls_due hbefore, fun hdue data sw hok => hruns.answered hdue hok⟩
      · rw [hafter, List.concat_eq_append, ← List.cons_append, ← List.append_assoc] at hstep
        exact ih (List.append_inj' hstep rfl).1

/-! ### The framing as a whole -/

/-- What becomes of the reports of one message: in their order they give it back, the first one that
is out of place modulo 16 is refused, and whatever was taken was in place modulo 16 to the end. -/
structure Framed (bytes : List UInt8) : Prop where
  whole : ∀ raws, Offers (buildSendFrames bytes) (List.range (buildSendFrames bytes).length) raws →
    BusyBelow raws → ∃ a rest, new.drive raws = .done a rest ∧ Offers (buildSendFrames bytes) [] rest ∧
      a.buf = bytes ∧ a.done = true ∧
      ∀ data sw1 sw2, bytes = data ++ [sw1, sw2] → a.intoResponse = some (data, swOf sw1 sw2)
  misplaced : ∀ k j js raws, k < (buildSendFrames bytes).length →
    Offers (buildSendFrames bytes) (List.range k ++ j :: js) raws → BusyBelow raws →
      j % 16 ≠ k % 16 → new.drive raws = .refused (.outOfSequence (k % 16).toUInt8 (j % 16).toUInt8)
  accepted : ∀ js raws a rest, Offers (buildSendFrames bytes) js raws →
    new.drive raws = .done a rest →
      ∃ ps qs, js = ps ++ qs ∧ Offers (buildSendFrames bytes) qs rest ∧
        ps.getLast? = some ((buildSendFrames bytes).length - 1) ∧
        (∀ i j, ps[i]? = some j → j % 16 = i % 16) ∧
        ps.length % 16 = (buildSendFrames bytes).length % 16

/-- What is due when a command begins are the last reports of earlier answers; where none of them
starts a message, the command succeeds only with its own answer. -/
def Answered (steps : List (List (List UInt8) × HidCall)) : Prop :=
  ∀ before begun c after, steps = before ++ (begun, c) :: after →
    (∃ gone, gone ++ begun = (answersIn before).flatMap (·.reports)) ∧
    (NoneStarts begun → ∀ data sw, c.result = .ok (data, sw) →
      ∃ a sw1 sw2, c.answer = some a ∧ sw = swOf sw1 sw2 ∧ a.bytes = data ++ [sw1, sw2])

/-- **Report framing.** A message of at most 64 KiB comes back from its reports, reports out of
place are refused unless the place is right modulo 16, and commands that find no answer begun
before them get their own. Busy reports may come in between, fewer than `2^32` in a row. -/
theorem reports_framed {bytes : List UInt8} (hfits : bytes.length ≤ MAX_RESPONSE)
    {steps : List (List (List UInt8) × HidCall)} {due : List (List UInt8)} (hcalls : Calls steps due) :
    Framed bytes ∧ Answered steps := by
  refine ⟨⟨?_, ?_, ?_⟩, ?_⟩
  · intro raws hraws hbelow
    obtain ⟨a, rest, hdrive, hrest, hbuf, hdone⟩ := drive_in_order hraws hbelow hfits
    refine ⟨a, rest, hdrive, hrest, hbuf, hdone, ?_⟩
    intro data sw1 sw2 hbytes
    exact intoResponse_of_append (hbuf.trans hbytes)
  · intro k j js raws hk hraws hbelow hplace
    exact drive_misplaced hraws hbelow hk hplace hfits
  · intro js raws a rest hraws hdone
    exact drive_accepts hraws hdone
  · intro before begun c after hstep
    exact calls_answered hcalls hstep

/-! ### A session with a late answer -/

def busyReport : List UInt8 := [MAGIC, FLAG_BUSY, 0x00]

/-- Every report with a busy one before it. -/
def busyBetween (frames : List (List UInt8)) : List (List UInt8) :=
  frames.flatMap fun f => [busyReport, f]

theorem offers_busyBetween (before rest : List (List UInt8)) :
    Offers (before ++ rest) (List.range' before.length rest.length) (busyBetween rest) := by
  induction rest generalizing before with
  | nil => exact .nil
  | cons f rest ih =>
      have hget : (before ++ f :: rest)[before.length]? = some f := by simp
      have hnext := ih (before ++ [f])
      rw [List.append_assoc, List.singleton_append, List.length_append] at hnext
      rw [List.length_cons, List.range'_succ]
      exact .busy rfl (.report hget (.inl rfl) hnext)

theorem offers_busyBetween_all (frames : List (List UInt8)) :
    Offers frames (List.range frames.length) (busyBetween frames) := by
  rw [List.range_eq_range']
  exact offers_busyBetween [] frames

/-- Eighteen chunks, the last two unlike the others. -/
def longMessage : List UInt8 :=
  List.replicate (16 * MAX_CHUNK) 0x00 ++ List.replicate MAX_CHUNK 0x01 ++ [0x02]

theorem length_longMessage : (buildSendFrames longMessage).length = 18 := by decide +kernel

/-- An answer in two reports, with a busy one before each. -/
def busyAnswer : Answer where
  bytes := List.replicate MAX_CHUNK 0x07 ++ [0x90, 0x00]
  reports := busyBetween (buildSendFrames (List.replicate MAX_CHUNK 0x07 ++ [0x90, 0x00]))
  whole := offers_busyBetween_all _

def shortAnswer (b : UInt8) : Answer where
  bytes := [b, 0x90, 0x00]
  reports := [(frame FLAG_LAST 0 [b, 0x90, 0x00]).drop 1]
  whole := by
    rw [buildSendFrames_short (List.cons_ne_nil _ _) (Nat.le_of_ble_eq_true rfl)]
    exact .report rfl (.inr rfl) .nil

/-- The whole answer is read. -/
def busyCall : HidCall where
  timeout := 20000
  detectButtonWait := true
  writes := .ok ()
  started := 0
  polls := busyAnswer.reports.map fun raw => ⟨1, .ok (some raw)⟩
  answer := some busyAnswer
  result := .ok (List.replicate MAX_CHUNK 0x07, swOf 0x90 0x00)
  prompted := false

/-- The time is up when half of the answer has come. -/
def halfReadCall : HidCall where
  timeout := 20000
  detectButtonWait := true
  writes := .ok ()
  started := 0
  polls := ((busyAnswer.reports.take 2).map fun raw => ⟨1, .ok (some raw)⟩) ++ [⟨20000, .ok none⟩]
  answer := some busyAnswer
  result := .error (.applet .buttonPressRequired)
  prompted := false

/-- The other half is in front of the answer. -/
def hinderedCall : HidCall where
  timeout := 20000
  detectButtonWait := true
  writes := .ok ()
  started := 20000
  polls := (busyAnswer.reports.drop 2).map fun raw => ⟨20001, .ok (some raw)⟩
  answer := some (shortAnswer 0x03)
  result := .error (.frame (.outOfSequence 0 1))
  prompted := false

def lateSession : List (List (List UInt8) × HidCall) :=
  [([], busyCall), ([], halfReadCall), (busyAnswer.reports.drop 2, hinderedCall)]

theorem calls_lateSession : Calls lateSession (shortAnswer 0x03).reports :=
  .next (.next (.next .opened ⟨by decide, by decide⟩)
    ⟨by decide, by decide⟩) ⟨by decide, by decide⟩

theorem reports_framed_sample :
    (∃ a rest, new.drive (busyBetween (buildSendFrames longMessage)) = .done a rest ∧
      a.buf = longMessage) ∧ Answered lateSession := by
  have hfits : longMessage.length ≤ MAX_RESPONSE := by decide +kernel
  obtain ⟨hframed, hanswered⟩ := reports_framed hfits calls_lateSession
  have hshort : (busyBetween (buildSendFrames longMessage)).length < 2 ^ 32 := by decide +kernel
  obtain ⟨a, rest, hdrive, -, hbuf, -, -⟩ :=
    hframed.whole _ (offers_busyBetween_all _) (busyBelow_of_length hshort)
  exact ⟨⟨a, rest, hdrive, hbuf⟩, hanswered⟩

/-! ### An answer in the place of another -/

def answeredCall (b read : UInt8) (started : Nat) : HidCall where
  timeout := 20000
  detectButtonWait := false
  writes := .ok ()
  started := started
  polls := [⟨started, .ok ((shortAnswer read).reports.head?)⟩]
  answer := some (shortAnswer b)
  result := .ok ([read], swOf 0x90 0x00)
  prompted := false

/-- The key answers after the command has given up. -/
def lateCall (b : UInt8) : HidCall where
  timeout := 20000
  detectButtonWait := false
  writes := .ok ()
  started := 0
  polls := [⟨20000, .ok none⟩]
  answer := some (shortAnswer b)
  result := .error (.transportUnavailable NO_RESPONSE)
  prompted := false

theorem calls_late : Calls [([], lateCall 0x01), ((shortAnswer 0x01).reports,
    answeredCall 0x02 0x01 20000)] (shortAnswer 0x02).reports :=
  .next (.next .opened ⟨rfl, rfl⟩) ⟨rfl, rfl⟩

/-- The first report and the seventeenth have changed places. -/
def swappedPlaces : List Nat := 16 :: (List.range' 1 15 ++ [0, 17])

def swappedReports : List (List UInt8) :=
  swappedPlaces.map fun j => (buildSendFrames longMessage).getD j []

theorem offers_map {frames : List (List UInt8)} {js : List Nat}
    (h : ∀ j ∈ js, j < frames.length) : Offers frames js (js.map fun j => frames.getD j []) := by
  induction js with
  | nil => exact .nil
  | cons j js ih =>
      have hget : frames[j]? = some (frames.getD j []) := by
        rw [List.getD_eq_getElem?_getD, List.getElem?_eq_getElem (h j List.mem_cons_self)]
        rfl
      exact .report hget (.inl rfl) (ih fun j' hj' => h j' (List.mem_cons_of_mem j hj'))

/-- The assembler of a drive that used every report. -/
def usedUp : Drive → Option ResponseAssembler
  | .done a [] => some a
  | _ => none

theorem eq_done_of_usedUp {d : Drive} {a : ResponseAssembler} (h : usedUp d = some a) :
    d = .done a [] := by
  rcases d with asm | ⟨a', - | ⟨r, rest⟩⟩ | e | -
  · cases h
  · exact congrArg (Drive.done · []) (Option.some.inj h)
  · cases h
  · cases h
  · cases h

theorem swapped_done : ∃ a, new.drive swappedReports = .done a [] ∧ a.buf ≠ longMessage := by
  have hdrive : (usedUp (new.drive swappedReports)).any (·.buf != longMessage) = true := by
    decide +kernel
  obtain ⟨a, hused, hbuf⟩ := (Option.any_eq_true _ _).mp hdrive
  exact ⟨a, eq_done_of_usedUp hused, bne_iff_ne.mp hbuf⟩

/-- The second command is given the answer to the first; and a message whose reports all arrive,
two of them swapped, is accepted with other bytes. -/
theorem late_reports_taken :
    (Calls [([], lateCall 0x01), ((shortAnswer 0x01).reports, answeredCall 0x02 0x01 20000)]
        (shortAnswer 0x02).reports ∧
      (answeredCall 0x02 0x01 20000).result = .ok ([0x01], swOf 0x90 0x00) ∧
      (answeredCall 0x02 0x01 20000).answer = some (shortAnswer 0x02) ∧
      (shortAnswer 0x02).bytes ≠ [0x01] ++ [0x90, 0x00]) ∧
    swappedPlaces.Perm (List.range (buildSendFrames longMessage).length) ∧
      Offers (buildSendFrames longMessage) swappedPlaces swappedReports ∧
      ∃ a, new.drive swappedReports = .done a [] ∧ a.buf ≠ longMessage := by
  refine ⟨⟨calls_late, rfl, rfl, by decide⟩, ?_, offers_map ?_, swapped_done⟩
  · rw [length_longMessage]
    decide
  · rw [length_longMessage]
    decide

end Keyroost.Token2Otp
