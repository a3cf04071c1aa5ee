import Keyroost.Ctap.ReaderExchange

/-!
# CTAP messages and a card that follows the NFC binding

A card takes a message in chained pieces, carries it out once, and gives the answer in chunks. It
may ask for another Le instead, and for more time. Against such a card a message that
`keyroost-transport/src/ctap_pcsc.rs` sends is delivered once and its answer read exactly, as long
as the card neither asks for time nor for another Le of a GET RESPONSE.

The card (`NfcCard`) is a relation, so that it may choose the sizes of its chunks. Its rules stand
beside what the host sends; the two are joined in `ReaderPhase`, which says where in an exchange
card and host are, and `command_step` and `fetch_step` go from one phase to the next.
`sendCtapMessage_carried` is the whole message, and `sendCtapMessage_ends` counts commands and
bytes against a card of any kind. `disturbed_not_carried_once` shows what the two exceptions cost.
-/

namespace Keyroost.Ctap

open Dialogue Transport

/-! ### What a card reads -/

inductive NfcCommand where
  | link (chunk : List UInt8)
  | last (chunk : List UInt8)
  | getResponse
  | other
deriving DecidableEq, Repr

/-- A command with the data behind its length byte, and an Le behind the data. -/
def readCommand : List UInt8 → NfcCommand
  | cla :: ins :: _ :: _ :: _ :: body =>
      if ins = GET_RESPONSE_INS then .getResponse
      else if ins = NFCCTAP_INS ∧ cla = NFCCTAP_CLA ||| CLA_CHAIN then .link body.dropLast
      else if ins = NFCCTAP_INS ∧ cla = NFCCTAP_CLA then .last body.dropLast
      else .other
  | _ => .other

/-! ### What a card does -/

/-- A status word that ends an answer. It is none of those that the loop acts on, as a field, so
that no answer can be built which would have the host go on. -/
structure EndSw where
  sw1 : UInt8
  sw2 : UInt8
  ends : sw1 ≠ 0x61 ∧ sw1 ≠ 0x6C ∧ sw1 ≠ 0x91
deriving DecidableEq, Repr

def EndSw.SUCCESS : EndSw := ⟨0x90, 0x00, by decide⟩

/-- A message that was carried out, with its whole answer. However many exchanges the message and
the answer took, it is one message here. -/
structure Carried where
  message : List UInt8
  answer : List UInt8
  sw : EndSw
deriving DecidableEq, Repr

/-- The pieces of a message so far, what is left of an answer, and what was carried out. The last is
a record of the model: a card is not asked for it, the results speak of it. -/
structure NfcCard where
  chain : List UInt8
  held : Option (List UInt8 × EndSw)
  carried : List Carried
deriving DecidableEq, Repr

/-- A chunk of an answer with `rest` behind it: the end of it, or more to come. The card may
announce with `61xx` any number of bytes, and need not keep to it. -/
inductive Chunk (chunk rest : List UInt8) (sw : EndSw) :
    List UInt8 → Option (List UInt8 × EndSw) → Prop
  | last : rest = [] → Chunk chunk rest sw (chunk ++ [sw.sw1, sw.sw2]) none
  | more (hint : UInt8) : Chunk chunk rest sw (chunk ++ [0x61, hint]) (some (rest, sw))

/-- A card that follows ISO 7816-4 and the CTAP NFC binding. A wrong Le is answered without
data and nothing is done. A keep-alive carries a status byte and no part of the answer. -/
inductive NfcCard.Step : Dialogue.Device CardAnswer NfcCard
  | wrongLe {s : NfcCard} {apdu : List UInt8} (le : UInt8) : Step s apdu (.ok [0x6C, le]) s
  | link {s : NfcCard} {apdu chunk : List UInt8} (hread : readCommand apdu = .link chunk) :
      Step s apdu (.ok [0x90, 0x00]) { s with chain := s.chain ++ chunk }
  | refuse {s : NfcCard} {apdu chunk : List UInt8} {sw : EndSw}
      (hread : readCommand apdu = .link chunk) (hsw : sw ≠ .SUCCESS) :
      Step s apdu (.ok [sw.sw1, sw.sw2]) { s with chain := [] }
  | carry {s : NfcCard} {apdu last resp : List UInt8} (chunk rest : List UInt8) {sw : EndSw}
      {held : Option (List UInt8 × EndSw)} (hread : readCommand apdu = .last last)
      (hlen : chunk.length + 2 ≤ RECV_BUFFER) (hchunk : Chunk chunk rest sw resp held) :
      Step s apdu (.ok resp) ⟨[], held, s.carried ++ [⟨s.chain ++ last, chunk ++ rest, sw⟩]⟩
  | carryLater {s : NfcCard} {apdu last : List UInt8} (status hint : UInt8)
      (answer : List UInt8) (sw : EndSw) (hread : readCommand apdu = .last last) :
      Step s apdu (.ok [status, 0x91, hint])
        ⟨[], some (answer, sw), s.carried ++ [⟨s.chain ++ last, answer, sw⟩]⟩
  | fetch {s : NfcCard} {apdu resp : List UInt8} (chunk rest : List UInt8) {sw : EndSw}
      {held : Option (List UInt8 × EndSw)} (hread : readCommand apdu = .getResponse)
      (hheld : s.held = some (chunk ++ rest, sw)) (hlen : chunk.length + 2 ≤ RECV_BUFFER)
      (hchunk : Chunk chunk rest sw resp held) : Step s apdu (.ok resp) { s with held := held }
  | keepAlive {s : NfcCard} {apdu answer : List UInt8} {sw : EndSw} (status hint : UInt8)
      (hread : readCommand apdu = .getResponse) (hheld : s.held = some (answer, sw)) :
      Step s apdu (.ok [status, 0x91, hint]) s

/-! ### What a message should do -/

abbrev ReaderLog : Type := List (Asked CardAnswer)

/-- The bytes in front of the status word of a response. -/
def responseData (x : Asked CardAnswer) : List UInt8 :=
  match x.2 with
  | .error _ => []
  | .ok resp => resp.take (resp.length - 2)

/-- The message is delivered at most once, and once where the card answered it: with what is
returned where it succeeded, and with the status word of the error where it did not. -/
structure CarriedOnce (message : List UInt8) (carried : List Carried)
    (r : Except ReaderError (List UInt8)) (t : NfcCard) (log : ReaderLog) : Prop where
  answer : ∀ data, r = .ok data → t.carried = carried ++ [⟨message, data, .SUCCESS⟩]
  refused : ∀ sw1 sw2, r = .error (.apdu sw1 sw2) → ∃ data, ∃ sw : EndSw,
    sw1 = sw.sw1 ∧ sw2 = sw.sw2 ∧ t.carried = carried ++ [⟨message, data, sw⟩]
  once : t.carried = carried ∨ ∃ c, c.message = message ∧ t.carried = carried ++ [c]
  /-- Once a part of the answer or a keep-alive came back, only GET RESPONSE is sent. -/
  ordered : log.Pairwise fun x y => responseData x ≠ [] → readCommand y.1 = .getResponse

/-- The card asks neither for more time nor for another Le of a GET RESPONSE. -/
def Undisturbed (x : Asked CardAnswer) : Prop :=
  ∀ data sw1 sw2, x.2 = .ok (data ++ [sw1, sw2]) →
    sw1 ≠ 0x91 ∧ (readCommand x.1 = .getResponse → sw1 ≠ 0x6C)

/-! ### The commands that are sent -/

theorem readCommand_getResponse (le : UInt8) : readCommand (getResponse le) = .getResponse := rfl

theorem readCommand_last (chunk : List UInt8) :
    readCommand (messageApdu NFCCTAP_CLA chunk) = .last chunk := by
  show NfcCommand.last (chunk ++ [0x00]).dropLast = _
  rw [List.dropLast_concat]

theorem readCommand_link (chunk : List UInt8) :
    readCommand (messageApdu (NFCCTAP_CLA ||| CLA_CHAIN) chunk) = .link chunk := by
  show NfcCommand.link (chunk ++ [0x00]).dropLast = _
  rw [List.dropLast_concat]

/-- The command again, with another Le. -/
def lastWithLe (chunk : List UInt8) (le : UInt8) : List UInt8 :=
  [NFCCTAP_CLA, NFCCTAP_INS, 0x00, 0x00, chunk.length.toUInt8] ++ chunk ++ [le]

theorem readCommand_lastWithLe (chunk : List UInt8) (le : UInt8) :
    readCommand (lastWithLe chunk le) = .last chunk := by
  show NfcCommand.last (chunk ++ [le]).dropLast = _
  rw [List.dropLast_concat]

theorem dropLast_messageApdu (chunk : List UInt8) (le : UInt8) :
    (messageApdu NFCCTAP_CLA chunk).dropLast ++ [le] = lastWithLe chunk le := by
  rw [messageApdu, List.dropLast_concat, lastWithLe]

theorem continuation_getResponse (apdu data : List UInt8) (hint : UInt8) :
    continuation apdu data 0x61 hint = some (getResponse hint, data) := by
  have h90 : ¬ ((0x61 : UInt8) = 0x90 ∧ hint = 0x00) := fun h => absurd h.1 (by decide)
  rw [continuation, if_neg h90, if_pos rfl]

theorem continuation_wrongLe (chunk data : List UInt8) (le : UInt8) :
    continuation (messageApdu NFCCTAP_CLA chunk) data 0x6C le = some (lastWithLe chunk le, []) := by
  have h90 : ¬ ((0x6C : UInt8) = 0x90 ∧ le = 0x00) := fun h => absurd h.1 (by decide)
  have h61 : (0x6C : UInt8) ≠ 0x61 := by decide
  rw [continuation, if_neg h90, if_neg h61, if_pos rfl, dropLast_messageApdu]

theorem continuation_end (apdu data : List UInt8) (sw : EndSw) :
    continuation apdu data sw.sw1 sw.sw2 = none := by
  obtain ⟨h61, h6c, h91⟩ := sw.ends
  simp only [continuation, if_neg h61, if_neg h6c, if_neg h91, ite_self]

/-! ### One exchange -/

section Exchange

variable {apdu chunk c data : List UInt8} {held : Option (List UInt8 × EndSw)}
  {carried : List Carried} {s t : NfcCard} {log : ReaderLog} {sw1 sw2 : UInt8}
  {answer : Except PcscError (List UInt8)}

theorem readAnswer_ok (h : data.length + 2 ≤ RECV_BUFFER) :
    readAnswer (.ok (data ++ [sw1, sw2])) = .ok (data, sw1, sw2) := by
  have hfits : (data ++ [sw1, sw2]).length ≤ RECV_BUFFER := by
    rw [List.length_append]
    exact h
  simp only [readAnswer, received_of_le hfits, splitSw_append]

theorem always_exchange {σ R : Type} {D : Dialogue.Device CardAnswer σ}
    {f : List UInt8 × UInt8 × UInt8 → Dialogue CardAnswer (Except ReaderError R)}
    {Post : Except ReaderError R → σ → Prop} {s : σ}
    (h : ∀ answer t, D s apdu answer t → ∃ data sw1 sw2, answer = .ok (data ++ [sw1, sw2]) ∧
      data.length + 2 ≤ RECV_BUFFER ∧ (f (data, sw1, sw2)).Always D Post t) :
    ((exchange apdu).andThen f).Always D Post s := by
  refine Always.andThen ?_
  intro answer t hstep
  obtain ⟨data, sw1, sw2, rfl, hlen, hf⟩ := h answer t hstep
  show (∀ e, readAnswer (.ok (data ++ [sw1, sw2])) = .error e → _) ∧
    ∀ a, readAnswer (.ok (data ++ [sw1, sw2])) = .ok a → _
  rw [readAnswer_ok hlen]
  refine ⟨fun e he => ?_, fun a ha => ?_⟩
  · cases he
  · cases ha
    exact hf

/-- Where an exchange stands after a response: the command not carried out, or carried out with
`data` in front of what the card still holds. -/
inductive ReaderPhase (chunk c : List UInt8) (held : Option (List UInt8 × EndSw))
    (carried : List Carried) : List UInt8 → UInt8 → UInt8 → NfcCard → ReaderLog → Prop
  | wrongLe (le : UInt8) {log : ReaderLog} (hquiet : ∀ x ∈ log, responseData x = []) :
      ReaderPhase chunk c held carried [] 0x6C le ⟨c, held, carried⟩ log
  | more (hint : UInt8) (data rest : List UInt8) (sw : EndSw) (log : ReaderLog) :
      ReaderPhase chunk c held carried data 0x61 hint
        ⟨[], some (rest, sw), carried ++ [⟨c ++ chunk, data ++ rest, sw⟩]⟩ log
  | last (data : List UInt8) (sw : EndSw) (log : ReaderLog) :
      ReaderPhase chunk c held carried data sw.sw1 sw.sw2
        ⟨[], none, carried ++ [⟨c ++ chunk, data, sw⟩]⟩ log

theorem phase_of_chunk (chunk c : List UInt8) (held : Option (List UInt8 × EndSw))
    (carried : List Carried) (first : List UInt8) {part rest resp : List UInt8}
    {sw : EndSw} {held' : Option (List UInt8 × EndSw)} (h : Chunk part rest sw resp held') :
    ∃ sw1 sw2, resp = part ++ [sw1, sw2] ∧ ∀ log,
      ReaderPhase chunk c held carried (first ++ part) sw1 sw2
        ⟨[], held', carried ++ [⟨c ++ chunk, first ++ (part ++ rest), sw⟩]⟩ log := by
  rw [← List.append_assoc]
  rcases h with hrest | hint
  · refine ⟨sw.sw1, sw.sw2, rfl, fun log => ?_⟩
    rw [hrest, List.append_nil]
    exact .last _ sw log
  · exact ⟨0x61, hint, rfl, .more hint _ rest sw⟩

/-- The command's own response. -/
theorem command_step (hread : readCommand apdu = .last chunk)
    (hstep : NfcCard.Step ⟨c, held, carried⟩ apdu answer t)
    (hcalm : Undisturbed ⟨apdu, answer⟩) (hquiet : ∀ x ∈ log, responseData x = []) :
    ∃ data sw1 sw2, answer = .ok (data ++ [sw1, sw2]) ∧ data.length + 2 ≤ RECV_BUFFER ∧
      ReaderPhase chunk c held carried data sw1 sw2 t (log ++ [⟨apdu, answer⟩]) := by
  cases hstep with
  | wrongLe le =>
      refine ⟨[], 0x6C, le, rfl, by decide, .wrongLe le fun x hx => ?_⟩
      rcases List.mem_append.mp hx with hx | hx
      · exact hquiet x hx
      · rw [List.mem_singleton.mp hx]
        rfl
  | link hlink =>
      rw [hread] at hlink
      cases hlink
  | refuse hlink =>
      rw [hread] at hlink
      cases hlink
  | carry part rest hlast hlen hchunk =>
      rw [hread] at hlast
      cases hlast
      obtain ⟨sw1, sw2, rfl, hphase⟩ := phase_of_chunk chunk c held carried [] hchunk
      exact ⟨part, sw1, sw2, rfl, hlen, hphase _⟩
  | carryLater status hint =>
      exact absurd rfl (hcalm [status] 0x91 hint rfl).1
  | fetch _ _ hget =>
      rw [hread] at hget
      cases hget
  | keepAlive _ _ hget =>
      rw [hread] at hget
      cases hget

/-- A response to GET RESPONSE. -/
theorem fetch_step {rest : List UInt8} {sw : EndSw} (hread : readCommand apdu = .getResponse)
    (hstep : NfcCard.Step ⟨[], some (rest, sw), carried ++ [⟨c ++ chunk, data ++ rest, sw⟩]⟩ apdu
      answer t) (hcalm : Undisturbed ⟨apdu, answer⟩) :
    ∃ part sw1 sw2, answer = .ok (part ++ [sw1, sw2]) ∧ part.length + 2 ≤ RECV_BUFFER ∧
      ReaderPhase chunk c held carried (data ++ part) sw1 sw2 t (log ++ [⟨apdu, answer⟩]) := by
  cases hstep with
  | wrongLe le => exact absurd rfl ((hcalm [] 0x6C le rfl).2 hread)
  | link hlink =>
      rw [hread] at hlink
      cases hlink
  | refuse hlink =>
      rw [hread] at hlink
      cases hlink
  | carry _ _ hlast =>
      rw [hread] at hlast
      cases hlast
  | carryLater _ _ _ _ hlast =>
      rw [hread] at hlast
      cases hlast
  | fetch part rest' _ hheld hlen hchunk =>
      cases hheld
      obtain ⟨sw1, sw2, rfl, hphase⟩ := phase_of_chunk chunk c held carried data hchunk
      exact ⟨part, sw1, sw2, rfl, hlen, hphase _⟩
  | keepAlive status hint => exact absurd rfl (hcalm [status] 0x91 hint rfl).1

theorem ReaderPhase.once (h : ReaderPhase chunk c held carried data sw1 sw2 s log) :
    s.carried = carried ∨ ∃ d, d.message = c ++ chunk ∧ s.carried = carried ++ [d] := by
  cases h with
  | wrongLe => exact .inl rfl
  | more => exact .inr ⟨_, rfl, rfl⟩
  | last => exact .inr ⟨_, rfl, rfl⟩

end Exchange

/-! ### The whole exchange -/

/-- The card in the exchanges of the condition, with the conversation so far. -/
abbrev CalmCard : Dialogue.Device CardAnswer (NfcCard × ReaderLog) :=
  logged (only NfcCard.Step Undisturbed)

def Ordered (log : ReaderLog) : Prop :=
  log.Pairwise fun x y => responseData x ≠ [] → readCommand y.1 = .getResponse

theorem Ordered.push {log : ReaderLog} (h : Ordered log) (y : Asked CardAnswer)
    (hy : (∀ x ∈ log, responseData x = []) ∨ readCommand y.1 = .getResponse) :
    Ordered (log ++ [y]) := by
  refine List.pairwise_append.mpr ⟨h, List.pairwise_singleton _ _, ?_⟩
  intro x hx z hz hdata
  rw [List.mem_singleton.mp hz]
  rcases hy with hquiet | hget
  · exact absurd (hquiet x hx) hdata
  · exact hget

/-- What an exchange of the whole message ends in: an answer is the answer to the message, which was
carried out once, and without an answer it was carried out at most once. -/
structure Exchanged (message : List UInt8) (carried : List Carried) (r : Answered) (t : NfcCard)
    (log : ReaderLog) : Prop where
  answer : ∀ data sw1 sw2, r = .ok (data, sw1, sw2) →
    ∃ sw : EndSw, sw1 = sw.sw1 ∧ sw2 = sw.sw2 ∧ t.carried = carried ++ [⟨message, data, sw⟩]
  stopped : ∀ sw1 sw2, r ≠ .error (.apdu sw1 sw2)
  once : t.carried = carried ∨ ∃ d, d.message = message ∧ t.carried = carried ++ [d]
  ordered : Ordered log

theorem exchanged_error {message : List UInt8} {carried : List Carried} {e : ReaderError}
    {t : NfcCard} {log : ReaderLog} (he : ∀ sw1 sw2, e ≠ .apdu sw1 sw2)
    (honce : t.carried = carried ∨ ∃ d, d.message = message ∧ t.carried = carried ++ [d])
    (hordered : Ordered log) : Exchanged message carried (.error e) t log :=
  ⟨fun _ _ _ h => (by cases h), fun sw1 sw2 h => he sw1 sw2 (Except.error.inj h), honce, hordered⟩

section Loop

variable {chunk c data : List UInt8} {held : Option (List UInt8 × EndSw)}
  {carried : List Carried} {s : NfcCard} {log : ReaderLog} {sw1 sw2 : UInt8}

theorem loop_exchanges {left : Nat}
    (hphase : ReaderPhase chunk c held carried data sw1 sw2 s log) (hordered : Ordered log) :
    (exchangeLoop (messageApdu NFCCTAP_CLA chunk) left data sw1 sw2).Always CalmCard
      (fun r t => Exchanged (c ++ chunk) carried r t.1 t.2) (s, log) := by
  induction left using Nat.strong_induction_on generalizing data sw1 sw2 s log with
  | _ left ih =>
      -- What the next exchange leads to, whichever command it is.
      have hturn : ∀ send kept, continuation (messageApdu NFCCTAP_CLA chunk) data sw1 sw2 =
          some (send, kept) → (∀ answer t, CalmCard (s, log) send answer t →
            ∃ part sw1 sw2, answer = .ok (part ++ [sw1, sw2]) ∧ part.length + 2 ≤ RECV_BUFFER ∧
              ReaderPhase chunk c held carried (kept ++ part) sw1 sw2 t.1 t.2 ∧ Ordered t.2) →
          (exchangeLoop (messageApdu NFCCTAP_CLA chunk) left data sw1 sw2).Always CalmCard
            (fun r t => Exchanged (c ++ chunk) carried r t.1 t.2) (s, log) := by
        intro send kept hnext hanswers
        rw [exchangeLoop.eq_def]
        simp only [hnext]
        refine always_exchange fun answer t hstep => ?_
        obtain ⟨part, sw1, sw2, rfl, hlen, hphase', hordered'⟩ := hanswers answer t hstep
        refine ⟨part, sw1, sw2, rfl, hlen, ?_⟩
        cases left with
        | zero => exact exchanged_error (by simp) hphase'.once hordered'
        | succ left =>
            show (if _ then _ else _ : Dialogue CardAnswer Answered).Always _ _ _
            split
            · exact exchanged_error (by simp) hphase'.once hordered'
            · exact ih left (Nat.lt_succ_self left) hphase' hordered'
      cases hphase with
      | wrongLe _ hquiet =>
          refine hturn _ _ (continuation_wrongLe chunk [] sw2) ?_
          rintro answer ⟨t, log'⟩ ⟨⟨hstep, hcalm⟩, rfl : log' = _⟩
          have hread := readCommand_lastWithLe chunk sw2
          obtain ⟨part, sw1, sw2, rfl, hlen, hphase⟩ := command_step hread hstep hcalm hquiet
          exact ⟨part, sw1, sw2, rfl, hlen, hphase, hordered.push _ (.inl hquiet)⟩
      | more _ data rest sw =>
          refine hturn _ _ (continuation_getResponse _ data sw2) ?_
          rintro answer ⟨t, log'⟩ ⟨⟨hstep, hcalm⟩, rfl : log' = _⟩
          have hread := readCommand_getResponse sw2
          obtain ⟨part, sw1, sw2, rfl, hlen, hphase⟩ := fetch_step hread hstep hcalm
          exact ⟨part, sw1, sw2, rfl, hlen, hphase, hordered.push _ (.inr hread)⟩
      | last data sw =>
          rw [exchangeLoop.eq_def]
          simp only [continuation_end]
          refine ⟨?_, fun _ _ h => (by cases h), .inr ⟨_, rfl, rfl⟩, hordered⟩
          intro _ _ _ h
          cases h
          exact ⟨sw, rfl, rfl, rfl⟩

theorem exchangeFull_exchanges (hquiet : ∀ x ∈ log, responseData x = []) (hordered : Ordered log) :
    (exchangeFull (messageApdu NFCCTAP_CLA chunk)).Always CalmCard
      (fun r t => Exchanged (c ++ chunk) carried r t.1 t.2) (⟨c, held, carried⟩, log) := by
  refine always_exchange ?_
  rintro answer ⟨t, log'⟩ ⟨⟨hstep, hcalm⟩, rfl : log' = _⟩
  obtain ⟨part, sw1, sw2, rfl, hlen, hphase⟩ :=
    command_step (readCommand_last chunk) hstep hcalm hquiet
  exact ⟨part, sw1, sw2, rfl, hlen, loop_exchanges hphase (hordered.push _ (.inl hquiet))⟩

/-! ### The pieces of a message -/

theorem EndSw.eq_success {sw : EndSw} (h : sw.sw1 = 0x90 ∧ sw.sw2 = 0x00) : sw = .SUCCESS := by
  obtain ⟨sw1, sw2, hends⟩ := sw
  obtain ⟨rfl, rfl⟩ := h
  rfl

/-- A card's response to a piece that more pieces follow: it has the piece, or did nothing. -/
theorem link_step {apdu : List UInt8} {answer : Except PcscError (List UInt8)} {t : NfcCard}
    (hread : readCommand apdu = .link chunk)
    (hstep : NfcCard.Step ⟨c, held, carried⟩ apdu answer t) :
    ∃ sw1 sw2, answer = .ok ([] ++ [sw1, sw2]) ∧
      ((sw1 = 0x90 ∧ sw2 = 0x00) ∧ t = ⟨c ++ chunk, held, carried⟩ ∨
        ¬ (sw1 = 0x90 ∧ sw2 = 0x00) ∧ t.carried = carried) := by
  cases hstep with
  | wrongLe le => exact ⟨0x6C, le, rfl, .inr ⟨fun h => absurd h.1 (by decide), rfl⟩⟩
  | link hlink =>
      rw [hread] at hlink
      cases hlink
      exact ⟨0x90, 0x00, rfl, .inl ⟨⟨rfl, rfl⟩, rfl⟩⟩
  | refuse _ hsw => exact ⟨_, _, rfl, .inr ⟨fun h => hsw (EndSw.eq_success h), rfl⟩⟩
  | carry _ _ hlast =>
      rw [hread] at hlast
      cases hlast
  | carryLater _ _ _ _ hlast =>
      rw [hread] at hlast
      cases hlast
  | fetch _ _ hget =>
      rw [hread] at hget
      cases hget
  | keepAlive _ _ hget =>
      rw [hread] at hget
      cases hget

theorem sendPieces_exchanges {pieces : List (List UInt8)} (hne : pieces ≠ [])
    (hquiet : ∀ x ∈ log, responseData x = []) (hordered : Ordered log) :
    (sendPieces pieces).Always CalmCard
      (fun r t => Exchanged (c ++ pieces.flatten) carried r t.1 t.2)
      (⟨c, held, carried⟩, log) := by
  induction pieces generalizing c log with
  | nil => exact absurd rfl hne
  | cons chunk rest ih =>
      cases rest with
      | nil =>
          rw [List.flatten_cons, List.flatten_nil, List.append_nil]
          exact exchangeFull_exchanges hquiet hordered
      | cons next rest =>
          refine always_exchange ?_
          rintro answer ⟨t, log'⟩ ⟨⟨hstep, -⟩, rfl : log' = _⟩
          obtain ⟨sw1, sw2, rfl, hdone⟩ := link_step (readCommand_link chunk) hstep
          refine ⟨[], sw1, sw2, rfl, by decide, ?_⟩
          show (if _ then _ else _ : Dialogue CardAnswer Answered).Always _ _ _
          have hordered' := hordered.push ⟨messageApdu (NFCCTAP_CLA ||| CLA_CHAIN) chunk,
            .ok ([] ++ [sw1, sw2])⟩ (.inl hquiet)
          rcases hdone with ⟨hsw, rfl⟩ | ⟨hsw, hcarried⟩
          · rw [if_pos hsw, List.flatten_cons, ← List.append_assoc]
            refine ih (List.cons_ne_nil _ _) (fun x hx => ?_) hordered'
            rcases List.mem_append.mp hx with hx | hx
            · exact hquiet x hx
            · rw [List.mem_singleton.mp hx]
              rfl
          · rw [if_neg hsw]
            exact exchanged_error (by simp) (.inl hcarried) hordered'

end Loop

theorem messagePieces_ne_nil (message : List UInt8) : messagePieces message ≠ [] := by
  unfold messagePieces
  split
  · exact List.cons_ne_nil _ _
  · next hne => exact Piv.chunks_ne_nil (by decide) hne

theorem flatten_messagePieces (message : List UInt8) :
    (messagePieces message).flatten = message := by
  unfold messagePieces
  split
  · next hnil =>
      rw [hnil]
      rfl
  · exact Piv.flatten_chunks (by decide) message

/-- Undisturbed, a message is carried once. -/
theorem sendCtapMessage_carried (message : List UInt8) (held : Option (List UInt8 × EndSw))
    (carried : List Carried) :
    (sendCtapMessage message).Always CalmCard
      (fun r t => CarriedOnce message carried r t.1 t.2) (⟨[], held, carried⟩, []) := by
  have h : (sendPieces (messagePieces message)).Always CalmCard
      (fun r t => Exchanged ([] ++ (messagePieces message).flatten) carried r t.1 t.2)
      (⟨[], held, carried⟩, []) :=
    sendPieces_exchanges (messagePieces_ne_nil message) (fun x hx => (by cases hx)) .nil
  rw [flatten_messagePieces, List.nil_append] at h
  refine Always.andThen (h.mono ?_)
  rintro r ⟨t, log⟩ ⟨hanswer, hstopped, honce, hordered⟩
  refine ⟨fun e he => ⟨fun _ hd => (by cases hd), ?_, honce, hordered⟩, ?_⟩
  · rintro sw1 sw2 h
    exact absurd (he.trans (congrArg Except.error (Except.error.inj h))) (hstopped sw1 sw2)
  rintro ⟨data, sw1, sw2⟩ rfl
  obtain ⟨sw, rfl, rfl, hcarried⟩ := hanswer data sw1 sw2 rfl
  show (if _ then _ else _ : Dialogue CardAnswer (Except ReaderError (List UInt8))).Always _ _ _
  split
  · next hsw =>
      rw [EndSw.eq_success hsw] at hcarried
      refine ⟨fun d hd => ?_, fun _ _ hd => (by cases hd), honce, hordered⟩
      cases hd
      exact hcarried
  · refine ⟨fun _ hd => (by cases hd), fun _ _ hd => ?_, honce, hordered⟩
    cases hd
    exact ⟨data, sw, rfl, rfl, hcarried⟩

/-! ### Any card -/

/-- Whatever the card answers, a message ends by the limits: an exchange for each piece, so many
reads after them, and no answer larger than the ceiling. -/
structure EndsWithin (message : List UInt8) (r : Except ReaderError (List UInt8))
    (log : ReaderLog) : Prop where
  exchanges : log.length ≤ (messagePieces message).length + MAX_ITERS + 1
  size : ∀ data, r = .ok data → data.length ≤ MAX_DATA

section Limits

variable {σ : Type} {D : Dialogue.Device CardAnswer σ} {d : σ} {apdu data : List UInt8}
  {sw1 sw2 : UInt8} {log : ReaderLog}

/-- An end of the exchanges after at most `n`. Where it is an answer, the collected data stay within
the source's own limit. -/
structure Limited (n : Nat) (r : Answered) (log : ReaderLog) : Prop where
  exchanges : log.length ≤ n
  size : ∀ data sw1 sw2, r = .ok (data, sw1, sw2) → data.length ≤ MAX_DATA

theorem limited_error {n : Nat} {e : ReaderError} (h : log.length ≤ n) :
    Limited n (.error e) log := ⟨h, fun _ _ _ h => (by cases h)⟩

theorem Limited.mono {n m : Nat} {r : Answered} (h : Limited n r log) (hle : n ≤ m) :
    Limited m r log := ⟨Nat.le_trans h.exchanges hle, h.size⟩

theorem length_of_readAnswer {answer : Except PcscError (List UInt8)}
    (h : readAnswer answer = .ok (data, sw1, sw2)) : data.length ≤ MAX_DATA := by
  rcases hreceived : received answer with e | resp
  · simp only [readAnswer, hreceived] at h
    cases h
  · have hfits := (received_ok hreceived).2
    rcases hsplit : splitSw resp with _ | ⟨data', a, b⟩
    · simp only [readAnswer, hreceived, hsplit] at h
      cases h
    · simp only [readAnswer, hreceived, hsplit] at h
      cases h
      rw [eq_of_splitSw hsplit, List.length_append] at hfits
      exact Nat.le_trans (Nat.le_of_add_right_le hfits) (Nat.le_of_ble_eq_true rfl)

/-- One exchange more, and what follows it. -/
theorem always_exchange_limited {f : List UInt8 × UInt8 × UInt8 → Dialogue CardAnswer Answered}
    {n : Nat} (hn : log.length < n)
    (hf : ∀ data sw1 sw2 t x, data.length ≤ MAX_DATA →
      (f (data, sw1, sw2)).Always (logged D) (fun r t => Limited n r t.2) (t, log ++ [x])) :
    ((exchange apdu).andThen f).Always (logged D) (fun r t => Limited n r t.2) (d, log) := by
  refine Always.andThen ?_
  rintro answer ⟨t, log'⟩ ⟨-, rfl : log' = _⟩
  refine ⟨fun e _ => limited_error ?_, ?_⟩
  · rw [List.length_append]
    exact hn
  · rintro ⟨data, sw1, sw2⟩ hok
    exact hf data sw1 sw2 t _ (length_of_readAnswer hok)

theorem loop_limited {left : Nat} (hdata : data.length ≤ MAX_DATA) :
    (exchangeLoop apdu left data sw1 sw2).Always (logged D)
      (fun r t => Limited (log.length + left + 1) r t.2) (d, log) := by
  induction left using Nat.strong_induction_on generalizing data sw1 sw2 d log with
  | _ left ih =>
      rw [exchangeLoop.eq_def]
      rcases hnext : continuation apdu data sw1 sw2 with _ | ⟨send, kept⟩
      · simp only [hnext]
        refine ⟨Nat.le_succ_of_le (Nat.le_add_right _ _), ?_⟩
        intro _ _ _ h
        cases h
        exact hdata
      · simp only [hnext]
        have hroom : log.length < log.length + left + 1 := by omega
        refine always_exchange_limited hroom fun more a b t x _ => ?_
        have hlog : (log ++ [x]).length = log.length + 1 := List.length_append
        cases left with
        | zero => exact limited_error (Nat.le_of_eq hlog)
        | succ left =>
            show (if _ then _ else _ : Dialogue CardAnswer Answered).Always _ _ _
            split
            · refine limited_error ?_
              rw [hlog]
              omega
            · next hcap =>
                refine (ih left (Nat.lt_succ_self left) (Nat.le_of_not_lt hcap)).mono ?_
                intro r t h
                refine h.mono ?_
                rw [hlog]
                omega

theorem sendPieces_limited (pieces : List (List UInt8)) :
    (sendPieces pieces).Always (logged D)
      (fun r t => Limited (log.length + pieces.length + MAX_ITERS + 1) r t.2) (d, log) := by
  induction pieces generalizing d log with
  | nil =>
      refine ⟨Nat.le_add_right_of_le (Nat.le_add_right_of_le (Nat.le_add_right _ _)), ?_⟩
      intro _ _ _ h
      cases h
      exact Nat.zero_le _
  | cons chunk rest ih =>
      have hroom : log.length < log.length + (chunk :: rest).length + MAX_ITERS + 1 := by omega
      cases rest with
      | nil =>
          refine always_exchange_limited hroom fun data a b t x hdata => ?_
          refine (loop_limited hdata).mono fun r t h => h.mono ?_
          rw [List.length_append, List.length_singleton, List.length_singleton]
      | cons next rest =>
          refine always_exchange_limited hroom fun data a b t x _ => ?_
          have hlog : (log ++ [x]).length = log.length + 1 := List.length_append
          show (if _ then _ else _ : Dialogue CardAnswer Answered).Always _ _ _
          split
          · refine ih.mono fun r t h => h.mono ?_
            rw [hlog, List.length_cons, List.length_cons, List.length_cons]
            omega
          · refine limited_error ?_
            rw [hlog]
            omega

end Limits

theorem sendCtapMessage_ends (message : List UInt8) {σ : Type} (D : Dialogue.Device CardAnswer σ) (d : σ) :
    (sendCtapMessage message).Always (logged D) (fun r t => EndsWithin message r t.2) (d, []) := by
  refine Always.andThen ((sendPieces_limited (messagePieces message)).mono ?_)
  rintro r ⟨t, log⟩ ⟨hlog, hsize⟩
  rw [List.length_nil, Nat.zero_add] at hlog
  refine ⟨fun e _ => ⟨hlog, fun _ hd => (by cases hd)⟩, ?_⟩
  rintro ⟨data, sw1, sw2⟩ rfl
  show (if _ then _ else _ : Dialogue CardAnswer (Except ReaderError (List UInt8))).Always _ _ _
  split
  · refine ⟨hlog, fun d hd => ?_⟩
    cases hd
    exact hsize data sw1 sw2 rfl
  · exact ⟨hlog, fun _ hd => (by cases hd)⟩

/-- **A CTAP message over a reader**: in every run where the card asks neither for more time nor
for another Le of a GET RESPONSE, the message is delivered once and its answer read exactly;
and against any card it ends by the limits. -/
theorem ctap_message_carried (message : List UInt8) (held : Option (List UInt8 × EndSw))
    (carried : List Carried) :
    (sendCtapMessage message).Always (logged (only NfcCard.Step Undisturbed))
        (fun r t => CarriedOnce message carried r t.1 t.2) (⟨[], held, carried⟩, []) ∧
      ∀ {σ : Type} (D : Dialogue.Device CardAnswer σ) (d : σ),
        (sendCtapMessage message).Always (logged D) (fun r t => EndsWithin message r t.2) (d, []) :=
  ⟨sendCtapMessage_carried message held carried, sendCtapMessage_ends message⟩

/-! ### A card that asks for another Le, and one that asks for time -/

def READY : NfcCard := ⟨[], none, []⟩

/-- A wrong Le of a GET RESPONSE runs the command again, and a keep-alive's byte is read as
part of the answer. -/
theorem disturbed_not_carried_once :
    (∃ log t, Runs NfcCard.Step READY (sendCtapMessage [0x04]) log (.ok [0x00]) t ∧
      t.carried = [⟨[0x04], [0x00], .SUCCESS⟩, ⟨[0x04], [0x00], .SUCCESS⟩] ∧
      ¬ CarriedOnce [0x04] [] (.ok [0x00]) t log) ∧
    ∃ log t, Runs NfcCard.Step READY (sendCtapMessage [0x04]) log (.ok [0x02, 0x00]) t ∧
      t.carried = [⟨[0x04], [0x00], .SUCCESS⟩] ∧
      ¬ CarriedOnce [0x04] [] (.ok [0x02, 0x00]) t log := by
  constructor
  · have hcarry : NfcCard.Step READY (messageApdu NFCCTAP_CLA [0x04]) (.ok [0x61, 0x01])
        ⟨[], some ([0x00], .SUCCESS), [⟨[0x04], [0x00], .SUCCESS⟩]⟩ :=
      .carry [] [0x00] (readCommand_last [0x04]) (Nat.le_of_ble_eq_true rfl) (.more 0x01)
    have hagain : NfcCard.Step
        ⟨[], some ([0x00], .SUCCESS), [⟨[0x04], [0x00], .SUCCESS⟩]⟩
        (lastWithLe [0x04] 0x01) (.ok [0x00, 0x90, 0x00])
        ⟨[], none, [⟨[0x04], [0x00], .SUCCESS⟩, ⟨[0x04], [0x00], .SUCCESS⟩]⟩ :=
      .carry [0x00] [] (readCommand_lastWithLe [0x04] 0x01) (Nat.le_of_ble_eq_true rfl)
        (.last rfl)
    refine ⟨_, _, Runs.ask hcarry (Runs.ask (.wrongLe 0x01) (Runs.ask hagain .done)), rfl, ?_⟩
    intro h
    have hone := h.answer [0x00] rfl
    exact absurd hone (by decide)
  · have hlater : NfcCard.Step READY (messageApdu NFCCTAP_CLA [0x04]) (.ok [0x02, 0x91, 0x00])
        ⟨[], some ([0x00], .SUCCESS), [⟨[0x04], [0x00], .SUCCESS⟩]⟩ :=
      .carryLater 0x02 0x00 [0x00] .SUCCESS (readCommand_last [0x04])
    have hfetch : NfcCard.Step
        ⟨[], some ([0x00], .SUCCESS), [⟨[0x04], [0x00], .SUCCESS⟩]⟩ (getResponse 0x00)
        (.ok [0x00, 0x90, 0x00]) ⟨[], none, [⟨[0x04], [0x00], .SUCCESS⟩]⟩ :=
      .fetch [0x00] [] (readCommand_getResponse 0x00) rfl (Nat.le_of_ble_eq_true rfl) (.last rfl)
    refine ⟨_, _, Runs.ask hlater (Runs.ask hfetch .done), rfl, ?_⟩
    intro h
    have hone := h.answer [0x02, 0x00] rfl
    exact absurd hone (by decide)

end Keyroost.Ctap
