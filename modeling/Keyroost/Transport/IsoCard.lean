import Keyroost.Transport.AppletIo

/-!
# Applet exchanges with an ISO 7816-4 card

A card carries a command out once and gives the answer in chunks: as much as it likes with the
command, the rest to the continuation commands. What it has not given yet it holds. Against every
such card the loop of `AppletIo` ends with the whole answer, or with the chunk limit.

The card is a relation (`IsoCard.Step`), free in the sizes of its chunks and in asking for another
Le. `Phase` is where an exchange stands: what the card still holds and what the loop has gathered
make up the answer. `Phase.step` is one APDU and `loop_reassembles` the induction over the chunks
that may still come. For a card of any kind only the bounds are left (`loop_bounded`), and
`dripping_card_is_given_up` reaches them.
-/

namespace Keyroost.Transport

open Dialogue Proto

/-! ### What a card does -/

/-- A final status word: neither of the two that ask for another APDU. -/
structure FinalSw where
  sw1 : UInt8
  sw2 : UInt8
  final : sw1 ≠ 0x61 ∧ sw1 ≠ 0x6C
deriving DecidableEq, Repr

def FinalSw.value (sw : FinalSw) : UInt16 := swOf sw.sw1 sw.sw2

/-- What is left of an answer, for the continuation commands. It is dropped when another command
comes, since a card keeps one answer at most. -/
structure Held where
  rest : List UInt8
  sw : FinalSw
deriving DecidableEq, Repr

/-- A command the card has carried out, with the whole answer. -/
structure Performed where
  apdu : List UInt8
  answer : List UInt8
  sw : FinalSw
deriving DecidableEq, Repr

structure IsoCard where
  held : Option Held
  performed : List Performed
deriving DecidableEq, Repr

/-- The continuation command with some Le. -/
def Fetches (continuation : ShortApdu) (apdu : List UInt8) : Prop :=
  ∃ le, apdu = (continuation.withLe le).bytes

/-- One response of the card that still has `chunk` and `rest` to give: all of it with the
final status word, or `chunk` with `61xx`. What it then holds comes with it. -/
inductive Gives (chunk rest : List UInt8) (sw : FinalSw) : List UInt8 → Option Held → Prop
  | last : rest = [] → Gives chunk rest sw (chunk ++ [sw.sw1, sw.sw2]) none
  | more (hint : UInt8) : Gives chunk rest sw (chunk ++ [0x61, hint]) (some ⟨rest, sw⟩)

/-- A card that follows ISO 7816-4. A response carries at most 256 data bytes. A wrong Le is
answered `6Cxx` without data, and nothing is done. -/
inductive IsoCard.Step (continuation : ShortApdu) : Device CardAnswer IsoCard
  | wrongLe {s : IsoCard} {apdu : List UInt8} (le : UInt8) :
      Step continuation s apdu (.ok [0x6C, le]) s
  | perform {s : IsoCard} {apdu resp : List UInt8} (chunk rest : List UInt8) {sw : FinalSw}
      {held : Option Held} (hnew : s.held = none ∨ ¬ Fetches continuation apdu)
      (hlen : chunk.length ≤ 256) (hgives : Gives chunk rest sw resp held) :
      Step continuation s apdu (.ok resp)
        ⟨held, s.performed ++ [⟨apdu, chunk ++ rest, sw⟩]⟩
  | fetch {s : IsoCard} {apdu resp : List UInt8} (chunk rest : List UInt8) {sw : FinalSw}
      {held : Option Held} (hheld : s.held = some ⟨chunk ++ rest, sw⟩)
      (hfetch : Fetches continuation apdu) (hlen : chunk.length ≤ 256)
      (hgives : Gives chunk rest sw resp held) :
      Step continuation s apdu (.ok resp) ⟨held, s.performed⟩

/-! ### Exchanges -/

abbrev Exchange : Type := Asked CardAnswer

/-- The data bytes a card returned in one exchange. -/
def Exchange.data (x : Exchange) : List UInt8 :=
  match x.2 with
  | .error _ => []
  | .ok resp => resp.take (resp.length - 2)

/-- The command as the caller gave it, or with another Le. -/
def IsCommand (cmd : ShortApdu) (apdu : List UInt8) : Prop :=
  apdu = cmd.bytes ∨ ∃ le, apdu = (cmd.withLe le).bytes

theorem resend_command {cmd : ShortApdu} {apdu : List UInt8} (h : IsCommand cmd apdu)
    (le : UInt8) : resendWithLe apdu le = (cmd.withLe le).bytes := by
  rcases h with rfl | ⟨le', rfl⟩
  · exact cmd.resendWithLe_bytes le
  · exact (cmd.withLe le').resendWithLe_bytes le

theorem resend_fetch {continuation : ShortApdu} {apdu : List UInt8}
    (h : Fetches continuation apdu) (le : UInt8) :
    resendWithLe apdu le = (continuation.withLe le).bytes :=
  resend_command (.inr h) le

theorem IsCommand.length_le {cmd : ShortApdu} {apdu : List UInt8} (h : IsCommand cmd apdu) :
    apdu.length ≤ cmd.bytes.length + 1 := by
  rcases h with rfl | ⟨le, rfl⟩
  · exact Nat.le_succ _
  · exact cmd.length_bytes_withLe_le le

/-! ### One answer -/

section Loop

variable {io : AppletIo} {continuation cmd : ShortApdu} {before s t : IsoCard}
  {toSend acc : List UInt8} {answer : Except PcscError (List UInt8)}

/-- Where an exchange stands: the command not carried out yet, or carried out once, with
the data so far in front of what the card still holds. -/
inductive Phase (continuation cmd : ShortApdu) (before : IsoCard) :
    List UInt8 → List UInt8 → IsoCard → Prop
  | command {toSend : List UInt8} (hcmd : IsCommand cmd toSend) :
      Phase continuation cmd before toSend [] before
  | continuing {c toSend acc rest : List UInt8} {sw : FinalSw} (hcmd : IsCommand cmd c)
      (hfetch : Fetches continuation toSend) :
      Phase continuation cmd before toSend acc
        ⟨some ⟨rest, sw⟩, before.performed ++ [⟨c, acc ++ rest, sw⟩]⟩

/-- What an answer with data `chunk` and status word `sw1 sw2` leads to. -/
inductive Next (continuation cmd : ShortApdu) (before : IsoCard) (toSend acc : List UInt8) :
    List UInt8 → UInt8 → UInt8 → IsoCard → Prop
  | wrongLe {le : UInt8} {t : IsoCard}
      (hnext : Phase continuation cmd before (resendWithLe toSend le) acc t) :
      Next continuation cmd before toSend acc [] 0x6C le t
  | more {chunk : List UInt8} {hint : UInt8} {t : IsoCard}
      (hnext : Phase continuation cmd before (resendWithLe continuation.bytes hint)
        (acc ++ chunk) t) :
      Next continuation cmd before toSend acc chunk 0x61 hint t
  | last {c chunk : List UInt8} {sw : FinalSw} (hcmd : IsCommand cmd c) :
      Next continuation cmd before toSend acc chunk sw.sw1 sw.sw2
        ⟨none, before.performed ++ [⟨c, acc ++ chunk, sw⟩]⟩

/-- The card gives the next chunk of what it carried out for `c`. -/
theorem next_of_gives (continuation : ShortApdu) (before : IsoCard)
    (toSend acc : List UInt8) {c chunk rest resp : List UInt8} {sw : FinalSw} {held : Option Held}
    (hcmd : IsCommand cmd c) (hgives : Gives chunk rest sw resp held) :
    ∃ sw1 sw2, resp = chunk ++ [sw1, sw2] ∧
      Next continuation cmd before toSend acc chunk sw1 sw2
        ⟨held, before.performed ++ [⟨c, acc ++ (chunk ++ rest), sw⟩]⟩ := by
  rcases hgives with hrest | hint
  · refine ⟨sw.sw1, sw.sw2, rfl, ?_⟩
    rw [hrest, List.append_nil]
    exact .last hcmd
  · refine ⟨0x61, hint, rfl, .more ?_⟩
    rw [← List.append_assoc, continuation.resendWithLe_bytes]
    exact .continuing hcmd ⟨hint, rfl⟩

theorem Phase.step (hbefore : before.held = none ∨
      ∀ apdu, IsCommand cmd apdu → ¬ Fetches continuation apdu)
    (h : Phase continuation cmd before toSend acc s)
    (hstep : IsoCard.Step continuation s toSend answer t) :
    ∃ chunk sw1 sw2, answer = .ok (chunk ++ [sw1, sw2]) ∧ chunk.length ≤ 256 ∧
      Next continuation cmd before toSend acc chunk sw1 sw2 t := by
  cases h with
  | command hcmd =>
      cases hstep with
      | wrongLe le =>
          refine ⟨[], 0x6C, le, rfl, Nat.zero_le _, .wrongLe ?_⟩
          rw [resend_command hcmd]
          exact .command (.inr ⟨le, rfl⟩)
      | perform chunk rest hnew hlen hgives =>
          obtain ⟨sw1, sw2, rfl, hnext⟩ :=
            next_of_gives continuation before toSend [] hcmd hgives
          exact ⟨_, sw1, sw2, rfl, hlen, hnext⟩
      | fetch _ _ hheld hfetch =>
          rcases hbefore with hnone | hnot
          · rw [hnone] at hheld
            cases hheld
          · exact absurd hfetch (hnot _ hcmd)
  | continuing hcmd hfetch =>
      cases hstep with
      | wrongLe le =>
          refine ⟨[], 0x6C, le, rfl, Nat.zero_le _, .wrongLe ?_⟩
          rw [resend_fetch hfetch]
          exact .continuing hcmd ⟨le, rfl⟩
      | perform _ _ hnew =>
          rcases hnew with hnone | hnot
          · cases hnone
          · exact absurd hfetch hnot
      | fetch _ _ hheld _ hlen hgives =>
          obtain ⟨rfl, rfl⟩ := Held.mk.inj (Option.some.inj hheld)
          obtain ⟨sw1, sw2, rfl, hnext⟩ :=
            next_of_gives continuation before toSend acc hcmd hgives
          exact ⟨_, sw1, sw2, rfl, hlen, hnext⟩

/-! ### The whole exchange -/

/-- No data is lost before `log`: what the answers in it gave is `acc`, and once one gave
data only continuation commands were sent. -/
structure Gathered (continuation : ShortApdu) (acc : List UInt8) (log : List Exchange) :
    Prop where
  data : (log.map Exchange.data).flatten = acc
  ordered : log.Pairwise fun x y => x.data ≠ [] → Fetches continuation y.1

theorem Gathered.push {log : List Exchange} (h : Gathered continuation acc log)
    (hphase : Phase continuation cmd before toSend acc s) (chunk : List UInt8)
    (sw1 sw2 : UInt8) :
    Gathered continuation (acc ++ chunk) (log ++ [⟨toSend, .ok (chunk ++ [sw1, sw2])⟩]) := by
  have hchunk : Exchange.data ⟨toSend, .ok (chunk ++ [sw1, sw2])⟩ = chunk := by
    simp [Exchange.data]
  refine ⟨?_, ?_⟩
  · rw [List.map_append, List.flatten_append, h.data]
    simp [hchunk]
  · rw [List.pairwise_append]
    refine ⟨h.ordered, List.pairwise_singleton _ _, ?_⟩
    intro x hx y hy hdata
    rw [List.mem_singleton.mp hy]
    cases hphase with
    | command hcmd =>
        have hnil := List.flatten_eq_nil_iff.mp h.data _ (List.mem_map_of_mem hx)
        exact absurd hnil hdata
    | continuing _ hfetch => exact hfetch

/-- What an exchange with the card ends in: the whole answer of the command, which was
carried out once, or the chunk limit. -/
structure Reassembled (continuation cmd : ShortApdu) (before : IsoCard)
    (result : Except TransportError (List UInt8 × UInt16)) (t : IsoCard)
    (log : List Exchange) : Prop where
  result : (∃ c answer sw, IsCommand cmd c ∧
      t = ⟨none, before.performed ++ [⟨c, answer, sw⟩]⟩ ∧
      (log.map Exchange.data).flatten = answer ∧ result = .ok (answer, sw.value)) ∨
    result = .error CHUNK_LIMIT ∧ log.length = MAX_RESPONSE_CHUNKS + 1
  once : t.performed = before.performed ∨
    ∃ p, IsCommand cmd p.apdu ∧ t.performed = before.performed ++ [p]
  ordered : log.Pairwise fun x y => x.data ≠ [] → Fetches continuation y.1

theorem Phase.once (h : Phase continuation cmd before toSend acc s) :
    s.performed = before.performed ∨
      ∃ p, IsCommand cmd p.apdu ∧ s.performed = before.performed ++ [p] := by
  cases h with
  | command => exact .inl rfl
  | continuing hcmd => exact .inr ⟨_, hcmd, rfl⟩

theorem Next.once {chunk : List UInt8} {sw1 sw2 : UInt8}
    (h : Next continuation cmd before toSend acc chunk sw1 sw2 t) :
    t.performed = before.performed ∨
      ∃ p, IsCommand cmd p.apdu ∧ t.performed = before.performed ++ [p] := by
  cases h with
  | wrongLe hnext => exact hnext.once
  | more hnext => exact hnext.once
  | last hcmd => exact .inr ⟨_, hcmd, rfl⟩

theorem loop_reassembles (hmore : io.moreDataSw = 0x61)
    (hget : io.getResponse = continuation.bytes)
    (hbefore : before.held = none ∨
      ∀ apdu, IsCommand cmd apdu → ¬ Fetches continuation apdu)
    {left : Nat} {log : List Exchange} (hphase : Phase continuation cmd before toSend acc s)
    (hgathered : Gathered continuation acc log) (hleft : log.length + left = MAX_RESPONSE_CHUNKS)
    (hacc : acc.length ≤ 256 * log.length) :
    (transmitLoop io left toSend acc).Always (logged (IsoCard.Step continuation))
      (fun r t => Reassembled continuation cmd before r t.1 t.2) (s, log) := by
  induction left generalizing toSend acc s log with
  | zero =>
      rw [transmitLoop]
      rintro answer ⟨t, log'⟩ ⟨hstep, rfl : log' = _⟩
      obtain ⟨chunk, sw1, sw2, rfl, hlen, hnext⟩ := hphase.step hbefore hstep
      have hfits : (chunk ++ [sw1, sw2]).length ≤ RECV_BUFFER := by
        rw [List.length_append]
        exact Nat.add_le_add_right (Nat.le_trans hlen (by decide)) 2
      simp only [received_of_le hfits, splitSw_append]
      refine ⟨.inr ⟨rfl, ?_⟩, hnext.once, (hgathered.push hphase chunk sw1 sw2).ordered⟩
      rw [List.length_append, ← hleft]
      rfl
  | succ left ih =>
      rw [transmitLoop]
      rintro answer ⟨t, log'⟩ ⟨hstep, rfl : log' = _⟩
      obtain ⟨chunk, sw1, sw2, rfl, hlen, hnext⟩ := hphase.step hbefore hstep
      have hfits : (chunk ++ [sw1, sw2]).length ≤ RECV_BUFFER := by
        rw [List.length_append]
        exact Nat.add_le_add_right (Nat.le_trans hlen (by decide)) 2
      have hpush := hgathered.push hphase chunk sw1 sw2
      have hlog : (log ++ [(⟨toSend, .ok (chunk ++ [sw1, sw2])⟩ : Exchange)]).length + left =
          MAX_RESPONSE_CHUNKS := by
        rw [List.length_append, List.length_singleton, ← hleft]
        omega
      have hacc' : (acc ++ chunk).length ≤
          256 * (log ++ [(⟨toSend, .ok (chunk ++ [sw1, sw2])⟩ : Exchange)]).length := by
        rw [List.length_append, List.length_append, Nat.mul_add]
        exact Nat.add_le_add hacc hlen
      have hcap : ¬ MAX_REASSEMBLED_RESPONSE < (acc ++ chunk).length := by
        have hlimit : 256 * MAX_RESPONSE_CHUNKS = MAX_REASSEMBLED_RESPONSE := by decide
        omega
      simp only [received_of_le hfits, splitSw_append]
      cases hnext with
      | wrongLe hnext =>
          rw [List.append_nil] at hpush hacc' hcap
          have hother : (0x6C : UInt8) ≠ 0x61 := by decide
          simp only [advanceExchange, classifySw, hmore, if_neg hother, if_true]
          rw [if_neg hcap]
          exact ih hnext hpush hlog hacc'
      | more hnext =>
          simp only [advanceExchange, classifySw, hmore, if_true, hget]
          rw [if_neg hcap]
          exact ih hnext hpush hlog hacc'
      | last hcmd =>
          rename_i c sw
          simp only [advanceExchange, classifySw, hmore, if_neg sw.final.1, if_neg sw.final.2]
          exact ⟨.inl ⟨c, _, sw, hcmd, rfl, hpush.data, rfl⟩, .inr ⟨_, hcmd, rfl⟩,
            hpush.ordered⟩

/-! ### Any card -/

/-- What holds whatever the card answers: the loop ends by its chunk limit, and every APDU it
sends is the command or the continuation command, at most one byte longer. -/
structure Bounded (continuation cmd : ShortApdu)
    (result : Except TransportError (List UInt8 × UInt16)) (log : List Exchange) : Prop where
  length : log.length ≤ MAX_RESPONSE_CHUNKS + 1
  answered : ∀ v, result = .ok v → log.length ≤ MAX_RESPONSE_CHUNKS
  sent : ∀ x ∈ log, (IsCommand cmd x.1 ∧ x.1.length ≤ cmd.bytes.length + 1) ∨
    (Fetches continuation x.1 ∧ x.1.length ≤ continuation.bytes.length + 1)

/-- An APDU of the exchange. -/
def InExchange (continuation cmd : ShortApdu) (apdu : List UInt8) : Prop :=
  IsCommand cmd apdu ∨ Fetches continuation apdu

theorem InExchange.sent {apdu : List UInt8} (h : InExchange continuation cmd apdu) :
    (IsCommand cmd apdu ∧ apdu.length ≤ cmd.bytes.length + 1) ∨
      (Fetches continuation apdu ∧ apdu.length ≤ continuation.bytes.length + 1) := by
  rcases h with hcmd | hfetch
  · exact .inl ⟨hcmd, hcmd.length_le⟩
  · exact .inr ⟨hfetch, IsCommand.length_le (.inr hfetch)⟩

/-- What the loop sends next belongs to the exchange. -/
theorem advance_inExchange (hget : io.getResponse = continuation.bytes)
    (h : InExchange continuation cmd toSend) {data next : List UInt8} {sw1 sw2 : UInt8}
    {acc' : List UInt8}
    (hadvance : advanceExchange io.moreDataSw io.getResponse toSend data sw1 sw2 acc =
      (.send next, acc')) : InExchange continuation cmd next := by
  unfold advanceExchange at hadvance
  split at hadvance
  · obtain ⟨hsend, -⟩ := Prod.mk.inj hadvance
    obtain rfl := Continuation.send.inj hsend
    rw [hget, continuation.resendWithLe_bytes]
    exact .inr ⟨_, rfl⟩
  · obtain ⟨hsend, -⟩ := Prod.mk.inj hadvance
    obtain rfl := Continuation.send.inj hsend
    rcases h with hcmd | hfetch
    · rw [resend_command hcmd]
      exact .inl (.inr ⟨_, rfl⟩)
    · rw [resend_fetch hfetch]
      exact .inr ⟨_, rfl⟩
  · cases hadvance

theorem forall_mem_push {P : List UInt8 → Prop} {log : List Exchange}
    (h : ∀ y ∈ log, P y.1) (x : Exchange) (hx : P x.1) : ∀ y ∈ log ++ [x], P y.1 := by
  intro y hy
  rcases List.mem_append.mp hy with hy | hy
  · exact h y hy
  · rw [List.mem_singleton.mp hy]
    exact hx

theorem bounded_error {log : List Exchange} {e : TransportError}
    (hlength : log.length ≤ MAX_RESPONSE_CHUNKS + 1)
    (hlog : ∀ x ∈ log, InExchange continuation cmd x.1) :
    Bounded continuation cmd (.error e) log :=
  ⟨hlength, fun _ hv => (nomatch hv), fun x hx => (hlog x hx).sent⟩

theorem loop_bounded {σ : Type} {D : Device CardAnswer σ} {d : σ}
    (hget : io.getResponse = continuation.bytes) {left : Nat} {log : List Exchange}
    (hsend : InExchange continuation cmd toSend) (hlog : ∀ x ∈ log, InExchange continuation cmd x.1)
    (hleft : log.length + left = MAX_RESPONSE_CHUNKS) :
    (transmitLoop io left toSend acc).Always (logged D)
      (fun r t => Bounded continuation cmd r t.2) (d, log) := by
  induction left generalizing toSend acc d log with
  | zero =>
      rw [transmitLoop]
      rintro answer ⟨t, log'⟩ ⟨-, rfl : log' = _⟩
      have hlog' := forall_mem_push hlog ⟨toSend, answer⟩ hsend
      have hlength : (log ++ [(⟨toSend, answer⟩ : Exchange)]).length ≤ MAX_RESPONSE_CHUNKS + 1 := by
        rw [List.length_append, ← hleft]
        exact Nat.le_refl _
      rcases hanswer : received answer with e | resp
      · simp only [hanswer]
        exact bounded_error hlength hlog'
      · rcases hsplit : splitSw resp with _ | ⟨data, sw1, sw2⟩
        · simp only [hanswer, hsplit]
          exact bounded_error hlength hlog'
        · simp only [hanswer, hsplit]
          exact bounded_error hlength hlog'
  | succ left ih =>
      rw [transmitLoop]
      rintro answer ⟨t, log'⟩ ⟨-, rfl : log' = _⟩
      have hlog' := forall_mem_push hlog ⟨toSend, answer⟩ hsend
      have hleft' : (log ++ [(⟨toSend, answer⟩ : Exchange)]).length + left =
          MAX_RESPONSE_CHUNKS := by
        rw [List.length_append, List.length_singleton, ← hleft]
        omega
      have hlength : (log ++ [(⟨toSend, answer⟩ : Exchange)]).length ≤ MAX_RESPONSE_CHUNKS + 1 := by
        omega
      rcases hanswer : received answer with e | resp
      · simp only [hanswer]
        exact bounded_error hlength hlog'
      · rcases hsplit : splitSw resp with _ | ⟨data, sw1, sw2⟩
        · simp only [hanswer, hsplit]
          exact bounded_error hlength hlog'
        · rcases hadvance : advanceExchange io.moreDataSw io.getResponse toSend data sw1 sw2 acc
            with ⟨_ | next, acc'⟩
          · simp only [hanswer, hsplit, hadvance]
            exact ⟨hlength, fun _ _ => Nat.le.intro hleft', fun x hx => (hlog' x hx).sent⟩
          · simp only [hanswer, hsplit, hadvance]
            split
            · exact bounded_error hlength hlog'
            · exact ih (advance_inExchange hget hsend hadvance) hlog' hleft'

end Loop

/-! ### Results -/

/-- **Applet exchanges reassemble exactly.** Against a card that follows ISO 7816-4 the
exchange gives the whole answer and the final status word of the command, which the card
carried out once, unless the card is still not done after `MAX_RESPONSE_CHUNKS` answers; and
against any card it ends by that limit. -/
theorem transmitApplet_reassembles (applet : Applet) (cmd : ShortApdu) (before : IsoCard)
    (hbefore : before.held = none ∨
      ∀ apdu, IsCommand cmd apdu → ¬ Fetches applet.continuation apdu) :
    (transmitApplet applet.io cmd.bytes).Always (logged (IsoCard.Step applet.continuation))
        (fun r t => Reassembled applet.continuation cmd before r t.1 t.2) (before, []) ∧
      ∀ {σ : Type} (D : Device CardAnswer σ) (d : σ),
        (transmitApplet applet.io cmd.bytes).Always (logged D)
          (fun r t => Bounded applet.continuation cmd r t.2) (d, []) := by
  constructor
  · exact loop_reassembles applet.moreDataSw_eq applet.getResponse_eq hbefore
      (.command (.inl rfl)) ⟨rfl, .nil⟩ (Nat.zero_add _) (Nat.le_refl _)
  · intro σ D d
    exact loop_bounded applet.getResponse_eq (.inl (.inl rfl)) (fun _ hx => nomatch hx)
      (Nat.zero_add _)

/-- PIV GENERATE ASYMMETRIC KEY PAIR, a case-3 command, with a card that holds nothing. -/
theorem transmitApplet_reassembles_generate :
    (transmitApplet Applet.piv.io
        (⟨0x00, 0x47, 0x00, 0x9A, [0xAC, 0x03, 0x80, 0x01, 0x07], none, by decide⟩ :
          ShortApdu).bytes).Always (logged (IsoCard.Step Applet.piv.continuation))
        (fun r t => Reassembled Applet.piv.continuation
          ⟨0x00, 0x47, 0x00, 0x9A, [0xAC, 0x03, 0x80, 0x01, 0x07], none, by decide⟩
          ⟨none, []⟩ r t.1 t.2) (⟨none, []⟩, []) :=
  (transmitApplet_reassembles .piv
    ⟨0x00, 0x47, 0x00, 0x9A, [0xAC, 0x03, 0x80, 0x01, 0x07], none, by decide⟩ ⟨none, []⟩
    (.inl rfl)).1

/-! ### A card that drips -/

def GET_VERSION : ShortApdu := ⟨0x00, 0xFD, 0x00, 0x00, [], some 0x00, Nat.zero_le _⟩

def SUCCESS : FinalSw := ⟨0x90, 0x00, by decide⟩

section Drip

variable {io : AppletIo} {continuation : ShortApdu} {toSend acc : List UInt8} {left : Nat}
  {Post : Except TransportError (List UInt8 × UInt16) → IsoCard → Prop}

theorem always_drip (hmore : io.moreDataSw = 0x61) (hget : io.getResponse = continuation.bytes)
    {s t : IsoCard} (hacc : acc.length < MAX_REASSEMBLED_RESPONSE)
    (h : (transmitLoop io (left + 1) toSend acc).Always (IsoCard.Step continuation) Post s)
    (hstep : IsoCard.Step continuation s toSend (.ok [0x00, 0x61, 0x01]) t) :
    (transmitLoop io left (continuation.withLe 0x01).bytes (acc ++ [0x00])).Always
      (IsoCard.Step continuation) Post t := by
  have hcap : ¬ MAX_REASSEMBLED_RESPONSE < (acc ++ [(0x00 : UInt8)]).length := by
    rw [List.length_append]
    exact Nat.not_lt.mpr hacc
  have hfits : received (.ok [0x00, 0x61, 0x01]) = .ok [0x00, 0x61, 0x01] := rfl
  have hsplit : splitSw [0x00, 0x61, 0x01] = some ([0x00], 0x61, 0x01) := rfl
  rw [transmitLoop] at h
  have h' := h _ _ hstep
  simp only [hfits, hsplit, advanceExchange, classifySw, hmore, if_true, if_neg hcap, hget,
    continuation.resendWithLe_bytes] at h'
  exact h'

/-- One byte at a time, the loop comes to its limit before the card is done. -/
theorem loop_drips (hmore : io.moreDataSw = 0x61) (hget : io.getResponse = continuation.bytes)
    {performed : List Performed} (hfetch : Fetches continuation toSend)
    (hacc : acc.length + left ≤ MAX_REASSEMBLED_RESPONSE)
    (h : (transmitLoop io left toSend acc).Always (IsoCard.Step continuation) Post
      ⟨some ⟨List.replicate (left + 1) 0, SUCCESS⟩, performed⟩) :
    ∃ t, Post (.error CHUNK_LIMIT) t := by
  have hstep : IsoCard.Step continuation
      ⟨some ⟨List.replicate (left + 1) 0, SUCCESS⟩, performed⟩ toSend
      (.ok [0x00, 0x61, 0x01])
      ⟨some ⟨List.replicate (left) 0, SUCCESS⟩, performed⟩ :=
    .fetch [0x00] _ rfl hfetch (by decide) (.more 0x01)
  induction left generalizing toSend acc with
  | zero =>
      rw [transmitLoop] at h
      exact ⟨_, h _ _ hstep⟩
  | succ left ih =>
      have h' := always_drip hmore hget (by omega) h hstep
      refine ih ⟨0x01, rfl⟩ ?_ h' (.fetch [0x00] _ rfl ⟨0x01, rfl⟩ (by decide) (.more 0x01))
      rw [List.length_append, List.length_singleton]
      omega

end Drip

/-- A card that gives its answer of 4097 bytes one byte at a time follows ISO 7816-4, and the
exchange with it is given up. -/
theorem dripping_card_is_given_up :
    ¬ ∀ (applet : Applet) (cmd : ShortApdu) (before : IsoCard), before.held = none →
      (transmitApplet applet.io cmd.bytes).Always (IsoCard.Step applet.continuation)
        (fun r t => ∃ c answer sw, IsCommand cmd c ∧
          t = ⟨none, before.performed ++ [⟨c, answer, sw⟩]⟩ ∧ r = .ok (answer, sw.value))
        before := by
  intro hclaim
  have h := hclaim .piv GET_VERSION ⟨none, []⟩ rfl
  have hgives : Gives [0x00] (List.replicate (4095 + 1) 0) SUCCESS [0x00, 0x61, 0x01] _ :=
    .more 0x01
  have h' := always_drip Applet.piv.moreDataSw_eq Applet.piv.getResponse_eq (by decide) h
    (.perform _ _ (.inl rfl) (by decide) hgives)
  have hlimit : ([] ++ [(0x00 : UInt8)]).length + 4095 ≤ MAX_REASSEMBLED_RESPONSE := by decide
  obtain ⟨t, c, answer, sw, -, -, hok⟩ :=
    loop_drips Applet.piv.moreDataSw_eq Applet.piv.getResponse_eq ⟨0x01, rfl⟩ hlimit h'
  cases hok

end Keyroost.Transport
