import Keyroost.Token2Otp.RawTransmit
import Keyroost.Transport.IsoCard

/-!
# The two exchange loops

The OTP loop (`RawTransmit`) and the applet loop (`AppletIo`) are given the same answers. They send
the same APDUs and return the same, as long as the card asks for no other Le of a GET RESPONSE:
there the OTP loop starts the command over.

Each loop is run over a list of answers, and the two are compared from any point in the middle, with
what each has gathered so far (`rawFrom`, `appletFrom`). `reading_agrees` and `command_agrees` go
through the answers one by one; `reading_parts` and `command_parts` show that the loops do part
where such an answer comes, so `rawRun_agrees_iff` is an equivalence.
-/

namespace Keyroost.Token2Otp

open Dialogue Proto Transport

/-! ### Answers -/

inductive Response where
  | short
  | more (data : List UInt8) (hint : UInt8)
  | wrongLe (le : UInt8)
  | last (data : List UInt8) (sw1 sw2 : UInt8)
deriving DecidableEq, Repr

def response (resp : List UInt8) : Response :=
  match splitSw resp with
  | none => .short
  | some (data, sw1, sw2) =>
      if sw1 = 0x61 then .more data sw2
      else if sw1 = 0x6C then .wrongLe sw2
      else .last data sw1 sw2

theorem splitSw_short {resp : List UInt8} (h : response resp = .short) : splitSw resp = none := by
  rw [response] at h
  split at h
  · assumption
  · repeat' split at h
    all_goals cases h

theorem splitSw_more {resp data : List UInt8} {hint : UInt8}
    (h : response resp = .more data hint) : splitSw resp = some (data, 0x61, hint) := by
  rw [response] at h
  split at h
  · cases h
  · next hsplit =>
      repeat' split at h
      all_goals cases h
      · next hsw => rw [hsplit, hsw]

theorem splitSw_wrongLe {resp : List UInt8} {le : UInt8} (h : response resp = .wrongLe le) :
    ∃ data, splitSw resp = some (data, 0x6C, le) := by
  rw [response] at h
  split at h
  · cases h
  · next hsplit =>
      repeat' split at h
      all_goals cases h
      · next hsw => exact ⟨_, by rw [hsplit, hsw]⟩

theorem splitSw_last {resp data : List UInt8} {sw1 sw2 : UInt8}
    (h : response resp = .last data sw1 sw2) :
    splitSw resp = some (data, sw1, sw2) ∧ sw1 ≠ 0x61 ∧ sw1 ≠ 0x6C := by
  rw [response] at h
  split at h
  · cases h
  · next hsplit =>
      repeat' split at h
      all_goals cases h
      · next hmore hle => exact ⟨hsplit, hmore, hle⟩

/-! ### The answers that part the loops -/

/-- Another Le is asked for once a part of the answer was given. -/
def wrongLeMidRead : Bool → List Response → Bool
  | _, .more _ _ :: rest => wrongLeMidRead true rest
  | reading, .wrongLe _ :: rest => reading || wrongLeMidRead reading rest
  | _, _ => false

/-- Data was given, then another Le was asked for, and then the answer ended. -/
def losesData (lost acc : List UInt8) : List Response → Bool
  | .more data _ :: rest => losesData lost (acc ++ data) rest
  | .wrongLe _ :: rest => losesData (lost ++ acc) [] rest
  | .last _ _ _ :: _ => decide (lost ≠ [])
  | _ => false

/-- The command is a GET RESPONSE of its own. -/
def IsGetResponse (cmd : ShortApdu) : Prop := ∀ le, (cmd.withLe le).bytes = getResponse le

/-- The card asks for no other Le of a GET RESPONSE, or the command is one itself and nothing
was read when it does. -/
def Undisturbed (cmd : ShortApdu) (answers : List (List UInt8)) : Prop :=
  wrongLeMidRead false (answers.map response) = false ∨
    IsGetResponse cmd ∧ losesData [] [] (answers.map response) = false

/-! ### What the loops should agree on -/

def linkAnswer : (q : LinkCommand) → List UInt8 → LinkAnswer q
  | .transmit _, resp => .ok resp
  | .select _, resp => .ok resp
  | .reconnect, _ => .ok ()

def cardAnswer (apdu resp : List UInt8) : CardAnswer apdu := .ok resp

abbrev RawRun : Type := List LinkCommand × Option RawAnswer

abbrev AppletRun : Type :=
  List (List UInt8) × Option (Except TransportError (List UInt8 × UInt16))

/-- An applet whose answers are continued with GET RESPONSE. -/
def appletIo (label : String) : AppletIo := ⟨label, 0x61, buildApduGet 0x00 0xC0 0x00 0x00 0x00⟩

def rawRun (currentAid : List UInt8) (cmd : ShortApdu) (answers : List (List UInt8)) : RawRun :=
  (rawTransmit currentAid cmd.bytes).scripted linkAnswer answers

def appletRun (label : String) (cmd : ShortApdu) (answers : List (List UInt8)) : AppletRun :=
  (transmitApplet (appletIo label) cmd.bytes).scripted cardAnswer answers

/-- Neither loop is given up. Their limits differ, and so would their results beyond them. -/
structure WithinLimits (raw : Option RawAnswer)
    (applet : Option (Except TransportError (List UInt8 × UInt16))) : Prop where
  reassembly : raw ≠ some (.error REASSEMBLY_LIMIT)
  wrongLe : raw ≠ some (.error WRONG_LE_LIMIT)
  chunks : applet ≠ some (.error CHUNK_LIMIT)
  size : applet ≠ some (.error Transport.REASSEMBLY_LIMIT)

inductive SameResult :
    Option RawAnswer → Option (Except TransportError (List UInt8 × UInt16)) → Prop
  | waiting : SameResult none none
  | answered (v : List UInt8 × UInt16) : SameResult (some (.ok v)) (some (.ok v))
  | short (label : String) (got min : Nat) :
      SameResult (some (.error .emptyResponse)) (some (.error (.shortResponse label got min)))

theorem SameResult.ok_inj {v w : List UInt8 × UInt16}
    (h : SameResult (some (.ok v)) (some (.ok w))) : v = w := by
  cases h
  rfl

/-- The command is sent again only when it was itself answered with another Le. -/
def SentAgain (cmd : ShortApdu) (sent : List LinkCommand) (answers : List (List UInt8)) : Prop :=
  ∀ i d, sent[i + 1]? = some (.transmit d) → IsCommand cmd d →
    ∃ c resp le, sent[i]? = some (.transmit c) ∧ IsCommand cmd c ∧ answers[i]? = some resp ∧
      response resp = .wrongLe le

structure Agrees (cmd : ShortApdu) (answers : List (List UInt8)) (raw : RawRun)
    (applet : AppletRun) : Prop where
  sent : raw.1 = applet.1.map .transmit
  result : SameResult raw.2 applet.2
  again : ¬ IsGetResponse cmd → SentAgain cmd raw.1 answers

/-! ### One answer -/

section Answers

variable {currentAid apdu acc toSend resp data : List UInt8} {retriesLeft leLeft left : Nat}
  {answers : List (List UInt8)} {label : String} {hint le sw1 sw2 : UInt8}

def rawFrom (currentAid apdu : List UInt8) (leLeft left : Nat) (acc toSend : List UInt8)
    (answers : List (List UInt8)) : RawRun :=
  (rawLoop currentAid apdu MAX_RETRIES leLeft left acc toSend).scripted linkAnswer answers

def appletFrom (label : String) (left : Nat) (acc toSend : List UInt8)
    (answers : List (List UInt8)) : AppletRun :=
  (transmitLoop (appletIo label) left toSend acc).scripted cardAnswer answers

theorem rawFrom_nil :
    rawFrom currentAid apdu leLeft left acc toSend [] = ([.transmit toSend], none) := by
  rw [rawFrom, rawLoop]
  rfl

theorem appletFrom_nil : appletFrom label left acc toSend [] = ([toSend], none) := by
  rw [appletFrom, transmitLoop]
  rfl

theorem rawFrom_short (hfits : resp.length ≤ RECV_BUFFER) (h : response resp = .short) :
    rawFrom currentAid apdu leLeft left acc toSend (resp :: answers) =
      ([.transmit toSend], some (.error .emptyResponse)) := by
  rw [rawFrom, rawLoop]
  simp only [scripted, linkAnswer, received_of_le hfits, splitSw_short h]
  rfl

theorem rawFrom_more (hfits : resp.length ≤ RECV_BUFFER) (h : response resp = .more data hint)
    (hlimit : (rawFrom currentAid apdu leLeft left acc toSend (resp :: answers)).2 ≠
      some (.error REASSEMBLY_LIMIT)) :
    ∃ left', rawFrom currentAid apdu leLeft left acc toSend (resp :: answers) =
      Prod.map (List.cons (.transmit toSend)) id
        (rawFrom currentAid apdu leLeft left' (acc ++ data) (getResponse hint) answers) := by
  rw [rawFrom, rawLoop] at hlimit ⊢
  simp only [scripted, linkAnswer, received_of_le hfits, splitSw_more h] at hlimit ⊢
  cases left with
  | zero => exact absurd rfl hlimit
  | succ left =>
      by_cases hsize : MAX_DATA < (acc ++ data).length
      · simp only [if_pos hsize] at hlimit
        exact absurd rfl hlimit
      · simp only [if_neg hsize, if_true]
        exact ⟨left, rfl⟩

theorem rawFrom_wrongLe (hfits : resp.length ≤ RECV_BUFFER) (h : response resp = .wrongLe le)
    (hlimit : (rawFrom currentAid apdu leLeft left acc toSend (resp :: answers)).2 ≠
      some (.error REASSEMBLY_LIMIT))
    (hretry : (rawFrom currentAid apdu leLeft left acc toSend (resp :: answers)).2 ≠
      some (.error WRONG_LE_LIMIT)) :
    ∃ leLeft', rawFrom currentAid apdu leLeft left acc toSend (resp :: answers) =
      Prod.map (List.cons (.transmit toSend)) id
        (rawFrom currentAid apdu leLeft' MAX_CHUNKS [] (resendWithLe apdu le) answers) := by
  obtain ⟨data, hsplit⟩ := splitSw_wrongLe h
  have hother : (0x6C : UInt8) ≠ 0x61 := by decide
  rw [rawFrom, rawLoop] at hlimit hretry ⊢
  simp only [scripted, linkAnswer, received_of_le hfits, hsplit] at hlimit hretry ⊢
  cases left with
  | zero => exact absurd rfl hlimit
  | succ left =>
      by_cases hsize : MAX_DATA < (acc ++ data).length
      · simp only [if_pos hsize] at hlimit
        exact absurd rfl hlimit
      · simp only [if_neg hsize, if_neg hother, if_true] at hretry ⊢
        cases leLeft with
        | zero => exact absurd rfl hretry
        | succ leLeft => exact ⟨leLeft, rfl⟩

theorem rawFrom_last (hfits : resp.length ≤ RECV_BUFFER)
    (h : response resp = .last data sw1 sw2)
    (hlimit : (rawFrom currentAid apdu leLeft left acc toSend (resp :: answers)).2 ≠
      some (.error REASSEMBLY_LIMIT)) :
    rawFrom currentAid apdu leLeft left acc toSend (resp :: answers) =
      ([.transmit toSend], some (.ok (acc ++ data, swOf sw1 sw2))) := by
  obtain ⟨hsplit, hmore, hle⟩ := splitSw_last h
  rw [rawFrom, rawLoop] at hlimit ⊢
  simp only [scripted, linkAnswer, received_of_le hfits, hsplit] at hlimit ⊢
  cases left with
  | zero => exact absurd rfl hlimit
  | succ left =>
      by_cases hsize : MAX_DATA < (acc ++ data).length
      · simp only [if_pos hsize] at hlimit
        exact absurd rfl hlimit
      · simp only [if_neg hsize, if_neg hmore, if_neg hle]
        rfl

theorem appletFrom_short (hfits : resp.length ≤ RECV_BUFFER) (h : response resp = .short) :
    appletFrom label left acc toSend (resp :: answers) =
      ([toSend], some (.error (.shortResponse label resp.length 2))) := by
  rw [appletFrom, transmitLoop]
  simp only [scripted, cardAnswer, received_of_le hfits, splitSw_short h]
  rfl

theorem appletFrom_more (hfits : resp.length ≤ RECV_BUFFER) (h : response resp = .more data hint)
    (hchunks : (appletFrom label left acc toSend (resp :: answers)).2 ≠ some (.error CHUNK_LIMIT))
    (hsize : (appletFrom label left acc toSend (resp :: answers)).2 ≠
      some (.error Transport.REASSEMBLY_LIMIT)) :
    ∃ left', appletFrom label left acc toSend (resp :: answers) =
      Prod.map (List.cons toSend) id
        (appletFrom label left' (acc ++ data) (getResponse hint) answers) := by
  rw [appletFrom, transmitLoop] at hchunks hsize ⊢
  simp only [scripted, cardAnswer, received_of_le hfits, splitSw_more h] at hchunks hsize ⊢
  cases left with
  | zero => exact absurd rfl hchunks
  | succ left =>
      simp only [appletIo, advanceExchange, classifySw, if_true] at hsize ⊢
      by_cases hcap : MAX_REASSEMBLED_RESPONSE < (acc ++ data).length
      · simp only [if_pos hcap] at hsize
        exact absurd rfl hsize
      · simp only [if_neg hcap]
        exact ⟨left, rfl⟩

theorem appletFrom_wrongLe (hfits : resp.length ≤ RECV_BUFFER) (h : response resp = .wrongLe le)
    (hchunks : (appletFrom label left acc toSend (resp :: answers)).2 ≠ some (.error CHUNK_LIMIT))
    (hsize : (appletFrom label left acc toSend (resp :: answers)).2 ≠
      some (.error Transport.REASSEMBLY_LIMIT)) :
    ∃ left', appletFrom label left acc toSend (resp :: answers) =
      Prod.map (List.cons toSend) id
        (appletFrom label left' acc (resendWithLe toSend le) answers) := by
  obtain ⟨data, hsplit⟩ := splitSw_wrongLe h
  have hother : (0x6C : UInt8) ≠ 0x61 := by decide
  rw [appletFrom, transmitLoop] at hchunks hsize ⊢
  simp only [scripted, cardAnswer, received_of_le hfits, hsplit] at hchunks hsize ⊢
  cases left with
  | zero => exact absurd rfl hchunks
  | succ left =>
      simp only [appletIo, advanceExchange, classifySw, if_neg hother, if_true] at hsize ⊢
      by_cases hcap : MAX_REASSEMBLED_RESPONSE < acc.length
      · simp only [if_pos hcap] at hsize
        exact absurd rfl hsize
      · simp only [if_neg hcap]
        exact ⟨left, rfl⟩

theorem appletFrom_last (hfits : resp.length ≤ RECV_BUFFER)
    (h : response resp = .last data sw1 sw2)
    (hchunks : (appletFrom label left acc toSend (resp :: answers)).2 ≠
      some (.error CHUNK_LIMIT)) :
    appletFrom label left acc toSend (resp :: answers) =
      ([toSend], some (.ok (acc ++ data, swOf sw1 sw2))) := by
  obtain ⟨hsplit, hmore, hle⟩ := splitSw_last h
  rw [appletFrom, transmitLoop] at hchunks ⊢
  simp only [scripted, cardAnswer, received_of_le hfits, hsplit] at hchunks ⊢
  cases left with
  | zero => exact absurd rfl hchunks
  | succ left =>
      simp only [appletIo, advanceExchange, classifySw, if_neg hmore, if_neg hle]
      rfl

/-- Both loops begin with what they were to send. -/
theorem rawFrom_head : (rawFrom currentAid apdu leLeft left acc toSend answers).1[0]? =
    some (.transmit toSend) := by
  rw [rawFrom, rawLoop]
  cases answers <;> rfl

theorem appletFrom_head :
    (appletFrom label left acc toSend answers).1[0]? = some toSend := by
  rw [appletFrom, transmitLoop]
  cases answers <;> rfl

end Answers

/-! ### The loops side by side -/

section Agreement

variable {currentAid acc toSend : List UInt8} {leLeft left left' : Nat} {cmd : ShortApdu}
  {resp : List UInt8} {answers : List (List UInt8)} {label : String}
  {raw : RawRun} {applet : AppletRun}

theorem SentAgain.nil {c : LinkCommand} : SentAgain cmd [c] answers := by
  intro i d h
  rw [List.getElem?_cons_succ, List.getElem?_nil] at h
  cases h

/-- The rule for one more command in front. -/
theorem SentAgain.cons {sent : List LinkCommand} (h : SentAgain cmd sent answers)
    (hhead : ∀ d, sent[0]? = some (.transmit d) → IsCommand cmd d →
      IsCommand cmd toSend ∧ ∃ le, response resp = .wrongLe le) :
    SentAgain cmd (.transmit toSend :: sent) (resp :: answers) := by
  intro i d hd hcmd
  cases i with
  | zero =>
      obtain ⟨hc, le, hle⟩ := hhead d hd hcmd
      exact ⟨toSend, resp, le, rfl, hc, rfl, hle⟩
  | succ i => exact h i d hd hcmd

theorem Agrees.stop {raw' : RawAnswer} {applet' : Except TransportError (List UInt8 × UInt16)}
    (h : SameResult (some raw') (some applet')) :
    Agrees cmd answers ([.transmit toSend], some raw') ([toSend], some applet') :=
  ⟨rfl, h, fun _ => .nil⟩

theorem Agrees.cons (h : Agrees cmd answers raw applet)
    (hhead : ¬ IsGetResponse cmd → ∀ d, raw.1[0]? = some (.transmit d) → IsCommand cmd d →
      IsCommand cmd toSend ∧ ∃ le, response resp = .wrongLe le) :
    Agrees cmd (resp :: answers) (Prod.map (List.cons (.transmit toSend)) id raw)
      (Prod.map (List.cons toSend) id applet) := by
  refine ⟨?_, h.result, fun hcmd => (h.again hcmd).cons (hhead hcmd)⟩
  show LinkCommand.transmit toSend :: raw.1 = (toSend :: applet.1).map _
  rw [h.sent, List.map_cons]

theorem isGetResponse_of_bytes {le : UInt8} (h : cmd.bytes = getResponse le) :
    IsGetResponse cmd := by
  intro le'
  obtain ⟨cla, ins, p1, p2, data, old, hdata⟩ := cmd
  cases data with
  | nil =>
      cases old with
      | none => cases h
      | some old =>
          cases h
          rfl
  | cons d data =>
      have hlen := congrArg List.length h
      simp only [ShortApdu.bytes, ShortApdu.lcData, getResponse, if_neg (List.cons_ne_nil _ _),
        List.length_append, List.length_cons, List.length_nil] at hlen
      omega

theorem isGetResponse_of_isCommand {le : UInt8} (h : IsCommand cmd (getResponse le)) :
    IsGetResponse cmd := by
  rcases h with h | ⟨le', h⟩
  · exact isGetResponse_of_bytes h.symm
  · exact @isGetResponse_of_bytes (cmd.withLe le') _ h.symm

theorem resendWithLe_getResponse (le le' : UInt8) :
    resendWithLe (getResponse le) le' = getResponse le' := rfl

/-- The reads after the first part of an answer. -/
theorem reading_agrees {le : UInt8} (hfits : ∀ resp ∈ answers, resp.length ≤ RECV_BUFFER)
    (hlimits : WithinLimits (rawFrom currentAid cmd.bytes leLeft left acc (getResponse le) answers).2
      (appletFrom label left' acc (getResponse le) answers).2)
    (hmid : wrongLeMidRead true (answers.map response) = false) :
    Agrees cmd answers (rawFrom currentAid cmd.bytes leLeft left acc (getResponse le) answers)
      (appletFrom label left' acc (getResponse le) answers) := by
  induction answers generalizing acc leLeft left left' le with
  | nil =>
      rw [rawFrom_nil, appletFrom_nil]
      exact ⟨rfl, .waiting, fun _ => .nil⟩
  | cons resp answers ih =>
      have hresp := hfits resp List.mem_cons_self
      have hrest := fun r hr => hfits r (List.mem_cons_of_mem _ hr)
      rw [List.map_cons] at hmid
      cases hkind : response resp with
      | short =>
          rw [rawFrom_short hresp hkind, appletFrom_short hresp hkind]
          exact .stop (.short _ _ _)
      | more data hint =>
          obtain ⟨_, hraw⟩ := rawFrom_more hresp hkind hlimits.reassembly
          obtain ⟨_, happlet⟩ := appletFrom_more hresp hkind hlimits.chunks hlimits.size
          rw [hraw, happlet] at hlimits ⊢
          rw [hkind] at hmid
          refine (ih hrest hlimits hmid).cons fun hcmd d hd hsent => ?_
          rw [rawFrom_head] at hd
          cases hd
          exact absurd (isGetResponse_of_isCommand hsent) hcmd
      | wrongLe le =>
          rw [hkind] at hmid
          cases hmid
      | last data sw1 sw2 =>
          rw [rawFrom_last hresp hkind hlimits.reassembly,
            appletFrom_last hresp hkind hlimits.chunks]
          exact .stop (.answered _)

/-- The command, with its own Le or the one the card asked for. -/
theorem command_agrees (hfits : ∀ resp ∈ answers, resp.length ≤ RECV_BUFFER)
    (hsend : IsCommand cmd toSend)
    (hlimits : WithinLimits (rawFrom currentAid cmd.bytes leLeft left [] toSend answers).2
      (appletFrom label left' [] toSend answers).2)
    (hmid : wrongLeMidRead false (answers.map response) = false) :
    Agrees cmd answers (rawFrom currentAid cmd.bytes leLeft left [] toSend answers)
      (appletFrom label left' [] toSend answers) := by
  induction answers generalizing leLeft left left' toSend with
  | nil =>
      rw [rawFrom_nil, appletFrom_nil]
      exact ⟨rfl, .waiting, fun _ => .nil⟩
  | cons resp answers ih =>
      have hresp := hfits resp List.mem_cons_self
      have hrest := fun r hr => hfits r (List.mem_cons_of_mem _ hr)
      rw [List.map_cons] at hmid
      cases hkind : response resp with
      | short =>
          rw [rawFrom_short hresp hkind, appletFrom_short hresp hkind]
          exact .stop (.short _ _ _)
      | more data hint =>
          obtain ⟨_, hraw⟩ := rawFrom_more hresp hkind hlimits.reassembly
          obtain ⟨_, happlet⟩ := appletFrom_more hresp hkind hlimits.chunks hlimits.size
          rw [hraw, happlet] at hlimits ⊢
          rw [hkind] at hmid
          refine (reading_agrees hrest hlimits hmid).cons fun hcmd d hd hsent => ?_
          rw [rawFrom_head] at hd
          cases hd
          exact absurd (isGetResponse_of_isCommand hsent) hcmd
      | wrongLe le =>
          obtain ⟨_, hraw⟩ := rawFrom_wrongLe hresp hkind hlimits.reassembly hlimits.wrongLe
          obtain ⟨_, happlet⟩ := appletFrom_wrongLe hresp hkind hlimits.chunks hlimits.size
          rw [resend_command hsend] at happlet
          rw [cmd.resendWithLe_bytes] at hraw
          rw [hraw, happlet] at hlimits ⊢
          rw [hkind] at hmid
          exact (ih hrest (.inr ⟨le, rfl⟩) hlimits hmid).cons fun _ _ _ _ => ⟨hsend, le, hkind⟩
      | last data sw1 sw2 =>
          rw [rawFrom_last hresp hkind hlimits.reassembly,
            appletFrom_last hresp hkind hlimits.chunks]
          exact .stop (.answered _)

/-! ### Where they part -/

theorem map_cons_inj {raw : RawRun} {applet : AppletRun}
    (h : (Prod.map (List.cons (LinkCommand.transmit toSend)) id raw).1 =
      (Prod.map (List.cons toSend) id applet).1.map .transmit) :
    raw.1 = applet.1.map .transmit :=
  (List.cons.inj h).2

theorem reading_parts {le : UInt8} (hcmd : ¬ IsGetResponse cmd)
    (hfits : ∀ resp ∈ answers, resp.length ≤ RECV_BUFFER)
    (hlimits : WithinLimits (rawFrom currentAid cmd.bytes leLeft left acc (getResponse le) answers).2
      (appletFrom label left' acc (getResponse le) answers).2)
    (hmid : wrongLeMidRead true (answers.map response) = true) :
    (rawFrom currentAid cmd.bytes leLeft left acc (getResponse le) answers).1 ≠
      (appletFrom label left' acc (getResponse le) answers).1.map .transmit := by
  induction answers generalizing acc leLeft left left' le with
  | nil => cases hmid
  | cons resp answers ih =>
      have hresp := hfits resp List.mem_cons_self
      have hrest := fun r hr => hfits r (List.mem_cons_of_mem _ hr)
      rw [List.map_cons] at hmid
      cases hkind : response resp with
      | short =>
          rw [hkind] at hmid
          cases hmid
      | more data hint =>
          obtain ⟨_, hraw⟩ := rawFrom_more hresp hkind hlimits.reassembly
          obtain ⟨_, happlet⟩ := appletFrom_more hresp hkind hlimits.chunks hlimits.size
          rw [hraw, happlet] at hlimits ⊢
          rw [hkind] at hmid
          exact fun h => ih hrest hlimits hmid (map_cons_inj h)
      | wrongLe le' =>
          obtain ⟨_, hraw⟩ := rawFrom_wrongLe hresp hkind hlimits.reassembly hlimits.wrongLe
          obtain ⟨_, happlet⟩ := appletFrom_wrongLe hresp hkind hlimits.chunks hlimits.size
          rw [hraw, happlet]
          intro h
          have hhead := congrArg (fun sent => sent[0]?) (map_cons_inj h)
          simp only [rawFrom_head, List.getElem?_map, appletFrom_head, Option.map_some,
            cmd.resendWithLe_bytes, resendWithLe_getResponse, Option.some.injEq,
            LinkCommand.transmit.injEq] at hhead
          exact hcmd (isGetResponse_of_isCommand (.inr ⟨le', hhead.symm⟩))
      | last data sw1 sw2 =>
          rw [hkind] at hmid
          cases hmid

theorem command_parts (hcmd : ¬ IsGetResponse cmd)
    (hfits : ∀ resp ∈ answers, resp.length ≤ RECV_BUFFER) (hsend : IsCommand cmd toSend)
    (hlimits : WithinLimits (rawFrom currentAid cmd.bytes leLeft left [] toSend answers).2
      (appletFrom label left' [] toSend answers).2)
    (hmid : wrongLeMidRead false (answers.map response) = true) :
    (rawFrom currentAid cmd.bytes leLeft left [] toSend answers).1 ≠
      (appletFrom label left' [] toSend answers).1.map .transmit := by
  induction answers generalizing leLeft left left' toSend with
  | nil => cases hmid
  | cons resp answers ih =>
      have hresp := hfits resp List.mem_cons_self
      have hrest := fun r hr => hfits r (List.mem_cons_of_mem _ hr)
      rw [List.map_cons] at hmid
      cases hkind : response resp with
      | short =>
          rw [hkind] at hmid
          cases hmid
      | more data hint =>
          obtain ⟨_, hraw⟩ := rawFrom_more hresp hkind hlimits.reassembly
          obtain ⟨_, happlet⟩ := appletFrom_more hresp hkind hlimits.chunks hlimits.size
          rw [hraw, happlet] at hlimits ⊢
          rw [hkind] at hmid
          exact fun h => reading_parts hcmd hrest hlimits hmid (map_cons_inj h)
      | wrongLe le =>
          obtain ⟨_, hraw⟩ := rawFrom_wrongLe hresp hkind hlimits.reassembly hlimits.wrongLe
          obtain ⟨_, happlet⟩ := appletFrom_wrongLe hresp hkind hlimits.chunks hlimits.size
          rw [resend_command hsend] at happlet
          rw [cmd.resendWithLe_bytes] at hraw
          rw [hraw, happlet] at hlimits ⊢
          rw [hkind] at hmid
          exact fun h => ih hrest (.inr ⟨le, rfl⟩) hlimits hmid (map_cons_inj h)
      | last data sw1 sw2 =>
          rw [hkind] at hmid
          cases hmid

/-! ### A GET RESPONSE of the caller -/

/-- The same APDUs are sent; the applet loop keeps what the OTP loop drops. -/
theorem fetching_agrees (lost acc : List UInt8) (hcmd : IsGetResponse cmd)
    (hfits : ∀ resp ∈ answers, resp.length ≤ RECV_BUFFER) (hsend : IsCommand cmd toSend)
    (hlimits : WithinLimits (rawFrom currentAid cmd.bytes leLeft left acc toSend answers).2
      (appletFrom label left' (lost ++ acc) toSend answers).2) :
    Agrees cmd answers (rawFrom currentAid cmd.bytes leLeft left acc toSend answers)
        (appletFrom label left' (lost ++ acc) toSend answers) ↔
      losesData lost acc (answers.map response) = false := by
  induction answers generalizing acc lost leLeft left left' toSend with
  | nil =>
      rw [rawFrom_nil, appletFrom_nil]
      exact ⟨fun _ => rfl, fun _ => ⟨rfl, .waiting, fun _ => .nil⟩⟩
  | cons resp answers ih =>
      have hresp := hfits resp List.mem_cons_self
      have hrest := fun r hr => hfits r (List.mem_cons_of_mem _ hr)
      have hrule : ∀ (raw : RawRun) (applet : AppletRun),
          Agrees cmd (resp :: answers) (Prod.map (List.cons (.transmit toSend)) id raw)
            (Prod.map (List.cons toSend) id applet) ↔ Agrees cmd answers raw applet := by
        intro raw applet
        refine ⟨fun h => ⟨map_cons_inj h.sent, h.result, fun hnot => absurd hcmd hnot⟩, ?_⟩
        exact fun h => h.cons fun hnot => absurd hcmd hnot
      rw [List.map_cons]
      cases hkind : response resp with
      | short =>
          rw [rawFrom_short hresp hkind, appletFrom_short hresp hkind]
          exact ⟨fun _ => rfl, fun _ => .stop (.short _ _ _)⟩
      | more data hint =>
          obtain ⟨_, hraw⟩ := rawFrom_more hresp hkind hlimits.reassembly
          obtain ⟨_, happlet⟩ := appletFrom_more hresp hkind hlimits.chunks hlimits.size
          rw [List.append_assoc] at happlet
          rw [hraw, happlet] at hlimits ⊢
          exact (hrule _ _).trans (ih _ _ hrest (.inr ⟨hint, (hcmd hint).symm⟩) hlimits)
      | wrongLe le =>
          obtain ⟨_, hraw⟩ := rawFrom_wrongLe hresp hkind hlimits.reassembly hlimits.wrongLe
          obtain ⟨_, happlet⟩ := appletFrom_wrongLe hresp hkind hlimits.chunks hlimits.size
          rw [resend_command hsend] at happlet
          rw [cmd.resendWithLe_bytes] at hraw
          rw [hraw, happlet, ← List.append_nil (lost ++ acc)] at hlimits ⊢
          exact (hrule _ _).trans (ih _ _ hrest (.inr ⟨le, rfl⟩) hlimits)
      | last data sw1 sw2 =>
          rw [rawFrom_last hresp hkind hlimits.reassembly,
            appletFrom_last hresp hkind hlimits.chunks]
          constructor
          · intro h
            have hsame := congrArg (fun v => v.1.length) h.result.ok_inj
            simp only [List.length_append] at hsame
            have hlost : lost.length = 0 := by omega
            exact decide_eq_false (not_not.mpr (List.length_eq_zero_iff.mp hlost))
          · intro h
            rw [not_not.mp (of_decide_eq_false h), List.nil_append]
            exact .stop (.answered _)

end Agreement

/-- **The OTP loop agrees with the applet loop** as long as no GET RESPONSE is answered with
another Le, and only then. -/
theorem rawRun_agrees_iff (label : String) (currentAid : List UInt8) (cmd : ShortApdu)
    (answers : List (List UInt8)) (hfits : ∀ resp ∈ answers, resp.length ≤ RECV_BUFFER)
    (hlimits : WithinLimits (rawRun currentAid cmd answers).2 (appletRun label cmd answers).2) :
    Agrees cmd answers (rawRun currentAid cmd answers) (appletRun label cmd answers) ↔
      Undisturbed cmd answers := by
  have hagrees := command_agrees hfits (.inl rfl) hlimits
  by_cases hcmd : IsGetResponse cmd
  · have hiff : Agrees cmd answers (rawRun currentAid cmd answers) (appletRun label cmd answers) ↔
        losesData [] [] (answers.map response) = false :=
      fetching_agrees [] [] hcmd hfits (.inl rfl) hlimits
    constructor
    · exact fun h => .inr ⟨hcmd, hiff.mp h⟩
    · rintro (hmid | ⟨-, hloses⟩)
      · exact hagrees hmid
      · exact hiff.mpr hloses
  · constructor
    · intro h
      by_contra hnot
      have hmid : wrongLeMidRead false (answers.map response) = true := by
        rw [Undisturbed, not_or, Bool.not_eq_false] at hnot
        exact hnot.1
      exact command_parts hcmd hfits (.inl rfl) hlimits hmid h.sent
    · rintro (hmid | ⟨hget, -⟩)
      · exact hagrees hmid
      · exact absurd hget hcmd

end Keyroost.Token2Otp
