import Keyroost.Piv.LongWrite

/-!
# A card that carries out complete commands

A card acts when it has a complete command: one APDU, or every link of one chain. It carries the
command out exactly when it answers `9000`, or when it would have and the answer is lost. A link it
refuses, or whose exchange fails, ends the chain.

What a command does is a parameter (`Effect`), so the card serves certificates, keys and whole
slots. `Attempt` is one way of sending a command, as a single APDU or as a chain, and
`always_single` and `always_chainApdu` say what the card has carried out when it ends;
`LongWriteHonest` and `SlotCard` build on these and never look at single APDUs again. That a chain
delivers its data is `assembled_chainApdu`.
-/

namespace Keyroost.Piv

open Transport Dialogue

/-! ### The card -/

/-- A card's answer to one APDU: data and a status word, or a failure of the reader. -/
abbrev CardReply (_ : List UInt8) : Type := Except PcscError (List UInt8 × UInt16)

def toReply (reply : Except PcscError (List UInt8 × UInt16)) : Reply := reply.mapError .pcsc

/-- What carrying a command out does: from one content, with the data answered, to another. -/
abbrev Effect (σ : Type) : Type := σ → Command → List UInt8 → σ → Prop

/-- The chain a card is in the middle of, the complete commands it was sent, those it has
carried out, and what it holds. -/
structure Card (σ : Type) where
  chain : Option Command
  sent : List Command
  applied : List Command
  slots : σ

variable {σ : Type}

def joined : Option Command → Command → Command
  | none, c => c
  | some first, c => { c with data := first.data ++ c.data }

def CarriedOut (effect : Effect σ) (s : Card σ) (c : Command) (data : List UInt8)
    (t : Card σ) : Prop :=
  effect s.slots c data t.slots ∧ t.applied = s.applied ++ [c]

def Untouched (s t : Card σ) : Prop := t.slots = s.slots ∧ t.applied = s.applied

/-- What a reply says about the command it answers. -/
def Acts (effect : Effect σ) (s : Card σ) (c : Command) :
    Except PcscError (List UInt8 × UInt16) → Card σ → Prop
  | .ok (data, sw), t => if sw = SW_OK then CarriedOut effect s c data t else Untouched s t
  | .error _, t => Untouched s t ∨ ∃ data, CarriedOut effect s c data t

/-- The card has a complete command: no chain is open after it, it is sent, and the card acts on it
or refuses it. -/
structure Completes (effect : Effect σ) (s : Card σ) (c : Command)
    (reply : Except PcscError (List UInt8 × UInt16)) (t : Card σ) : Prop where
  idle : t.chain = none
  sent : t.sent = s.sent ++ [c]
  acts : Acts effect s c reply t

def accepted : Except PcscError (List UInt8 × UInt16) → Bool
  | .ok (_, sw) => sw == SW_OK
  | .error _ => false

/-- One APDU. Fewer bytes than a header are no command. -/
def cardStep (effect : Effect σ) : Device CardReply (Card σ) := fun s apdu reply t =>
  match readApdu apdu with
  | none => t = s
  | some (true, c) =>
      t = { s with chain := if accepted reply then some (joined s.chain c) else none }
  | some (false, c) => Completes effect s (joined s.chain c) reply t

/-- A card that has carried a complete command out whenever the answer is lost. -/
def lossyStep (effect : Effect σ) : Device CardReply (Card σ) := fun s apdu reply t =>
  cardStep effect s apdu reply t ∧ ∀ c e, readApdu apdu = some (false, c) → reply = .error e →
    ∃ data, CarriedOut effect s (joined s.chain c) data t

/-- `send` is one exchange with the card. -/
def Sends {Q : Type} {A : Q → Type} (D : Device A (Card σ)) (effect : Effect σ)
    (send : List UInt8 → Dialogue A Reply) : Prop :=
  ∀ apdu s Post, (∀ reply t, cardStep effect s apdu reply t → Post (toReply reply) t) →
    (send apdu).Always D Post s

/-! ### What a card holds and what it has carried out -/

/-- Commands carried out one after the other, each on what the one before it left. The effect of a
command is a relation, so that a card may differ in what it does. -/
inductive Follows (effect : Effect σ) : σ → List Command → σ → Prop
  | nil (x : σ) : Follows effect x [] x
  | snoc {x y z : σ} {cs : List Command} {c : Command} {data : List UInt8} :
      Follows effect x cs y → effect y c data z → Follows effect x (cs ++ [c]) z

/-- The content is what the commands carried out since `start` made of it. -/
def Accounted (effect : Effect σ) (start t : Card σ) : Prop :=
  ∃ cs, t.applied = start.applied ++ cs ∧ Follows effect start.slots cs t.slots

theorem Accounted.refl (effect : Effect σ) (s : Card σ) : Accounted effect s s :=
  ⟨[], (List.append_nil _).symm, .nil _⟩

theorem Accounted.follows {effect : Effect σ} {start t : Card σ} {cs : List Command}
    (h : Accounted effect start t) (happlied : t.applied = start.applied ++ cs) :
    Follows effect start.slots cs t.slots := by
  obtain ⟨cs', happlied', hfollows⟩ := h
  rw [happlied'] at happlied
  rwa [← List.append_cancel_left happlied]

theorem Accounted.untouched {effect : Effect σ} {start s t : Card σ}
    (h : Accounted effect start s) (hstep : Untouched s t) : Accounted effect start t := by
  obtain ⟨cs, happlied, hfollows⟩ := h
  exact ⟨cs, hstep.2.trans happlied, hstep.1 ▸ hfollows⟩

theorem Accounted.carriedOut {effect : Effect σ} {start s t : Card σ} {c : Command}
    {data : List UInt8} (h : Accounted effect start s) (hstep : CarriedOut effect s c data t) :
    Accounted effect start t := by
  obtain ⟨cs, happlied, hfollows⟩ := h
  refine ⟨cs ++ [c], ?_, .snoc hfollows hstep.1⟩
  rw [hstep.2, happlied, List.append_assoc]

theorem Accounted.cardStep {effect : Effect σ} {start s t : Card σ} {apdu : List UInt8}
    {reply : Except PcscError (List UInt8 × UInt16)} (h : Accounted effect start s)
    (hstep : cardStep effect s apdu reply t) : Accounted effect start t := by
  unfold Piv.cardStep at hstep
  split at hstep
  · rwa [hstep]
  · rw [hstep]
    exact h
  · have hacts := hstep.acts
    rcases reply with e | ⟨data, sw⟩
    · rcases hacts with hacts | ⟨data, hacts⟩
      · exact h.untouched hacts
      · exact h.carriedOut hacts
    · by_cases hsw : sw = SW_OK
      · rw [Acts, if_pos hsw] at hacts
        exact h.carriedOut hacts
      · rw [Acts, if_neg hsw] at hacts
        exact h.untouched hacts

/-- The command that APDUs make up, if they are one command and all of it. -/
def assembled : Option Command → List (List UInt8) → Option Command
  | _, [] => none
  | chain, apdu :: rest =>
      match readApdu apdu with
      | some (true, c) => assembled (some (joined chain c)) rest
      | some (false, c) => if rest = [] then some (joined chain c) else none
      | none => none

/-! ### One attempt at a command -/

/-- How an attempt at a command ends: a link is refused, or fails at the reader, or the card
has the whole command. -/
inductive Attempt (effect : Effect σ) (label : String) (c : Command) (s : Card σ) :
    Reply → Card σ → Prop
  | refusedLink {sw : UInt16} : sw ≠ SW_OK →
      Attempt effect label c s (.error (.apdu label (sw >>> 8).toUInt8 sw.toUInt8))
        { s with chain := none }
  | lostLink (e : PcscError) :
      Attempt effect label c s (.error (.pcsc e)) { s with chain := none }
  | whole {reply : Except PcscError (List UInt8 × UInt16)} {t : Card σ} :
      Completes effect s c reply t → Attempt effect label c s (toReply reply) t

theorem joined_joined (chain : Option Command) (ins p1 p2 : UInt8) (a b : List UInt8) :
    joined (some (joined chain ⟨0x00, ins, p1, p2, a⟩)) ⟨0x00, ins, p1, p2, b⟩ =
      joined chain ⟨0x00, ins, p1, p2, a ++ b⟩ := by
  cases chain with
  | none => rfl
  | some first =>
      show Command.mk _ _ _ _ (first.data ++ a ++ b) = Command.mk _ _ _ _ (first.data ++ (a ++ b))
      rw [List.append_assoc]

theorem Attempt.of_chain {effect : Effect σ} {label : String} {c : Command} {s t : Card σ}
    {chain : Option Command} {r : Reply}
    (h : Attempt effect label c { s with chain := chain } r t) : Attempt effect label c s r t := by
  cases h with
  | refusedLink hsw => exact .refusedLink hsw
  | lostLink e => exact .lostLink e
  | whole h => exact .whole ⟨h.idle, h.sent, h.acts⟩

section Send

variable {Q : Type} {A : Q → Type} {D : Device A (Card σ)} {effect : Effect σ}
  {send : List UInt8 → Dialogue A Reply}

theorem transmitChainWith_cons (label : String) (chunk : List UInt8)
    {rest : List (List UInt8)} (hne : rest ≠ []) :
    transmitChainWith send label (chunk :: rest) =
      (send chunk).andThen fun (_, sw) =>
        if sw ≠ SW_OK then .done (.error (.apdu label (sw >>> 8).toUInt8 sw.toUInt8))
        else transmitChainWith send label rest := by
  cases rest with
  | nil => exact absurd rfl hne
  | cons next rest => rfl

theorem chainLinks_cons (cla ins p1 p2 : UInt8) (le : Option UInt8) (chunk next : List UInt8)
    (rest : List (List UInt8)) : chainLinks cla ins p1 p2 le (chunk :: next :: rest) =
      ([cla ||| 0x10, ins, p1, p2, chunk.length.toUInt8] ++ chunk) ::
        chainLinks cla ins p1 p2 le (next :: rest) := rfl

theorem chainLinks_ne_nil {cla ins p1 p2 : UInt8} {le : Option UInt8} {chunk : List UInt8}
    {rest : List (List UInt8)} : chainLinks cla ins p1 p2 le (chunk :: rest) ≠ [] := by
  cases rest with
  | nil => exact List.cons_ne_nil _ _
  | cons next rest => exact List.cons_ne_nil _ _

theorem assembled_chainLinks (ins p1 p2 : UInt8) {links : List (List UInt8)} (hne : links ≠ [])
    (hlinks : ∀ x ∈ links, x ≠ [] ∧ x.length ≤ 255) (chain : Option Command) :
    assembled chain (chainLinks 0x00 ins p1 p2 none links) =
      some (joined chain ⟨0x00, ins, p1, p2, links.flatten⟩) := by
  induction links generalizing chain with
  | nil => exact absurd rfl hne
  | cons chunk rest ih =>
      obtain ⟨hchunk, hlen⟩ := hlinks chunk List.mem_cons_self
      cases rest with
      | nil =>
          rw [chainLinks, assembled, readApdu_last ins p1 p2 none hchunk hlen]
          rw [List.flatten_cons, List.flatten_nil, List.append_nil]
          rfl
      | cons next rest =>
          rw [chainLinks_cons, assembled, readApdu_link ins p1 p2 hchunk hlen]
          have hnext := ih (List.cons_ne_nil _ _)
            (fun x hx => hlinks x (List.mem_cons_of_mem _ hx))
            (some (joined chain ⟨0x00, ins, p1, p2, chunk⟩))
          rwa [joined_joined, ← List.flatten_cons] at hnext

/-- **A chain** delivers the data byte for byte, whatever its links' length. -/
theorem assembled_chainApdu (ins p1 p2 : UInt8) (data : List UInt8) {n : Nat} (hpos : 0 < n)
    (hle : n ≤ 255) : assembled none (chainApdu 0x00 ins p1 p2 data n none) =
      some ⟨0x00, ins, p1, p2, data⟩ := by
  rw [chainApdu]
  split
  · next hnil =>
      rw [hnil]
      rfl
  · next hne =>
      have h := assembled_chainLinks ins p1 p2 (chunks_ne_nil hpos hne)
        (fun x hx => ⟨(mem_chunks hpos hx).1, Nat.le_trans (mem_chunks hpos hx).2 hle⟩) none
      rwa [flatten_chunks hpos] at h

/-- The links of a chain from its middle: the card has `s.chain` already. -/
theorem always_chainLinks (hsend : Sends D effect send) (label : String) (ins p1 p2 : UInt8)
    {links : List (List UInt8)} (hne : links ≠ [])
    (hlinks : ∀ x ∈ links, x ≠ [] ∧ x.length ≤ 255) (s : Card σ) :
    (transmitChainWith send label (chainLinks 0x00 ins p1 p2 none links)).Always D
      (Attempt effect label (joined s.chain ⟨0x00, ins, p1, p2, links.flatten⟩) s) s := by
  induction links generalizing s with
  | nil => exact absurd rfl hne
  | cons chunk rest ih =>
      obtain ⟨hchunk, hlen⟩ := hlinks chunk List.mem_cons_self
      cases rest with
      | nil =>
          apply hsend
          intro reply t hstep
          rw [cardStep, readApdu_last ins p1 p2 none hchunk hlen] at hstep
          rw [List.flatten_cons, List.flatten_nil, List.append_nil]
          exact .whole hstep
      | cons next rest =>
          have hrest : ∀ x ∈ next :: rest, x ≠ [] ∧ x.length ≤ 255 :=
            fun x hx => hlinks x (List.mem_cons_of_mem _ hx)
          rw [chainLinks_cons, transmitChainWith_cons label _ chainLinks_ne_nil]
          apply Always.andThen
          apply hsend
          intro reply t hstep
          rw [cardStep, readApdu_link ins p1 p2 hchunk hlen] at hstep
          subst hstep
          rcases reply with e | ⟨data, sw⟩
          · refine ⟨fun e' he => ?_, nofun⟩
            cases he
            exact .lostLink e
          · refine ⟨nofun, fun a ha => ?_⟩
            cases ha
            dsimp only
            by_cases hsw : sw = SW_OK
            · rw [if_neg (not_not_intro hsw)]
              have hnext := ih (List.cons_ne_nil _ _) hrest { s with
                chain := some (joined s.chain ⟨0x00, ins, p1, p2, chunk⟩) }
              rw [joined_joined, ← List.flatten_cons] at hnext
              simp only [accepted, hsw, beq_self_eq_true, if_true]
              exact hnext.mono fun r t h => h.of_chain
            · rw [if_pos hsw]
              simp only [accepted, beq_eq_false_iff_ne.mpr hsw, Bool.false_eq_true, if_false]
              exact .refusedLink hsw

/-- A chain, whatever its links' length. -/
theorem always_chainApdu (hsend : Sends D effect send) (label : String) (ins p1 p2 : UInt8)
    (data : List UInt8) {n : Nat} (hpos : 0 < n) (hle : n ≤ 255) {s : Card σ}
    (hidle : s.chain = none) :
    (transmitChainWith send label (chainApdu 0x00 ins p1 p2 data n none)).Always D
      (Attempt effect label ⟨0x00, ins, p1, p2, data⟩ s) s := by
  rw [chainApdu]
  split
  · next hnil =>
      apply hsend
      intro reply t hstep
      rw [hnil]
      have hread : cardStep effect s ([0x00, ins, p1, p2, 0x00] ++ Option.toList none) reply t =
          Completes effect s (joined s.chain ⟨0x00, ins, p1, p2, []⟩) reply t := rfl
      rw [hread, hidle] at hstep
      exact .whole hstep
  · next hne =>
      have h := always_chainLinks hsend label ins p1 p2 (chunks_ne_nil hpos hne)
        (fun x hx => ⟨(mem_chunks hpos hx).1, Nat.le_trans (mem_chunks hpos hx).2 hle⟩) s
      rwa [hidle, flatten_chunks hpos] at h

/-- One APDU, short or extended. -/
theorem always_single (hsend : Sends D effect send) (label : String) (ins p1 p2 : UInt8)
    {data : List UInt8} (hfits : data.length ≤ 0xFFFF) {s : Card σ} (hidle : s.chain = none) :
    (send (buildApduExt 0x00 ins p1 p2 data none)).Always D
      (Attempt effect label ⟨0x00, ins, p1, p2, data⟩ s) s := by
  apply hsend
  intro reply t hstep
  rw [cardStep, readApdu_buildApduExt ins p1 p2 none hfits, hidle] at hstep
  exact .whole hstep

end Send

end Keyroost.Piv
