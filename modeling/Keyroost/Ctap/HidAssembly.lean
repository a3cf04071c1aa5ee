import Keyroost.Ctap.HidFraming

/-!
# What a receive takes for a message

`assemble` puts a message together from the reports of one channel alone, without clock or polls.
A receive of `keyroost-ctap/src/hid.rs` returns a message only where `assemble` does
(`recvBy_ok`, `recvCont_ok`, one for each of its loops), and `assemble` only for an initial report
and its continuations in order (`assemble_some`).

With the sender's side, which is in `HidFraming`, this gives `message_framed`: what is sent is what
is received, however it is interleaved, and nothing else is received. KEEPALIVE and ERROR, which a
receive treats in its own way, are left out by the statement, and `reserved_commands_lost` shows
what becomes of them.
-/

namespace Keyroost.Ctap

/-! ### Reports of one channel -/

def acceptConts (bcnt : Nat) : List UInt8 → UInt8 → List Report → Option (List UInt8)
  | payload, _, [] => if payload.length < bcnt then none else some payload
  | payload, seq, r :: rs =>
      if payload.length < bcnt ∧ r.cmd &&& 0x80 = 0 ∧ r.cmd = seq then
        acceptConts bcnt (payload ++ (r.bytes.drop CONT_FRAME_HEADER).take
          (min (bcnt - payload.length) CONT_FRAME_DATA)) (seq + 1) rs
      else none

def assemble (cmd : UInt8) : List Report → Option (List UInt8)
  | [] => none
  | r :: rs =>
      if r.cmd = CTAPHID_KEEPALIVE then assemble cmd rs
      else if r.cmd = CTAPHID_ERROR ∨ r.cmd ≠ cmd ∨ CTAPHID_MAX_PAYLOAD < r.bcnt then none
      else
        acceptConts r.bcnt
          ((r.bytes.drop INIT_FRAME_HEADER).take (min r.bcnt INIT_FRAME_DATA)) 0 rs

/-- What a poll gives for channel `cid`. -/
def Poll.given (cid : UInt32) (p : Poll) : Option Report :=
  match p.read with
  | .ok (some r) => if r.cid = cid then some r else none
  | _ => none

/-- The reports of channel `cid` that `polls` give. -/
def own (cid : UInt32) (polls : List Poll) : List Report := polls.filterMap (Poll.given cid)

theorem own_none {cid : UInt32} {p : Poll} (polls : List Poll) (hread : p.read = .ok none) :
    own cid (p :: polls) = own cid polls := by
  rw [own, List.filterMap_cons_none (by rw [Poll.given, hread])]
  rfl

theorem own_foreign {cid : UInt32} {p : Poll} {r : Report} (polls : List Poll)
    (hread : p.read = .ok (some r)) (hcid : r.cid ≠ cid) :
    own cid (p :: polls) = own cid polls := by
  rw [own, List.filterMap_cons_none (by rw [Poll.given, hread]; exact if_neg hcid)]
  rfl

theorem own_report {cid : UInt32} {p : Poll} {r : Report} (polls : List Poll)
    (hread : p.read = .ok (some r)) (hcid : r.cid = cid) :
    own cid (p :: polls) = r :: own cid polls := by
  rw [own, List.filterMap_cons_some (by rw [Poll.given, hread]; exact if_pos hcid)]
  rfl

theorem waitReport_ok {deadline : Nat} {p : Poll} {got : Option Report}
    (h : waitReport deadline p = .ok got) : p.read = .ok got := by
  rw [waitReport] at h
  split at h
  · cases h
  · split at h
    · cases h
    · exact h

theorem recvCont_ok {cid : UInt32} {deadline bcnt : Nat} {payload got : List UInt8}
    {seq : UInt8} {polls rest : List Poll}
    (h : recvCont cid deadline bcnt payload seq polls = some (.ok got, rest)) :
    ∃ used, polls = used ++ rest ∧ acceptConts bcnt payload seq (own cid used) = some got := by
  induction polls generalizing payload seq with
  | nil =>
      rw [recvCont] at h
      split at h
      · cases h
      · rename_i hdone
        cases h
        exact ⟨[], rfl, if_neg hdone⟩
  | cons p polls ih =>
      by_cases hmore : payload.length < bcnt
      · rw [recvCont, if_pos hmore] at h
        cases hwait : waitReport deadline p with
        | error e => rw [hwait] at h; cases h
        | ok got' =>
            rw [hwait] at h
            have hread := waitReport_ok hwait
            cases got' with
            | none =>
                obtain ⟨used, hused, haccept⟩ := ih h
                refine ⟨p :: used, congrArg (p :: ·) hused, ?_⟩
                rwa [own_none used hread]
            | some r =>
                by_cases hcid : r.cid = cid
                · dsimp only at h
                  rw [if_neg (not_not.mpr hcid)] at h
                  by_cases hinitial : r.cmd &&& 0x80 = 0
                  · rw [if_neg (not_not.mpr hinitial)] at h
                    by_cases hseq : r.cmd = seq
                    · rw [if_neg (not_not.mpr hseq)] at h
                      obtain ⟨used, hused, haccept⟩ := ih h
                      refine ⟨p :: used, congrArg (p :: ·) hused, ?_⟩
                      rw [own_report used hread hcid, acceptConts,
                        if_pos ⟨hmore, hinitial, hseq⟩]
                      exact haccept
                    · rw [if_pos hseq] at h
                      cases h
                  · rw [if_pos hinitial] at h
                    cases h
                · dsimp only at h
                  rw [if_pos hcid] at h
                  obtain ⟨used, hused, haccept⟩ := ih h
                  refine ⟨p :: used, congrArg (p :: ·) hused, ?_⟩
                  rwa [own_foreign used hread hcid]
      · rw [recvCont, if_neg hmore] at h
        cases h
        exact ⟨[], rfl, if_neg hmore⟩

theorem recvBy_ok {timeout : Nat} {cid : UInt32} {cmd : UInt8} {deadline : Nat}
    {got : List UInt8} {polls rest : List Poll}
    (h : recvBy timeout cid cmd deadline polls = some (.ok got, rest)) :
    ∃ used, polls = used ++ rest ∧ assemble cmd (own cid used) = some got := by
  induction polls generalizing deadline with
  | nil => cases h
  | cons p polls ih =>
      rw [recvBy] at h
      cases hwait : waitReport deadline p with
      | error e => rw [hwait] at h; cases h
      | ok got' =>
          rw [hwait] at h
          have hread := waitReport_ok hwait
          cases got' with
          | none =>
              obtain ⟨used, hused, haccept⟩ := ih h
              refine ⟨p :: used, congrArg (p :: ·) hused, ?_⟩
              rwa [own_none used hread]
          | some r =>
              dsimp only at h
              by_cases hcid : r.cid = cid
              · rw [if_neg (not_not.mpr hcid)] at h
                by_cases hkeepalive : r.cmd = CTAPHID_KEEPALIVE
                · rw [if_pos hkeepalive] at h
                  split at h
                  · cases h
                  · obtain ⟨used, hused, haccept⟩ := ih h
                    refine ⟨p :: used, congrArg (p :: ·) hused, ?_⟩
                    rw [own_report used hread hcid, assemble, if_pos hkeepalive]
                    exact haccept
                · rw [if_neg hkeepalive] at h
                  split at h
                  · cases h
                  · rename_i herror
                    split at h
                    · cases h
                    · rename_i hcmd
                      split at h
                      · cases h
                      · rename_i hover
                        obtain ⟨used, hused, haccept⟩ := recvCont_ok h
                        refine ⟨p :: used, congrArg (p :: ·) hused, ?_⟩
                        rw [own_report used hread hcid, assemble, if_neg hkeepalive,
                          if_neg (by tauto)]
                        exact haccept
              · rw [if_pos hcid] at h
                obtain ⟨used, hused, haccept⟩ := ih h
                refine ⟨p :: used, congrArg (p :: ·) hused, ?_⟩
                rwa [own_foreign used hread hcid]

/-- The reports of one whole message: any KEEPALIVEs, an initial report of `cmd` with the
length of `payload`, and continuations numbered from 0 without a gap. -/
structure WholeMessage (cmd : UInt8) (payload : List UInt8) (keepalives : List Report)
    (first : Report) (conts : List Report) : Prop where
  keepalive : ∀ r ∈ keepalives, r.cmd = CTAPHID_KEEPALIVE
  command : first.cmd = cmd
  count : first.bcnt = payload.length
  fits : payload.length ≤ CTAPHID_MAX_PAYLOAD
  inOrder : ∀ i r, conts[i]? = some r → i < 128 ∧ r.cmd = UInt8.ofNat i

theorem acceptConts_some {bcnt : Nat} {payload got : List UInt8} {k : Nat} {rs : List Report}
    (hfits : bcnt ≤ CTAPHID_MAX_PAYLOAD) (hlen : payload.length = contOffset bcnt k)
    (h : acceptConts bcnt payload (UInt8.ofNat k) rs = some got) :
    got.length = bcnt ∧ ∀ i r, rs[i]? = some r → k + i < 128 ∧ r.cmd = UInt8.ofNat (k + i) := by
  induction rs generalizing payload k with
  | nil =>
      rw [acceptConts] at h
      split at h
      · cases h
      · rename_i hdone
        cases h
        refine ⟨Nat.le_antisymm ?_ (Nat.not_lt.mp hdone), by intro i r hr; cases hr⟩
        rw [hlen]
        exact Nat.min_le_left _ _
  | cons r rs ih =>
      rw [acceptConts] at h
      split at h
      · rename_i haccept
        obtain ⟨hmore, -, hseq⟩ := haccept
        rw [hlen] at hmore
        have hk := seq_lt hfits hmore
        have hdata : (r.bytes.drop CONT_FRAME_HEADER).length = CONT_FRAME_DATA := by
          rw [List.length_drop, r.size]
          rfl
        rw [seq_succ] at h
        obtain ⟨hgot, horder⟩ := ih (by
          rw [List.length_append, List.length_take, hdata, hlen, ← contOffset_succ hmore,
            Nat.min_eq_left (Nat.min_le_right _ _)]) h
        refine ⟨hgot, ?_⟩
        intro i r' hr'
        cases i with
        | zero =>
            cases hr'
            exact ⟨hk, hseq⟩
        | succ i =>
            have hnext := horder i r' hr'
            rwa [Nat.add_right_comm, Nat.add_assoc] at hnext
      · cases h

theorem assemble_split {cmd : UInt8} {got : List UInt8} {rs : List Report}
    (h : assemble cmd rs = some got) :
    ∃ keepalives first conts, rs = keepalives ++ first :: conts ∧
      (∀ r ∈ keepalives, r.cmd = CTAPHID_KEEPALIVE) ∧ first.cmd = cmd ∧
      cmd ≠ CTAPHID_KEEPALIVE ∧ first.bcnt ≤ CTAPHID_MAX_PAYLOAD ∧
      acceptConts first.bcnt ((first.bytes.drop INIT_FRAME_HEADER).take
        (min first.bcnt INIT_FRAME_DATA)) 0 conts = some got := by
  induction rs with
  | nil => cases h
  | cons r rs ih =>
      rw [assemble] at h
      split at h
      · rename_i hkeepalive
        obtain ⟨keepalives, first, conts, heq, hall, hrest⟩ := ih h
        exact ⟨r :: keepalives, first, conts, congrArg (r :: ·) heq,
          List.forall_mem_cons.mpr ⟨hkeepalive, hall⟩, hrest⟩
      · rename_i hkeepalive
        split at h
        · cases h
        · rename_i hrefused
          push Not at hrefused
          obtain ⟨-, hcmd, hfits⟩ := hrefused
          exact ⟨[], r, rs, rfl, fun x hx => absurd hx List.not_mem_nil, hcmd,
            hcmd.symm.trans_ne hkeepalive, hfits, h⟩

theorem assemble_some {cmd : UInt8} {got : List UInt8} {rs : List Report}
    (h : assemble cmd rs = some got) :
    ∃ keepalives first conts, rs = keepalives ++ first :: conts ∧
      WholeMessage cmd got keepalives first conts := by
  obtain ⟨keepalives, first, conts, heq, hall, hcmd, -, hfits, haccept⟩ := assemble_split h
  have hdata : (first.bytes.drop INIT_FRAME_HEADER).length = INIT_FRAME_DATA := by
    rw [List.length_drop, first.size]
    rfl
  obtain ⟨hgot, horder⟩ := acceptConts_some (k := 0) hfits (by
    rw [List.length_take, hdata, Nat.min_eq_left (Nat.min_le_right _ _)]
    rfl) haccept
  refine ⟨keepalives, first, conts, heq, hall, hcmd, hgot.symm, hgot.trans_le hfits, ?_⟩
  intro i r hr
  have hnext := horder i r hr
  rwa [Nat.zero_add] at hnext

/-! ### Framing -/

/-- **CTAPHID framing.** For every command other than KEEPALIVE and ERROR: the sender's
reports, however they are interleaved and whatever KEEPALIVEs come first, are received as
the payload; their sequence numbers count up to at most 127; and a byte count over the
limit, a second initial report and a wrong sequence number end the receive with an
error. -/
theorem message_framed (timeout : Nat) (cid : UInt32) (cmd : UInt8) (payload : List UInt8)
    (hkeepalive : cmd ≠ CTAPHID_KEEPALIVE) (herror : cmd ≠ CTAPHID_ERROR)
    (hlen : payload.length ≤ CTAPHID_MAX_PAYLOAD) :
    ∃ message : List Report,
      send cid cmd payload = .ok (message.map fun r => 0x00 :: r.bytes) ∧
      (∀ i r, message[i + 1]? = some r → i ≤ 127 ∧ r.cmd.toNat = i) ∧
      (∀ started polls, Arrives cid timeout message (started + timeout) polls →
        ∃ rest, recv timeout cid cmd started polls = some (.ok payload, rest)) ∧
      (∀ started polls r, r.cmd = cmd → CTAPHID_MAX_PAYLOAD < r.bcnt →
        Arrives cid timeout [r] (started + timeout) polls →
        ∃ rest, recv timeout cid cmd started polls =
          some (.error (.payloadTooLarge r.bcnt), rest)) ∧
      (∀ started polls k r, k + 1 < message.length → r.cmd &&& 0x80 ≠ 0 →
        Arrives cid timeout (message.take (k + 1) ++ [r]) (started + timeout) polls →
        ∃ rest, recv timeout cid cmd started polls =
          some (.error (.unexpectedCommand 0x00 r.cmd), rest)) ∧
      (∀ started polls k r, k + 1 < message.length → r.cmd &&& 0x80 = 0 → r.cmd.toNat ≠ k →
        Arrives cid timeout (message.take (k + 1) ++ [r]) (started + timeout) polls →
        ∃ rest, recv timeout cid cmd started polls =
          some (.error (.outOfSequence (UInt8.ofNat k) r.cmd), rest)) ∧
      (∀ started polls got rest, recv timeout cid cmd started polls = some (.ok got, rest) →
        ∃ used keepalives first conts, polls = used ++ rest ∧
          own cid used = keepalives ++ first :: conts ∧
          WholeMessage cmd got keepalives first conts) := by
  refine ⟨reports cid cmd payload, ?_, ?_, ?_, ?_, ?_, ?_, ?_⟩
  · rw [send, if_neg (Nat.not_lt.mpr hlen)]
  · intro i r hr
    rw [reports_eq, List.getElem?_cons_succ] at hr
    obtain ⟨-, hi, hcmd⟩ := cmd_contReports hlen hr
    rw [Nat.zero_add] at hi hcmd
    rw [hcmd, seq_toNat hi]
    exact ⟨Nat.le_of_lt_succ hi, rfl⟩
  · intro started polls harrives
    exact recv_delivers hkeepalive herror hlen harrives
  · intro started polls r hcmd hover harrives
    exact recv_tooLarge hkeepalive herror hcmd hover harrives
  · intro started polls k r hk hinitial harrives
    obtain ⟨deadline, rest, hturn⟩ := recv_inside hkeepalive herror hlen hk harrives
    refine ⟨rest, hturn.trans ?_⟩
    rw [contTurn, if_pos hinitial]
  · intro started polls k r hk hcont hseq harrives
    obtain ⟨deadline, rest, hturn⟩ := recv_inside hkeepalive herror hlen hk harrives
    have hmore : contOffset payload.length (0 + k) < payload.length :=
      contOffset_lt cid (Nat.lt_of_succ_lt_succ hk)
    rw [Nat.zero_add] at hmore
    have hne : r.cmd ≠ UInt8.ofNat k := by
      intro heq
      rw [heq, seq_toNat (seq_lt hlen hmore)] at hseq
      exact hseq rfl
    refine ⟨rest, hturn.trans ?_⟩
    rw [contTurn, if_neg (not_not.mpr hcont), if_pos hne]
  · intro started polls got rest h
    obtain ⟨used, hused, hassemble⟩ := recvBy_ok h
    obtain ⟨keepalives, first, conts, heq, hwhole⟩ := assemble_some hassemble
    exact ⟨used, keepalives, first, conts, hused, heq, hwhole⟩

theorem sampleMessage_framed :
    ∃ message : List Report,
      send 7 CTAPHID_CBOR (List.replicate 100 1) =
        .ok (message.map fun r => 0x00 :: r.bytes) ∧
      ∀ started polls, Arrives 7 2000 message (started + 2000) polls →
        ∃ rest, recv 2000 7 CTAPHID_CBOR started polls =
          some (.ok (List.replicate 100 1), rest) := by
  obtain ⟨message, hsend, -, hreceived, -⟩ :=
    message_framed 2000 7 CTAPHID_CBOR (List.replicate 100 1) (by decide) (by decide) (by decide)
  exact ⟨message, hsend, hreceived⟩

/-- A poll at time 0 that gives `r`. -/
def pollOf (r : Report) : Poll :=
  { now := 0, cancelRequested := false, read := .ok (some r), keepaliveCancel := false,
    keepaliveNow := 0 }

theorem arrives_pollOf {cid : UInt32} {r : Report} (hcid : r.cid = cid) :
    Arrives cid 2000 [r] 2000 [pollOf r] := by
  apply Arrives.starts
  exact Carries.report ⟨Nat.succ_pos 1999, rfl⟩ rfl hcid (Carries.done [])

/-- A message whose command byte is that of a KEEPALIVE or of an ERROR is not received. -/
theorem reserved_commands_lost :
    (∃ polls, Arrives 7 2000 (reports 7 CTAPHID_KEEPALIVE [2]) 2000 polls ∧
      recv 2000 7 CTAPHID_KEEPALIVE 0 polls = none) ∧
    (∃ polls, Arrives 7 2000 (reports 7 CTAPHID_ERROR [2]) 2000 polls ∧
      recv 2000 7 CTAPHID_ERROR 0 polls = some (.error (.deviceError 2), [])) := by
  have hone (cmd : UInt8) : reports 7 cmd [2] = [initReport 7 cmd [2]] := by
    rw [reports, contReports_of_le _ _ (by decide)]
  refine ⟨⟨[pollOf (initReport 7 CTAPHID_KEEPALIVE [2])], ?_, by decide⟩,
    ⟨[pollOf (initReport 7 CTAPHID_ERROR [2])], ?_, by decide⟩⟩
  · rw [hone]
    exact arrives_pollOf (cid_initReport _ _ _)
  · rw [hone]
    exact arrives_pollOf (cid_initReport _ _ _)

end Keyroost.Ctap
