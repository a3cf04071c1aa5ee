import Keyroost.Ctap.Hid

/-!
# CTAPHID framing

What a receive of `keyroost-ctap/src/hid.rs` makes of a message's reports, whatever comes between
them, and what it refuses.

`Carries` is a stream of polls that brings the given reports in time, among reads that give nothing
and reports of other channels; `Arrives` allows KEEPALIVEs before them. Each of the two loops has
a lemma for a poll that is idle and one for the next report, and `recvCont_contReports` goes through
the continuations of a message by induction. `recv_delivers` is the whole message, `recv_inside` a
message of which only a beginning has come, `recv_tooLarge` a byte count over the limit.
-/

namespace Keyroost.Ctap

/-! ### Reading a report back -/

namespace Report

theorem take_ofBytes {a : List UInt8} (b : List UInt8) (ha : a.length ≤ CTAPHID_REPORT_SIZE) :
    (ofBytes (a ++ b)).bytes.take a.length = a := by
  rw [ofBytes, List.take_take, Nat.min_eq_left ha, List.append_assoc, List.take_left]

/-- Within the report, `b` is found behind `a`. -/
theorem drop_ofBytes {a b : List UInt8} (h : (a ++ b).length ≤ CTAPHID_REPORT_SIZE) :
    ((ofBytes (a ++ b)).bytes.drop a.length).take b.length = b := by
  rw [List.length_append] at h
  rw [ofBytes, List.drop_take, List.take_take, Nat.min_eq_left (by omega), List.append_assoc,
    List.drop_left, List.take_left]

theorem cid_ofBytes (cid : UInt32) (b : List UInt8) :
    (ofBytes (Bytes.be 4 cid.toNat ++ b)).cid = cid := by
  have htake := take_ofBytes (a := Bytes.be 4 cid.toNat) b (by
    rw [Bytes.length_be]
    decide)
  rw [Bytes.length_be] at htake
  rw [Report.cid, htake, Bytes.ofBe_be (by exact cid.toNat_lt), UInt32.ofNat_toNat]

theorem cmd_ofBytes (cid : UInt32) (c : UInt8) (b : List UInt8) :
    (ofBytes (Bytes.be 4 cid.toNat ++ c :: b)).cmd = c := by
  have htake := take_ofBytes (a := Bytes.be 4 cid.toNat ++ [c]) b (by
    rw [List.length_append, Bytes.length_be, List.length_singleton]
    decide)
  rw [List.length_append, Bytes.length_be, List.length_singleton, List.append_assoc,
    List.singleton_append] at htake
  rw [Report.cmd, List.getD_eq_getElem?_getD, ← List.getElem?_take_of_lt (Nat.lt_succ_self 4),
    htake, List.getElem?_append_right (by rw [Bytes.length_be]), Bytes.length_be]
  rfl

end Report

@[simp] theorem cid_initReport (cid : UInt32) (cmd : UInt8) (payload : List UInt8) :
    (initReport cid cmd payload).cid = cid := by
  rw [initReport, List.append_assoc]
  exact Report.cid_ofBytes cid _

@[simp] theorem cmd_initReport (cid : UInt32) (cmd : UInt8) (payload : List UInt8) :
    (initReport cid cmd payload).cmd = cmd := by
  rw [initReport, List.append_assoc]
  exact Report.cmd_ofBytes cid cmd _

@[simp] theorem cid_contReport (cid : UInt32) (seq : UInt8) (chunk : List UInt8) :
    (contReport cid seq chunk).cid = cid := by
  rw [contReport, List.append_assoc]
  exact Report.cid_ofBytes cid _

@[simp] theorem cmd_contReport (cid : UInt32) (seq : UInt8) (chunk : List UInt8) :
    (contReport cid seq chunk).cmd = seq &&& 0x7F := by
  rw [contReport, List.append_assoc]
  exact Report.cmd_ofBytes cid _ chunk

/-- The two bytes of a count under 2¹⁶ are read back. -/
theorem ofBe_count {n : Nat} (hn : n < 65536) :
    Bytes.ofBe [(n >>> 8).toUInt8, (n &&& 0xFF).toUInt8] = n := by
  have hlow : n &&& 0xFF = n % 256 := Nat.and_two_pow_sub_one_eq_mod n 8
  have hhigh : n >>> 8 = n / 256 := Nat.shiftRight_eq_div_pow n 8
  rw [hlow, hhigh]
  simp only [Bytes.ofBe, List.reverse_cons, List.reverse_nil, List.nil_append,
    List.singleton_append, Bytes.ofLe, Nat.toUInt8, UInt8.toNat_ofNat']
  omega

theorem bcnt_initReport {cid : UInt32} {cmd : UInt8} {payload : List UInt8}
    (hlen : payload.length ≤ CTAPHID_MAX_PAYLOAD) :
    (initReport cid cmd payload).bcnt = payload.length := by
  let count := [(payload.length >>> 8).toUInt8, (payload.length &&& 0xFF).toUInt8]
  have hsplit : initReport cid cmd payload = Report.ofBytes
      ((Bytes.be 4 cid.toNat ++ [cmd]) ++ (count ++ payload.take INIT_FRAME_DATA)) := by
    simp only [initReport, count, List.append_assoc, List.cons_append, List.nil_append]
  have hhead : (Bytes.be 4 cid.toNat ++ [cmd]).length = 5 := by
    rw [List.length_append, Bytes.length_be]
    rfl
  have hroom : ((Bytes.be 4 cid.toNat ++ [cmd]) ++
      (count ++ payload.take INIT_FRAME_DATA)).length ≤ CTAPHID_REPORT_SIZE := by
    simp only [List.length_append, Bytes.length_be, List.length_cons, List.length_nil,
      List.length_take, count, INIT_FRAME_DATA, CTAPHID_REPORT_SIZE, INIT_FRAME_HEADER]
    omega
  have hback := Report.drop_ofBytes hroom
  rw [hhead] at hback
  have hcount : ((initReport cid cmd payload).bytes.drop 5).take 2 = count := by
    have htwo := congrArg (List.take 2) hback
    have hcount : 2 ≤ (count ++ payload.take INIT_FRAME_DATA).length := Nat.le_add_left 2 _
    rw [List.take_take, Nat.min_eq_left hcount] at htwo
    rw [hsplit, htwo]
    rfl
  rw [Report.bcnt, hcount]
  exact ofBe_count (by unfold CTAPHID_MAX_PAYLOAD at hlen; omega)

theorem data_initReport (cid : UInt32) (cmd : UInt8) (payload : List UInt8) :
    ((initReport cid cmd payload).bytes.drop INIT_FRAME_HEADER).take
      (min payload.length INIT_FRAME_DATA) = payload.take (min payload.length INIT_FRAME_DATA) := by
  have hhead : (Bytes.be 4 cid.toNat ++
      [cmd, (payload.length >>> 8).toUInt8, (payload.length &&& 0xFF).toUInt8]).length =
        INIT_FRAME_HEADER := by
    rw [List.length_append, Bytes.length_be]
    rfl
  have hback := Report.drop_ofBytes (a := Bytes.be 4 cid.toNat ++
      [cmd, (payload.length >>> 8).toUInt8, (payload.length &&& 0xFF).toUInt8])
      (b := payload.take INIT_FRAME_DATA) (by
    rw [List.length_append, hhead, List.length_take]
    unfold INIT_FRAME_HEADER INIT_FRAME_DATA CTAPHID_REPORT_SIZE INIT_FRAME_HEADER
    omega)
  rw [hhead, List.length_take, Nat.min_comm] at hback
  rw [initReport, hback, Nat.min_comm, ← List.take_eq_take_min]

theorem data_contReport (cid : UInt32) (seq : UInt8) {chunk : List UInt8}
    (hchunk : chunk.length ≤ CONT_FRAME_DATA) :
    ((contReport cid seq chunk).bytes.drop CONT_FRAME_HEADER).take chunk.length = chunk := by
  have hhead : (Bytes.be 4 cid.toNat ++ [seq &&& 0x7F]).length = CONT_FRAME_HEADER := by
    rw [List.length_append, Bytes.length_be]
    rfl
  have hback := Report.drop_ofBytes (a := Bytes.be 4 cid.toNat ++ [seq &&& 0x7F]) (b := chunk) (by
    rw [List.length_append, hhead]
    unfold CONT_FRAME_DATA CTAPHID_REPORT_SIZE at hchunk
    unfold CONT_FRAME_HEADER CTAPHID_REPORT_SIZE at *
    omega)
  rwa [hhead] at hback

/-! ### The continuations of a message -/

theorem contReports_of_lt {payload : List UInt8} {offset : Nat} (cid : UInt32) (seq : UInt8)
    (h : offset < payload.length) :
    contReports cid payload offset seq =
      contReport cid seq
        ((payload.drop offset).take (min (payload.length - offset) CONT_FRAME_DATA)) ::
        contReports cid payload (offset + min (payload.length - offset) CONT_FRAME_DATA)
          (seq + 1) := by
  rw [contReports, if_pos h]

theorem contReports_of_le {payload : List UInt8} {offset : Nat} (cid : UInt32) (seq : UInt8)
    (h : payload.length ≤ offset) : contReports cid payload offset seq = [] := by
  rw [contReports, if_neg (by omega)]

/-- The offset of the continuation numbered `k`, and past it the end. -/
def contOffset (n k : Nat) : Nat := min n (INIT_FRAME_DATA + CONT_FRAME_DATA * k)

theorem contOffset_succ {n k : Nat} (h : contOffset n k < n) :
    contOffset n k + min (n - contOffset n k) CONT_FRAME_DATA = contOffset n (k + 1) := by
  unfold contOffset INIT_FRAME_DATA CONT_FRAME_DATA CTAPHID_REPORT_SIZE INIT_FRAME_HEADER
    CONT_FRAME_HEADER at *
  omega

/-- No continuation of a message that fits is numbered over 127. -/
theorem seq_lt {n k : Nat} (hn : n ≤ CTAPHID_MAX_PAYLOAD) (h : contOffset n k < n) :
    k < 128 := by
  unfold contOffset INIT_FRAME_DATA CONT_FRAME_DATA CTAPHID_REPORT_SIZE INIT_FRAME_HEADER
    CONT_FRAME_HEADER at h
  unfold CTAPHID_MAX_PAYLOAD at hn
  omega

theorem seq_toNat {k : Nat} (hk : k < 128) : (UInt8.ofNat k).toNat = k := by
  rw [UInt8.toNat_ofNat']
  omega

theorem seq_masked {k : Nat} (hk : k < 128) : UInt8.ofNat k &&& 0x7F = UInt8.ofNat k := by
  apply UInt8.toNat_inj.mp
  have hmask : (0x7F : UInt8).toNat = 2 ^ 7 - 1 := rfl
  rw [UInt8.toNat_and, hmask, Nat.and_two_pow_sub_one_eq_mod, seq_toNat hk]
  exact Nat.mod_eq_of_lt hk

theorem seq_not_initial {k : Nat} (hk : k < 128) : UInt8.ofNat k &&& 0x80 = 0 := by
  rw [← seq_masked hk, UInt8.and_assoc]
  exact UInt8.and_zero

theorem seq_succ (k : Nat) : UInt8.ofNat k + 1 = UInt8.ofNat (k + 1) :=
  (UInt8.ofNat_add k 1).symm

/-- The `i`-th continuation from number `k` on carries the number `k + i`. -/
theorem cmd_contReports {cid : UInt32} {payload : List UInt8}
    (hlen : payload.length ≤ CTAPHID_MAX_PAYLOAD) {i k : Nat} {r : Report}
    (hr : (contReports cid payload (contOffset payload.length k) (UInt8.ofNat k))[i]? = some r) :
    r.cid = cid ∧ k + i < 128 ∧ r.cmd = UInt8.ofNat (k + i) := by
  induction i generalizing k with
  | zero =>
      by_cases hmore : contOffset payload.length k < payload.length
      · rw [contReports_of_lt cid _ hmore, List.getElem?_cons_zero, Option.some.injEq] at hr
        have hk := seq_lt hlen hmore
        rw [← hr, cid_contReport, cmd_contReport, seq_masked hk]
        exact ⟨rfl, hk, rfl⟩
      · rw [contReports_of_le cid _ (Nat.not_lt.mp hmore)] at hr
        cases hr
  | succ i ih =>
      by_cases hmore : contOffset payload.length k < payload.length
      · rw [contReports_of_lt cid _ hmore, List.getElem?_cons_succ, contOffset_succ hmore,
          seq_succ] at hr
        have h := ih hr
        rwa [Nat.add_right_comm, Nat.add_assoc] at h
      · rw [contReports_of_le cid _ (Nat.not_lt.mp hmore)] at hr
        cases hr

theorem reports_eq (cid : UInt32) (cmd : UInt8) (payload : List UInt8) :
    reports cid cmd payload = initReport cid cmd payload ::
      contReports cid payload (contOffset payload.length 0) (UInt8.ofNat 0) := rfl

/-! ### Streams of polls -/

namespace Poll

/-- Made in time, with no cancel requested. -/
def InTime (p : Poll) (deadline : Nat) : Prop :=
  p.now < deadline ∧ p.cancelRequested = false

/-- Gives nothing for channel `cid`. -/
def Idle (p : Poll) (cid : UInt32) : Prop :=
  p.read = .ok none ∨ ∃ r, p.read = .ok (some r) ∧ r.cid ≠ cid

theorem waitReport_inTime {p : Poll} {deadline : Nat} (h : p.InTime deadline) :
    waitReport deadline p = p.read := by
  rw [waitReport, if_neg (Nat.not_le.mpr h.1), h.2]
  exact if_neg Bool.false_ne_true

end Poll

/-- The reports `polls` give for channel `cid` begin with `message`, all of it in time. Between two
of its reports any number of polls may give nothing, or reports of other channels. -/
inductive Carries (cid : UInt32) (deadline : Nat) : List Report → List Poll → Prop
  | done (polls : List Poll) : Carries cid deadline [] polls
  | idle {message : List Report} {p : Poll} {polls : List Poll} (htime : p.InTime deadline)
      (hidle : p.Idle cid) (hrest : Carries cid deadline message polls) :
      Carries cid deadline message (p :: polls)
  | report {r : Report} {message : List Report} {p : Poll} {polls : List Poll}
      (htime : p.InTime deadline) (hread : p.read = .ok (some r)) (hcid : r.cid = cid)
      (hrest : Carries cid deadline message polls) :
      Carries cid deadline (r :: message) (p :: polls)

/-- `message` comes after any number of KEEPALIVEs, each of them in time too. A KEEPALIVE sets the
deadline anew; a poll that gives nothing for the channel leaves it as it is. -/
inductive Arrives (cid : UInt32) (timeout : Nat) (message : List Report) :
    Nat → List Poll → Prop
  | starts {deadline : Nat} {polls : List Poll} (h : Carries cid deadline message polls) :
      Arrives cid timeout message deadline polls
  | idle {deadline : Nat} {p : Poll} {polls : List Poll} (htime : p.InTime deadline)
      (hidle : p.Idle cid) (hrest : Arrives cid timeout message deadline polls) :
      Arrives cid timeout message deadline (p :: polls)
  | keepalive {deadline : Nat} {r : Report} {p : Poll} {polls : List Poll}
      (htime : p.InTime deadline) (hread : p.read = .ok (some r)) (hcid : r.cid = cid)
      (hcmd : r.cmd = CTAPHID_KEEPALIVE) (hcancel : p.keepaliveCancel = false)
      (hrest : Arrives cid timeout message (p.keepaliveNow + timeout) polls) :
      Arrives cid timeout message deadline (p :: polls)

/-! ### What the two loops do with the next report -/

/-- `recvCont` on a report of its channel, inside a message. -/
def contTurn (cid : UInt32) (deadline bcnt : Nat) (payload : List UInt8) (seq : UInt8)
    (r : Report) (polls : List Poll) : Receipt :=
  if r.cmd &&& 0x80 ≠ 0 then some (.error (.unexpectedCommand 0x00 r.cmd), polls)
  else if r.cmd ≠ seq then some (.error (.outOfSequence seq r.cmd), polls)
  else
    recvCont cid deadline bcnt
      (payload ++ (r.bytes.drop CONT_FRAME_HEADER).take
        (min (bcnt - payload.length) CONT_FRAME_DATA)) (seq + 1) polls

/-- `recvBy` on a report of its channel other than a KEEPALIVE. -/
def initTurn (cid : UInt32) (cmd : UInt8) (deadline : Nat) (r : Report) (polls : List Poll) :
    Receipt :=
  if r.cmd = CTAPHID_ERROR then some (.error (.deviceError (r.bytes.getD 7 0)), polls)
  else if r.cmd ≠ cmd then some (.error (.unexpectedCommand cmd r.cmd), polls)
  else if CTAPHID_MAX_PAYLOAD < r.bcnt then some (.error (.payloadTooLarge r.bcnt), polls)
  else
    recvCont cid deadline r.bcnt
      ((r.bytes.drop INIT_FRAME_HEADER).take (min r.bcnt INIT_FRAME_DATA)) 0 polls

theorem recvCont_idle {cid : UInt32} {deadline bcnt : Nat} {payload : List UInt8} {seq : UInt8}
    {p : Poll} {polls : List Poll} (hmore : payload.length < bcnt)
    (htime : p.InTime deadline) (hidle : p.Idle cid) :
    recvCont cid deadline bcnt payload seq (p :: polls) =
      recvCont cid deadline bcnt payload seq polls := by
  rw [recvCont, if_pos hmore, Poll.waitReport_inTime htime]
  rcases hidle with hread | ⟨r, hread, hcid⟩
  · rw [hread]
  · rw [hread]
    exact if_pos hcid

theorem recvCont_next {cid : UInt32} {deadline bcnt : Nat} {payload : List UInt8} (seq : UInt8)
    {r : Report} {message : List Report} {polls : List Poll} (hmore : payload.length < bcnt)
    (hcarries : Carries cid deadline (r :: message) polls) :
    ∃ polls', Carries cid deadline message polls' ∧
      recvCont cid deadline bcnt payload seq polls =
        contTurn cid deadline bcnt payload seq r polls' := by
  generalize hall : r :: message = all at hcarries
  induction hcarries with
  | done => cases hall
  | idle htime hidle _ ih =>
      obtain ⟨polls', hrest, heq⟩ := ih hall
      exact ⟨polls', hrest, (recvCont_idle hmore htime hidle).trans heq⟩
  | @report r' message' p polls htime hread hcid hrest =>
      cases hall
      refine ⟨polls, hrest, ?_⟩
      rw [recvCont, if_pos hmore, Poll.waitReport_inTime htime, hread]
      exact if_neg (not_not.mpr hcid)

theorem recvBy_idle {timeout : Nat} {cid : UInt32} {cmd : UInt8} {deadline : Nat} {p : Poll}
    {polls : List Poll} (htime : p.InTime deadline) (hidle : p.Idle cid) :
    recvBy timeout cid cmd deadline (p :: polls) = recvBy timeout cid cmd deadline polls := by
  rw [recvBy, Poll.waitReport_inTime htime]
  rcases hidle with hread | ⟨r, hread, hcid⟩
  · rw [hread]
  · rw [hread]
    exact if_pos hcid

theorem recvBy_carried {timeout : Nat} {cid : UInt32} {cmd : UInt8} {deadline : Nat}
    {r : Report} {message : List Report} {polls : List Poll} (hcmd : r.cmd ≠ CTAPHID_KEEPALIVE)
    (hcarries : Carries cid deadline (r :: message) polls) :
    ∃ polls', Carries cid deadline message polls' ∧
      recvBy timeout cid cmd deadline polls = initTurn cid cmd deadline r polls' := by
  generalize hall : r :: message = all at hcarries
  induction hcarries with
  | done => cases hall
  | idle htime hidle _ ih =>
      obtain ⟨polls', hrest, heq⟩ := ih hall
      exact ⟨polls', hrest, (recvBy_idle htime hidle).trans heq⟩
  | @report r' message' p polls htime hread hcid hrest =>
      cases hall
      refine ⟨polls, hrest, ?_⟩
      rw [recvBy, Poll.waitReport_inTime htime, hread]
      exact (if_neg (not_not.mpr hcid)).trans (if_neg hcmd)

/-- Past the idle polls and the KEEPALIVEs, the first report is looked at. -/
theorem recvBy_next {timeout : Nat} {cid : UInt32} (cmd : UInt8) {deadline : Nat} {r : Report}
    {message : List Report} {polls : List Poll} (hcmd : r.cmd ≠ CTAPHID_KEEPALIVE)
    (harrives : Arrives cid timeout (r :: message) deadline polls) :
    ∃ deadline' polls', Carries cid deadline' message polls' ∧
      recvBy timeout cid cmd deadline polls = initTurn cid cmd deadline' r polls' := by
  induction harrives with
  | @starts deadline polls h =>
      obtain ⟨polls', hrest, heq⟩ := recvBy_carried hcmd h
      exact ⟨deadline, polls', hrest, heq⟩
  | idle htime hidle _ ih =>
      obtain ⟨deadline', polls', hrest, heq⟩ := ih
      exact ⟨deadline', polls', hrest, (recvBy_idle htime hidle).trans heq⟩
  | keepalive htime hread hcid hkeepalive hcancel _ ih =>
      obtain ⟨deadline', polls', hrest, heq⟩ := ih
      refine ⟨deadline', polls', hrest, Eq.trans ?_ heq⟩
      rw [recvBy, Poll.waitReport_inTime htime, hread]
      refine (if_neg (not_not.mpr hcid)).trans ((if_pos hkeepalive).trans ?_)
      rw [hcancel]
      exact if_neg Bool.false_ne_true

/-! ### The sender's reports -/

/-- What the continuation at `offset` adds to what is there already. -/
theorem take_append_contReport (cid : UInt32) (seq : UInt8) {payload : List UInt8}
    {offset : Nat} :
    payload.take offset ++ ((contReport cid seq ((payload.drop offset).take
        (min (payload.length - offset) CONT_FRAME_DATA))).bytes.drop CONT_FRAME_HEADER).take
          (min (payload.length - offset) CONT_FRAME_DATA) =
      payload.take (offset + min (payload.length - offset) CONT_FRAME_DATA) := by
  have hlen : ((payload.drop offset).take
      (min (payload.length - offset) CONT_FRAME_DATA)).length =
        min (payload.length - offset) CONT_FRAME_DATA := by
    rw [List.length_take, List.length_drop, Nat.min_eq_left (Nat.min_le_left _ _)]
  have hdata := data_contReport cid seq (hlen.trans_le (Nat.min_le_right _ _))
  rw [hlen] at hdata
  rw [hdata, ← List.take_add]

/-- The first `i` continuations from number `k` on fill the payload in up to where number
`k + i` starts. -/
theorem recvCont_contReports {cid : UInt32} {deadline : Nat} {payload : List UInt8}
    (hlen : payload.length ≤ CTAPHID_MAX_PAYLOAD) {i k : Nat} {more : List Report}
    {polls : List Poll}
    (hi : i ≤ (contReports cid payload (contOffset payload.length k) (UInt8.ofNat k)).length)
    (hcarries : Carries cid deadline
      ((contReports cid payload (contOffset payload.length k) (UInt8.ofNat k)).take i ++ more)
      polls) :
    ∃ polls', Carries cid deadline more polls' ∧
      recvCont cid deadline payload.length (payload.take (contOffset payload.length k))
        (UInt8.ofNat k) polls =
      recvCont cid deadline payload.length (payload.take (contOffset payload.length (k + i)))
        (UInt8.ofNat (k + i)) polls' := by
  induction i generalizing k polls with
  | zero => exact ⟨polls, hcarries, rfl⟩
  | succ i ih =>
      by_cases hmore : contOffset payload.length k < payload.length
      · have hk := seq_lt hlen hmore
        rw [contReports_of_lt cid _ hmore, contOffset_succ hmore, seq_succ] at hi hcarries
        rw [List.take_succ_cons, List.cons_append] at hcarries
        have htaken : (payload.take (contOffset payload.length k)).length =
            contOffset payload.length k := List.length_take_of_le hmore.le
        obtain ⟨polls₁, hcarries₁, hturn⟩ := recvCont_next (UInt8.ofNat k)
          (htaken.trans_lt hmore) hcarries
        obtain ⟨polls₂, hcarries₂, hrun⟩ := ih (Nat.le_of_succ_le_succ hi) hcarries₁
        refine ⟨polls₂, hcarries₂, hturn.trans ?_⟩
        rw [Nat.add_right_comm, Nat.add_assoc] at hrun
        rw [contTurn, cmd_contReport, seq_masked hk, if_neg (not_not.mpr (seq_not_initial hk)),
          if_neg (not_not.mpr rfl), seq_succ, htaken, ← hrun]
        rw [take_append_contReport, contOffset_succ hmore]
      · rw [contReports_of_le cid _ (Nat.not_lt.mp hmore)] at hi
        cases hi

theorem length_contReports (cid : UInt32) (payload : List UInt8) (k : Nat) :
    payload.length ≤ contOffset payload.length
      (k + (contReports cid payload (contOffset payload.length k) (UInt8.ofNat k)).length) := by
  by_cases hmore : contOffset payload.length k < payload.length
  · rw [contReports_of_lt cid _ hmore, contOffset_succ hmore, seq_succ, List.length_cons]
    have ih := length_contReports cid payload (k + 1)
    rwa [Nat.add_right_comm, Nat.add_assoc] at ih
  · rw [contReports_of_le cid _ (Nat.not_lt.mp hmore)]
    exact Nat.not_lt.mp hmore
termination_by payload.length - contOffset payload.length k
decreasing_by
  unfold contOffset INIT_FRAME_DATA CONT_FRAME_DATA CTAPHID_REPORT_SIZE INIT_FRAME_HEADER
    CONT_FRAME_HEADER at *
  omega

theorem contOffset_lt (cid : UInt32) {payload : List UInt8} {i k : Nat}
    (hi : i < (contReports cid payload (contOffset payload.length k) (UInt8.ofNat k)).length) :
    contOffset payload.length (k + i) < payload.length := by
  induction i generalizing k with
  | zero =>
      by_contra hdone
      rw [Nat.add_zero] at hdone
      rw [contReports_of_le cid _ (Nat.not_lt.mp hdone)] at hi
      cases hi
  | succ i ih =>
      by_cases hmore : contOffset payload.length k < payload.length
      · rw [contReports_of_lt cid _ hmore, contOffset_succ hmore, seq_succ] at hi
        have h := ih (Nat.lt_of_succ_lt_succ hi)
        rwa [Nat.add_right_comm, Nat.add_assoc] at h
      · rw [contReports_of_le cid _ (Nat.not_lt.mp hmore)] at hi
        cases hi

theorem recvCont_done {cid : UInt32} {deadline bcnt : Nat} {payload : List UInt8} {seq : UInt8}
    (h : bcnt ≤ payload.length) (polls : List Poll) :
    recvCont cid deadline bcnt payload seq polls = some (.ok payload, polls) := by
  cases polls with
  | nil => rw [recvCont, if_neg (Nat.not_lt.mpr h)]
  | cons p polls => rw [recvCont, if_neg (Nat.not_lt.mpr h)]

section

variable {timeout : Nat} {cid : UInt32} {cmd : UInt8} {payload : List UInt8}

/-- After the initial report and `i` continuations, the receive is at continuation `i`. -/
theorem recv_reports (hkeepalive : cmd ≠ CTAPHID_KEEPALIVE) (herror : cmd ≠ CTAPHID_ERROR)
    (hlen : payload.length ≤ CTAPHID_MAX_PAYLOAD) {started i : Nat} {more : List Report}
    {polls : List Poll} (hi : i < (reports cid cmd payload).length)
    (harrives : Arrives cid timeout ((reports cid cmd payload).take (i + 1) ++ more)
      (started + timeout) polls) :
    ∃ deadline polls', Carries cid deadline more polls' ∧
      recv timeout cid cmd started polls =
        recvCont cid deadline payload.length (payload.take (contOffset payload.length i))
          (UInt8.ofNat i) polls' := by
  rw [reports_eq, List.take_succ_cons, List.cons_append] at harrives
  rw [reports_eq, List.length_cons] at hi
  obtain ⟨deadline, polls₁, hcarries₁, hturn⟩ := recvBy_next cmd
    ((cmd_initReport cid cmd payload).trans_ne hkeepalive) harrives
  obtain ⟨polls₂, hcarries₂, hrun⟩ := recvCont_contReports hlen (Nat.le_of_lt_succ hi) hcarries₁
  refine ⟨deadline, polls₂, hcarries₂, ?_⟩
  rw [Nat.zero_add] at hrun
  rw [recv, hturn, initTurn, cmd_initReport, if_neg herror, if_neg (not_not.mpr rfl),
    bcnt_initReport hlen, if_neg (Nat.not_lt.mpr hlen), data_initReport]
  exact hrun

theorem recv_delivers (hkeepalive : cmd ≠ CTAPHID_KEEPALIVE) (herror : cmd ≠ CTAPHID_ERROR)
    (hlen : payload.length ≤ CTAPHID_MAX_PAYLOAD) {started : Nat} {polls : List Poll}
    (harrives : Arrives cid timeout (reports cid cmd payload) (started + timeout) polls) :
    ∃ rest, recv timeout cid cmd started polls = some (.ok payload, rest) := by
  have hall : reports cid cmd payload = (reports cid cmd payload).take
      ((contReports cid payload (contOffset payload.length 0) (UInt8.ofNat 0)).length + 1) ++
        [] := by
    rw [List.append_nil, reports_eq, List.take_succ_cons, List.take_length]
  rw [hall] at harrives
  obtain ⟨deadline, polls', -, hrun⟩ := recv_reports hkeepalive herror hlen
    (by rw [reports_eq]; exact Nat.lt_succ_self _) harrives
  have hend := length_contReports cid payload 0
  rw [Nat.zero_add] at hend
  refine ⟨polls', hrun.trans ?_⟩
  rw [List.take_of_length_le hend]
  exact recvCont_done le_rfl polls'

/-- A report that follows `k + 1` of the reports of a longer message. -/
theorem recv_inside (hkeepalive : cmd ≠ CTAPHID_KEEPALIVE) (herror : cmd ≠ CTAPHID_ERROR)
    (hlen : payload.length ≤ CTAPHID_MAX_PAYLOAD) {started k : Nat} {r : Report}
    {polls : List Poll} (hk : k + 1 < (reports cid cmd payload).length)
    (harrives : Arrives cid timeout ((reports cid cmd payload).take (k + 1) ++ [r])
      (started + timeout) polls) :
    ∃ deadline polls', recv timeout cid cmd started polls =
      contTurn cid deadline payload.length (payload.take (contOffset payload.length k))
        (UInt8.ofNat k) r polls' := by
  obtain ⟨deadline, polls₁, hcarries, hrun⟩ :=
    recv_reports hkeepalive herror hlen (Nat.lt_of_succ_lt hk) harrives
  have hmore : contOffset payload.length (0 + k) < payload.length :=
    contOffset_lt cid (Nat.lt_of_succ_lt_succ hk)
  rw [Nat.zero_add] at hmore
  have htaken : (payload.take (contOffset payload.length k)).length < payload.length :=
    (List.length_take_of_le hmore.le).trans_lt hmore
  obtain ⟨polls₂, -, hturn⟩ := recvCont_next (UInt8.ofNat k) htaken hcarries
  exact ⟨deadline, polls₂, hrun.trans hturn⟩

theorem recv_tooLarge {started : Nat} {r : Report} {polls : List Poll}
    (hkeepalive : cmd ≠ CTAPHID_KEEPALIVE) (herror : cmd ≠ CTAPHID_ERROR) (hcmd : r.cmd = cmd)
    (hover : CTAPHID_MAX_PAYLOAD < r.bcnt)
    (harrives : Arrives cid timeout [r] (started + timeout) polls) :
    ∃ rest, recv timeout cid cmd started polls = some (.error (.payloadTooLarge r.bcnt), rest) := by
  obtain ⟨deadline, polls', -, hturn⟩ :=
    recvBy_next cmd (hcmd.trans_ne hkeepalive) harrives
  refine ⟨polls', hturn.trans ?_⟩
  rw [initTurn, if_neg (hcmd.trans_ne herror), if_neg (not_not.mpr hcmd), if_pos hover]

end

end Keyroost.Ctap
