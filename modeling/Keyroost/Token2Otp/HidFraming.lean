import Keyroost.Token2Otp.HidFrame

/-!
# What the assembler makes of a message's reports

The reports of one message may come in any order, with busy ones between them. In their order they
give the message back; out of it they are taken only in places that are right modulo 16.

`Offers` is a stream that brings the given reports with busy ones between them, and `BusyBelow` says
that the assembler can count them. Each kind of report has its lemma on `push`; `Collected` is what
the assembler holds after the first of a message's reports, and `drive_range` keeps it along the
stream. `drive_in_order` is the message in order, `drive_misplaced` and `drive_accepts` are about
any other order.
-/

namespace Keyroost.Token2Otp

open Piv (chunks chunksFrom flatten_chunks mem_chunks)
open Transport (splitSw swOf eq_of_splitSw splitSw_append)

/-! ### The chunks of a message -/

theorem length_chunksFrom {n left : Nat} {data : List UInt8} (hn : 0 < n)
    (hleft : data.length ≤ left) :
    (chunksFrom n left data).length = (data.length + (n - 1)) / n := by
  induction left generalizing data with
  | zero =>
      have hlen : data.length = 0 := Nat.le_zero.mp hleft
      rw [chunksFrom, List.length_nil, hlen, Nat.zero_add, Nat.div_eq_of_lt (by omega)]
  | succ left ih =>
      rw [chunksFrom]
      split
      · next hnil =>
          rw [hnil, List.length_nil, List.length_nil, Nat.zero_add, Nat.div_eq_of_lt (by omega)]
      · next hne =>
          have hpos : 0 < data.length := List.length_pos_iff.mpr hne
          have hdrop : (data.drop n).length ≤ left := by
            rw [List.length_drop]
            omega
          rw [List.length_cons, ih hdrop, List.length_drop]
          rcases Nat.lt_or_ge data.length n with hshort | hlong
          · have hone : (data.length + (n - 1)) / n = 1 :=
              Nat.div_eq_of_lt_le (by omega) (by omega)
            rw [hone, Nat.sub_eq_zero_of_le hshort.le, Nat.zero_add,
              Nat.div_eq_of_lt (by omega)]
          · rw [← Nat.add_div_right _ hn]
            congr 1
            omega

/-- An empty message has one chunk, an empty one. -/
def messageChunks (bytes : List UInt8) : List (List UInt8) :=
  if bytes = [] then [[]] else chunks MAX_CHUNK bytes

theorem maxChunk_pos : 0 < MAX_CHUNK := by decide

theorem flatten_messageChunks (bytes : List UInt8) : (messageChunks bytes).flatten = bytes := by
  rw [messageChunks]
  split
  · next hnil => exact hnil.symm
  · exact flatten_chunks maxChunk_pos bytes

theorem flatten_take_succ {bytes chunk : List UInt8} {j : Nat}
    (h : (messageChunks bytes)[j]? = some chunk) :
    ((messageChunks bytes).take (j + 1)).flatten =
      ((messageChunks bytes).take j).flatten ++ chunk := by
  rw [List.take_add_one, h, List.flatten_append, Option.toList_some, List.flatten_singleton]

theorem length_of_mem_messageChunks {bytes chunk : List UInt8} (h : chunk ∈ messageChunks bytes) :
    chunk.length ≤ MAX_CHUNK := by
  rw [messageChunks] at h
  split at h
  · rw [List.mem_singleton.mp h]
    exact Nat.zero_le _
  · exact (mem_chunks maxChunk_pos h).2

theorem messageChunks_length_pos (bytes : List UInt8) : 0 < (messageChunks bytes).length := by
  rw [messageChunks]
  split
  · exact Nat.one_pos
  · next hne => exact List.length_pos_iff.mpr (Piv.chunks_ne_nil maxChunk_pos hne)

def flagAt (bytes : List UInt8) (j : Nat) : UInt8 :=
  if j + 1 = (messageChunks bytes).length then FLAG_LAST else FLAG_MORE

/-- Each chunk has its report, numbered modulo 16, and the last one alone says so. -/
theorem buildSendFrames_eq (bytes : List UInt8) :
    buildSendFrames bytes =
      (messageChunks bytes).mapIdx fun j chunk => frame (flagAt bytes j) (j % 16).toUInt8 chunk := by
  rcases List.eq_nil_or_concat bytes with rfl | hconcat
  · rfl
  · have hne : bytes ≠ [] := by
      rintro rfl
      obtain ⟨_, _, h⟩ := hconcat
      exact absurd h.symm (by simp)
    have htotal : totalChunks bytes.length = (messageChunks bytes).length := by
      rw [messageChunks, if_neg hne]
      exact (length_chunksFrom maxChunk_pos (Nat.le_refl _)).symm
    simp only [buildSendFrames, if_neg hne, flagAt, htotal]
    rw [messageChunks, if_neg hne]

theorem length_buildSendFrames (bytes : List UInt8) :
    (buildSendFrames bytes).length = (messageChunks bytes).length := by
  rw [buildSendFrames_eq, List.length_mapIdx]

theorem getElem?_buildSendFrames {bytes f : List UInt8} {j : Nat}
    (h : (buildSendFrames bytes)[j]? = some f) :
    ∃ chunk, (messageChunks bytes)[j]? = some chunk ∧
      f = frame (flagAt bytes j) (j % 16).toUInt8 chunk := by
  rw [buildSendFrames_eq, List.getElem?_mapIdx, Option.map_eq_some_iff] at h
  obtain ⟨chunk, hchunk, hf⟩ := h
  exact ⟨chunk, hchunk, hf.symm⟩

/-- A message that fits in one report. -/
theorem buildSendFrames_short {bytes : List UInt8} (hne : bytes ≠ [])
    (hlen : bytes.length ≤ MAX_CHUNK) : buildSendFrames bytes = [frame FLAG_LAST 0 bytes] := by
  have hchunks : messageChunks bytes = [bytes] := by
    rw [messageChunks, if_neg hne, chunks]
    obtain ⟨left, hleft⟩ := Nat.exists_eq_add_one.mpr (List.length_pos_iff.mpr hne)
    rw [hleft, chunksFrom, if_neg hne, List.take_of_length_le hlen, List.drop_eq_nil_of_le hlen]
    cases left <;> rfl
  have hflag : flagAt bytes 0 = FLAG_LAST := by
    rw [flagAt, hchunks]
    rfl
  rw [buildSendFrames_eq, hchunks]
  exact congrArg (fun flags => [frame flags 0 bytes]) hflag

/-! ### Pushing one report -/

namespace ResponseAssembler

def isBusy (raw : List UInt8) : Bool :=
  match payloadOf raw with
  | magic :: control :: _ :: _ => magic == MAGIC && control &&& 0xF0 == FLAG_BUSY
  | _ => false

/-- An assembler that met one more busy report. -/
def stalled (asm : ResponseAssembler) : ResponseAssembler :=
  { asm with busyRetries := asm.busyRetries + 1 }

theorem push_busy {raw : List UInt8} (h : isBusy raw = true) (asm : ResponseAssembler) :
    asm.push raw = if asm.busyRetries = 0xFFFFFFFF then none
      else some (.ok (.busy (asm.busyRetries + 1)), asm.stalled) := by
  rw [isBusy] at h
  split at h
  · next magic control len rest hpayload =>
      obtain ⟨hmagic, hcontrol⟩ := Bool.and_eq_true_iff.mp h
      simp only [push, hpayload, ne_eq, eq_of_beq hmagic, not_true_eq_false, if_false,
        eq_of_beq hcontrol, if_true, stalled]
  · cases h

theorem payloadOf_frame (flags seq : UInt8) (chunk : List UInt8) :
    payloadOf (frame flags seq chunk) = (frame flags seq chunk).drop 1 := if_pos ⟨rfl, rfl⟩

theorem payloadOf_drop_frame (flags seq : UInt8) (chunk : List UInt8) :
    payloadOf ((frame flags seq chunk).drop 1) = (frame flags seq chunk).drop 1 := by
  refine if_neg ?_
  rintro ⟨hid, -⟩
  cases hid

/-- A report comes with the report ID in front or without it. -/
def Carries (raw f : List UInt8) : Prop := raw = f ∨ raw = f.drop 1

theorem Carries.payload {raw : List UInt8} {flags seq : UInt8} {chunk : List UInt8}
    (h : Carries raw (frame flags seq chunk)) :
    payloadOf raw = MAGIC :: (flags ||| seq) :: chunk.length.toUInt8 ::
      (chunk ++ List.replicate (MAX_CHUNK - chunk.length) 0x00) := by
  rcases h with rfl | rfl
  · exact payloadOf_frame flags seq chunk
  · exact payloadOf_drop_frame flags seq chunk

/-- The flags and the number of a report are read back. -/
theorem control_parts {flags : UInt8} (hflags : flags = FLAG_LAST ∨ flags = FLAG_MORE) (j : Nat) :
    (flags ||| (j % 16).toUInt8) &&& 0xF0 = flags ∧
      (flags ||| (j % 16).toUInt8) &&& 0x0F = (j % 16).toUInt8 := by
  have hlast : ∀ n < 16, (FLAG_LAST ||| n.toUInt8) &&& 0xF0 = FLAG_LAST ∧
      (FLAG_LAST ||| n.toUInt8) &&& 0x0F = n.toUInt8 := by decide
  have hmore : ∀ n < 16, (FLAG_MORE ||| n.toUInt8) &&& 0xF0 = FLAG_MORE ∧
      (FLAG_MORE ||| n.toUInt8) &&& 0x0F = n.toUInt8 := by decide
  have hj : j % 16 < 16 := Nat.mod_lt j (by decide)
  rcases hflags with rfl | rfl
  · exact hlast _ hj
  · exact hmore _ hj

theorem push_frame {raw : List UInt8} {flags : UInt8} {j : Nat} {chunk : List UInt8}
    (hflags : flags = FLAG_LAST ∨ flags = FLAG_MORE)
    (hraw : Carries raw (frame flags (j % 16).toUInt8 chunk)) (asm : ResponseAssembler) :
    asm.push raw = some (asm.accept flags (j % 16).toUInt8 chunk.length.toUInt8
      (chunk ++ List.replicate (MAX_CHUNK - chunk.length) 0x00)) := by
  obtain ⟨hhigh, hlow⟩ := control_parts hflags j
  have hbusy : flags ≠ FLAG_BUSY := by
    rcases hflags with rfl | rfl <;> decide
  simp only [push, hraw.payload, ne_eq, not_true_eq_false, if_false, hhigh, hlow, hbusy]

/-- The number that is expected next, where `k` reports were taken. -/
theorem expected_eq (k : Nat) : k.toUInt8 % 16 = (k % 16).toUInt8 := by
  apply UInt8.toNat_inj.mp
  rw [UInt8.toNat_mod]
  simp only [Nat.toUInt8, UInt8.toNat_ofNat', UInt8.reduceToNat]
  omega

theorem number_inj {j k : Nat} : (j % 16).toUInt8 = (k % 16).toUInt8 ↔ j % 16 = k % 16 := by
  rw [← UInt8.toNat_inj]
  simp only [Nat.toUInt8, UInt8.toNat_ofNat']
  omega

theorem received_succ (k : Nat) : k.toUInt8 + 1 = (k + 1).toUInt8 := (UInt8.ofNat_add k 1).symm

/-! ### Pushing a report of a message -/

section Message

variable {bytes raw f : List UInt8} {asm : ResponseAssembler} {j k : Nat}

theorem flagAt_cases (bytes : List UInt8) (j : Nat) :
    flagAt bytes j = FLAG_LAST ∨ flagAt bytes j = FLAG_MORE := by
  rw [flagAt]
  split
  · exact .inl rfl
  · exact .inr rfl

theorem length_toUInt8 {chunk : List UInt8} (h : chunk.length ≤ MAX_CHUNK) :
    chunk.length.toUInt8.toNat = chunk.length := by
  have hmax : MAX_CHUNK = 61 := rfl
  rw [hmax] at h
  rw [Nat.toUInt8, UInt8.toNat_ofNat']
  omega

/-- A report in another place modulo 16 is refused. -/
theorem push_misplaced (hf : (buildSendFrames bytes)[j]? = some f) (hraw : Carries raw f)
    (hreceived : asm.received = k.toUInt8) (hplace : j % 16 ≠ k % 16) :
    ∃ asm', asm.push raw =
      some (.error (.outOfSequence (k % 16).toUInt8 (j % 16).toUInt8), asm') := by
  obtain ⟨chunk, -, rfl⟩ := getElem?_buildSendFrames hf
  have hnumber : (j % 16).toUInt8 ≠ (k % 16).toUInt8 := fun h => hplace (number_inj.mp h)
  rw [push_frame (flagAt_cases bytes j) hraw, accept]
  simp only [hreceived, expected_eq, ne_eq, hnumber, not_false_eq_true, if_true]
  exact ⟨_, rfl⟩

/-- An assembler that took one more report. -/
def took (asm : ResponseAssembler) (chunk : List UInt8) (last : Bool) : ResponseAssembler where
  buf := asm.buf ++ chunk
  received := asm.received + 1
  busyRetries := 0
  done := asm.done || last

/-- A report in its place modulo 16 is taken, as far as it fits. -/
theorem push_placed (hf : (buildSendFrames bytes)[j]? = some f) (hraw : Carries raw f)
    (hreceived : asm.received = k.toUInt8) (hplace : j % 16 = k % 16) :
    ∃ chunk, (messageChunks bytes)[j]? = some chunk ∧
      (MAX_RESPONSE < asm.buf.length + chunk.length →
        ∃ asm', asm.push raw = some (.error .responseTooLong, asm')) ∧
      (asm.buf.length + chunk.length ≤ MAX_RESPONSE →
        asm.push raw =
          if j + 1 = (messageChunks bytes).length then some (.ok .done, asm.took chunk true)
          else some (.ok .needMore, asm.took chunk false)) := by
  obtain ⟨chunk, hchunk, rfl⟩ := getElem?_buildSendFrames hf
  have hlen : chunk.length ≤ MAX_CHUNK :=
    length_of_mem_messageChunks (List.mem_of_getElem? hchunk)
  have hnumber : (j % 16).toUInt8 = (k % 16).toUInt8 := number_inj.mpr hplace
  have hroom : ¬ (chunk ++ List.replicate (MAX_CHUNK - chunk.length) 0x00).length <
      chunk.length := by
    rw [List.length_append]
    omega
  have hpush : asm.push raw =
      if MAX_RESPONSE < asm.buf.length + chunk.length then
        some (.error .responseTooLong, { asm with busyRetries := 0, received := asm.received + 1 })
      else if flagAt bytes j &&& FLAG_MORE ≠ 0 then some (.ok .needMore, asm.took chunk false)
      else some (.ok .done, asm.took chunk true) := by
    rw [push_frame (flagAt_cases bytes j) hraw, accept]
    simp only [hreceived, expected_eq, hnumber, ne_eq, not_true_eq_false, if_false,
      length_toUInt8 hlen, Nat.not_lt.mpr hlen, hroom, List.take_left', took, Bool.or_false,
      Bool.or_true]
    split
    · rfl
    · split <;> rfl
  refine ⟨chunk, hchunk, ?_, ?_⟩
  · intro hlong
    rw [hpush, if_pos hlong]
    exact ⟨_, rfl⟩
  · intro hfits
    rw [hpush, if_neg (Nat.not_lt.mpr hfits), flagAt]
    split
    · exact if_neg (by decide)
    · exact if_pos (by decide)

end Message

/-! ### Sequences of reports -/

/-- Reports of one message, those with the numbers `js` in this order, and busy reports between
them. -/
inductive Offers (frames : List (List UInt8)) : List Nat → List (List UInt8) → Prop
  | nil : Offers frames [] []
  | busy {js : List Nat} {raw : List UInt8} {raws : List (List UInt8)}
      (hbusy : isBusy raw = true) (hrest : Offers frames js raws) : Offers frames js (raw :: raws)
  | report {j : Nat} {js : List Nat} {f raw : List UInt8} {raws : List (List UInt8)}
      (hf : frames[j]? = some f) (hraw : Carries raw f) (hrest : Offers frames js raws) :
      Offers frames (j :: js) (raw :: raws)

/-- The places are right modulo 16, from place `k` on. -/
def PlacedFrom (k : Nat) (js : List Nat) : Prop := ∀ i j, js[i]? = some j → j % 16 = (k + i) % 16

theorem PlacedFrom.cons {j k : Nat} {js : List Nat} (hj : j % 16 = k % 16)
    (hjs : PlacedFrom (k + 1) js) : PlacedFrom k (j :: js) := by
  intro i j' hi
  cases i with
  | zero =>
      cases hi
      exact hj
  | succ i =>
      have hplace := hjs i j' hi
      rw [Nat.add_right_comm] at hplace
      exact hplace

section Drives

variable {bytes : List UInt8} {raws rest : List (List UInt8)} {asm a : ResponseAssembler}
  {js : List Nat} {j k : Nat}

theorem drive_busy {raw : List UInt8} (h : isBusy raw = true) (asm : ResponseAssembler) :
    asm.drive (raw :: raws) =
      if asm.busyRetries = 0xFFFFFFFF then .panicked else asm.stalled.drive raws := by
  rw [drive, push_busy h]
  by_cases hfull : asm.busyRetries = 0xFFFFFFFF
  · rw [if_pos hfull, if_pos hfull]
  · rw [if_neg hfull, if_neg hfull]

/-- A drive that comes to an end went on behind its busy report. -/
theorem drive_busy_done {raw : List UInt8} (h : isBusy raw = true)
    (hdone : asm.drive (raw :: raws) = .done a rest) : asm.stalled.drive raws = .done a rest := by
  rw [drive_busy h] at hdone
  split at hdone
  · cases hdone
  · exact hdone

theorem drive_refused {raw : List UInt8} {e : FrameError} {asm' : ResponseAssembler}
    (h : asm.push raw = some (.error e, asm')) : asm.drive (raw :: raws) = .refused e := by
  rw [drive, h]

theorem drive_needMore {raw : List UInt8} {asm' : ResponseAssembler}
    (h : asm.push raw = some (.ok .needMore, asm')) :
    asm.drive (raw :: raws) = asm'.drive raws := by
  rw [drive, h]

theorem drive_last {raw : List UInt8} {asm' : ResponseAssembler}
    (h : asm.push raw = some (.ok .done, asm')) : asm.drive (raw :: raws) = .done asm' raws := by
  rw [drive, h]

/-! ### The count of busy reports -/

/-- Fewer than 2^32 busy reports come in a row. -/
def BusyBelow (raws : List (List UInt8)) : Prop :=
  ∀ run, run <:+: raws → (∀ raw ∈ run, isBusy raw = true) → run.length < 2 ^ 32

theorem busyBelow_of_length {raws : List (List UInt8)} (h : raws.length < 2 ^ 32) :
    BusyBelow raws := fun _ hrun _ => Nat.lt_of_le_of_lt hrun.length_le h

/-- The count of an assembler has room for every run of busy reports that is still to come. A report
that is not busy sets it back, so only runs count, and the first goes on from the count so far. -/
structure Spared (asm : ResponseAssembler) (raws : List (List UInt8)) : Prop where
  now : ∀ run, run <+: raws → (∀ raw ∈ run, isBusy raw = true) →
    asm.busyRetries.toNat + run.length < 2 ^ 32
  later : BusyBelow raws

theorem BusyBelow.tail {raw : List UInt8} (h : BusyBelow (raw :: raws)) : BusyBelow raws :=
  fun run hrun hbusy => h run (hrun.trans (List.suffix_cons raw raws).isInfix) hbusy

/-- An assembler whose count is at zero. -/
theorem BusyBelow.spared (h : BusyBelow raws) (hzero : asm.busyRetries = 0) : Spared asm raws := by
  refine ⟨fun run hrun hbusy => ?_, h⟩
  rw [hzero]
  simpa using h run hrun.isInfix hbusy

theorem Spared.tail {raw : List UInt8} {asm' : ResponseAssembler} (h : Spared asm (raw :: raws))
    (hzero : asm'.busyRetries = 0) : Spared asm' raws := h.later.tail.spared hzero

/-- One more busy report is counted. -/
theorem Spared.busy {raw : List UInt8} (h : Spared asm (raw :: raws)) (hbusy : isBusy raw = true) :
    asm.drive (raw :: raws) = asm.stalled.drive raws ∧ Spared asm.stalled raws := by
  have hone : ∀ run, run <+: raws → (∀ raw ∈ run, isBusy raw = true) →
      asm.busyRetries.toNat + (run.length + 1) < 2 ^ 32 := by
    intro run hrun hall
    refine h.now (raw :: run) (List.cons_prefix_cons.mpr ⟨rfl, hrun⟩) ?_
    intro raw' hmem
    rcases List.mem_cons.mp hmem with rfl | hmem
    · exact hbusy
    · exact hall raw' hmem
  have hroom : asm.busyRetries.toNat + 1 < 2 ^ 32 := hone [] List.nil_prefix (by simp)
  have hfull : asm.busyRetries ≠ 0xFFFFFFFF := by
    intro heq
    rw [heq] at hroom
    exact absurd hroom (by decide)
  have hcount : asm.stalled.busyRetries.toNat = asm.busyRetries.toNat + 1 := by
    rw [stalled, UInt32.toNat_add, UInt32.toNat_one]
    exact Nat.mod_eq_of_lt hroom
  refine ⟨by rw [drive_busy hbusy, if_neg hfull], fun run hrun hall => ?_, h.later.tail⟩
  rw [hcount, Nat.add_assoc, Nat.add_comm 1]
  exact hone run hrun hall

/-! ### Driving an assembler -/

/-- A done assembler was given reports in places right modulo 16, the last one at the end, and
holds their chunks. -/
structure Collected (bytes : List UInt8) (k : Nat) (js : List Nat) (before after : List UInt8) :
    Prop where
  placed : PlacedFrom k js
  last : js.getLast? = some ((messageChunks bytes).length - 1)
  buf : after = before ++ js.flatMap fun j => (messageChunks bytes).getD j []

theorem drive_done (h : Offers (buildSendFrames bytes) js raws)
    (hreceived : asm.received = k.toUInt8) (hdone : asm.drive raws = .done a rest) :
    ∃ ps qs, js = ps ++ qs ∧ Collected bytes k ps asm.buf a.buf ∧
      Offers (buildSendFrames bytes) qs rest := by
  induction h generalizing asm k with
  | nil => cases hdone
  | busy hbusy _ ih =>
      have hstalled : asm.stalled.received = k.toUInt8 := hreceived
      have hfound := ih hstalled (drive_busy_done hbusy hdone)
      exact hfound
  | @report j js f raw raws hf hraw hrest ih =>
      by_cases hplace : j % 16 = k % 16
      · obtain ⟨chunk, hchunk, hlong, hfits⟩ := push_placed hf hraw hreceived hplace
        have hget : (messageChunks bytes).getD j [] = chunk := by
          rw [List.getD_eq_getElem?_getD, hchunk, Option.getD_some]
        rcases Nat.lt_or_ge MAX_RESPONSE (asm.buf.length + chunk.length) with hmax | hmax
        · obtain ⟨asm', herror⟩ := hlong hmax
          rw [drive_refused herror] at hdone
          cases hdone
        · have hpush := hfits hmax
          by_cases hlast : j + 1 = (messageChunks bytes).length
          · rw [if_pos hlast] at hpush
            rw [drive_last hpush] at hdone
            cases hdone
            refine ⟨[j], js, rfl, ⟨?_, ?_, ?_⟩, hrest⟩
            · exact .cons hplace (by intro i j' hi; cases hi)
            · rw [List.getLast?_singleton]
              congr 1
              omega
            · rw [List.flatMap_singleton, hget]
              rfl
          · rw [if_neg hlast] at hpush
            rw [drive_needMore hpush] at hdone
            have hnext : (asm.took chunk false).received = (k + 1).toUInt8 := by
              rw [took, hreceived]
              exact received_succ k
            obtain ⟨ps, qs, rfl, hcollected, hoffers⟩ := ih hnext hdone
            refine ⟨j :: ps, qs, rfl, ⟨?_, ?_, ?_⟩, hoffers⟩
            · exact hcollected.placed.cons hplace
            · rw [List.getLast?_cons, hcollected.last]
              rfl
            · rw [hcollected.buf, List.flatMap_cons, hget, took, List.append_assoc]
      · obtain ⟨asm', herror⟩ := push_misplaced hf hraw hreceived hplace
        rw [drive_refused herror] at hdone
        cases hdone

/-- The reports before the last one leave an assembler that waits for the next. -/
theorem drive_range {m : Nat} (h : Offers (buildSendFrames bytes) (List.range' k m ++ js) raws)
    (hspared : Spared asm raws) (hreceived : asm.received = k.toUInt8)
    (hbuf : asm.buf = ((messageChunks bytes).take k).flatten)
    (hm : k + m < (messageChunks bytes).length) (hfits : bytes.length ≤ MAX_RESPONSE) :
    ∃ (asm' : ResponseAssembler) (raws' : List (List UInt8)), asm.drive raws = asm'.drive raws' ∧
      Offers (buildSendFrames bytes) js raws' ∧ Spared asm' raws' ∧
      asm'.received = (k + m).toUInt8 ∧
      asm'.buf = ((messageChunks bytes).take (k + m)).flatten := by
  generalize hall : List.range' k m ++ js = all at h
  induction h generalizing asm k m with
  | nil =>
      obtain ⟨hrange, hjs⟩ := List.append_eq_nil_iff.mp hall
      have hzero : m = 0 := List.range'_eq_nil_iff.mp hrange
      subst hjs hzero
      exact ⟨asm, [], rfl, .nil, hspared, hreceived, hbuf⟩
  | @busy _ raw raws hbusy hrest ih =>
      obtain ⟨hdrive, hnext⟩ := hspared.busy hbusy
      rw [hdrive]
      have hstalled : asm.stalled.received = k.toUInt8 := hreceived
      exact ih hnext hstalled hbuf hm hall
  | @report j _ f raw raws hf hraw hrest ih =>
      cases m with
      | zero =>
          refine ⟨asm, raw :: raws, rfl, ?_, hspared, hreceived, hbuf⟩
          rw [List.range'_zero, List.nil_append] at hall
          rw [hall]
          exact .report hf hraw hrest
      | succ m =>
          rw [List.range'_succ, List.cons_append, List.cons.injEq] at hall
          obtain ⟨rfl, hall⟩ := hall
          obtain ⟨chunk, hchunk, -, hpush⟩ := push_placed hf hraw hreceived rfl
          have hlast : k + 1 ≠ (messageChunks bytes).length := by omega
          have htake : ((messageChunks bytes).take (k + 1)).flatten = asm.buf ++ chunk := by
            rw [flatten_take_succ hchunk, hbuf]
          have hroom : asm.buf.length + chunk.length ≤ MAX_RESPONSE := by
            rw [← List.length_append, ← htake]
            refine Nat.le_trans ?_ hfits
            have hsplit := congrArg List.length (flatten_messageChunks bytes)
            rw [← List.take_append_drop (k + 1) (messageChunks bytes), List.flatten_append,
              List.length_append] at hsplit
            omega
          have hstep := hpush hroom
          rw [if_neg hlast] at hstep
          rw [drive_needMore hstep]
          have hnext : (asm.took chunk false).received = (k + 1).toUInt8 := by
            rw [took, hreceived]
            exact received_succ k
          have hplus : k + 1 + m = k + (m + 1) := by omega
          rw [← hplus] at hm ⊢
          exact ih (hspared.tail rfl) hnext htake.symm hm hall

theorem new_received : new.received = (0 : Nat).toUInt8 := rfl

theorem new_buf (bytes : List UInt8) :
    new.buf = ((messageChunks bytes).take 0).flatten := rfl

/-- In its order, with busy reports between, a message is done at its last report. -/
theorem drive_in_order (h : Offers (buildSendFrames bytes)
      (List.range (buildSendFrames bytes).length) raws) (hbelow : BusyBelow raws)
    (hfits : bytes.length ≤ MAX_RESPONSE) :
    ∃ (a : ResponseAssembler) (rest : List (List UInt8)), new.drive raws = .done a rest ∧
      Offers (buildSendFrames bytes) [] rest ∧ a.buf = bytes ∧ a.done = true := by
  obtain ⟨m, hm⟩ := Nat.exists_eq_add_one.mpr (messageChunks_length_pos bytes)
  rw [length_buildSendFrames, List.range_eq_range', hm, List.range'_1_concat, Nat.zero_add] at h
  obtain ⟨asm, raws', hdrive, hoffers, hspared, hreceived, hbuf⟩ :=
    drive_range h (hbelow.spared rfl) new_received (new_buf bytes) (by omega) hfits
  rw [Nat.zero_add] at hreceived hbuf
  rw [hdrive]
  clear hdrive h
  generalize hjs : [m] = js at hoffers
  induction hoffers generalizing asm with
  | nil => cases hjs
  | @busy js raw raws hbusy hrest ih =>
      obtain ⟨hnext, hspared'⟩ := hspared.busy hbusy
      rw [hnext]
      exact ih asm.stalled hspared' hreceived hbuf hjs
  | @report j js f raw raws hf hraw hrest ih =>
      cases hjs
      obtain ⟨chunk, hchunk, -, hpush⟩ := push_placed hf hraw hreceived rfl
      have hwhole : asm.buf ++ chunk = bytes := by
        rw [hbuf, ← flatten_take_succ hchunk, List.take_of_length_le hm.le,
          flatten_messageChunks]
      have hroom : asm.buf.length + chunk.length ≤ MAX_RESPONSE := by
        rw [← List.length_append, hwhole]
        exact hfits
      have hstep := hpush hroom
      rw [if_pos hm.symm] at hstep
      rw [drive_last hstep]
      refine ⟨_, raws, rfl, hrest, hwhole, ?_⟩
      rw [took, Bool.or_true]

/-- The first report that is out of its place is refused at once, unless its place is right
modulo 16. -/
theorem drive_misplaced (h : Offers (buildSendFrames bytes) (List.range k ++ j :: js) raws)
    (hbelow : BusyBelow raws) (hk : k < (buildSendFrames bytes).length) (hplace : j % 16 ≠ k % 16)
    (hfits : bytes.length ≤ MAX_RESPONSE) :
    new.drive raws = .refused (.outOfSequence (k % 16).toUInt8 (j % 16).toUInt8) := by
  rw [length_buildSendFrames] at hk
  rw [List.range_eq_range'] at h
  obtain ⟨asm, raws', hdrive, hoffers, hspared, hreceived, -⟩ :=
    drive_range h (hbelow.spared rfl) new_received (new_buf bytes) (by omega) hfits
  rw [Nat.zero_add] at hreceived
  rw [hdrive]
  clear hdrive h
  generalize hall : j :: js = all at hoffers
  induction hoffers generalizing asm with
  | nil => cases hall
  | @busy _ raw raws hbusy hrest ih =>
      obtain ⟨hnext, hspared'⟩ := hspared.busy hbusy
      rw [hnext]
      exact ih asm.stalled hspared' hreceived hall
  | report hf hraw hrest ih =>
      cases hall
      obtain ⟨asm', herror⟩ := push_misplaced hf hraw hreceived hplace
      exact drive_refused herror

/-- Whatever is accepted was in places right modulo 16. -/
theorem drive_accepts (h : Offers (buildSendFrames bytes) js raws)
    (hdone : new.drive raws = .done a rest) :
    ∃ ps qs, js = ps ++ qs ∧ Offers (buildSendFrames bytes) qs rest ∧
      ps.getLast? = some ((buildSendFrames bytes).length - 1) ∧
      (∀ i j, ps[i]? = some j → j % 16 = i % 16) ∧
      ps.length % 16 = (buildSendFrames bytes).length % 16 := by
  obtain ⟨ps, qs, hjs, hcollected, hoffers⟩ := drive_done h rfl hdone
  have hplaced : ∀ i j, ps[i]? = some j → j % 16 = i % 16 := by
    intro i j hi
    have hplace := hcollected.placed i j hi
    rwa [Nat.zero_add] at hplace
  have hlast := hcollected.last
  rw [← length_buildSendFrames] at hlast
  refine ⟨ps, qs, hjs, hoffers, hlast, hplaced, ?_⟩
  have hpos : 0 < (buildSendFrames bytes).length := by
    rw [length_buildSendFrames]
    exact messageChunks_length_pos bytes
  rw [List.getLast?_eq_getElem?] at hlast
  have hplace := hplaced _ _ hlast
  have hps : 0 < ps.length := by
    rw [List.length_pos_iff]
    rintro rfl
    cases hlast
  omega

theorem finish_ok {data : List UInt8} {sw : UInt16} (h : asm.finish = .ok (data, sw)) :
    ∃ sw1 sw2, sw = swOf sw1 sw2 ∧ asm.buf = data ++ [sw1, sw2] := by
  rw [finish, intoResponse] at h
  rcases hsplit : splitSw asm.buf with _ | ⟨data', sw1, sw2⟩
  · rw [hsplit] at h
    cases h
  · rw [hsplit] at h
    cases h
    exact ⟨sw1, sw2, rfl, eq_of_splitSw hsplit⟩

/-- The data with the status word behind it is what was collected. -/
theorem intoResponse_of_append {data : List UInt8} {sw1 sw2 : UInt8}
    (h : asm.buf = data ++ [sw1, sw2]) : asm.intoResponse = some (data, swOf sw1 sw2) := by
  rw [intoResponse, h, splitSw_append]
  rfl

end Drives

end ResponseAssembler

end Keyroost.Token2Otp
