import Keyroost.Ctap.LargeBlobEdits
import Keyroost.Ctap.LargeBlobExchange

/-!
# Transferring the array

Against an authenticator that follows the rules, what `write` sends is what `read` fetches, as long
as the reader's own ceiling of 64 KiB allows; against any device, the reader stops.

The whole write is an induction over the fragments that are left, from the single exchange of
`LargeBlobExchange`: after each of them the authenticator has the array's beginning, and after the
last it has replaced the stored one. The whole read is an induction over the bytes that are left.
For a device of any kind there is no such invariant, and `length_sent_readLoop` counts requests
instead. `transfer_sound` states all three, and `bigNote_unread` is an array over the ceiling,
which is written and cannot be read again.
-/

namespace Keyroost.Ctap

open Cbor

section

variable {c : Crypto} {auth : Authenticator}

/-! ### The whole write -/

/-- The requests of fragments that follow one another from `offset`, none of them with a
total. -/
def laterRequests (c : Crypto) (token : PinUvAuthToken) : Nat → List (List UInt8) →
    List (List UInt8)
  | _, [] => []
  | offset, fragment :: fragments =>
      requestBytes (setParams c token offset none fragment) ::
        laterRequests c token (offset + fragment.length) fragments

/-- The requests of a whole array, the total with the first fragment. -/
def transferRequests (c : Crypto) (token : PinUvAuthToken) (total : Nat) :
    List (List UInt8) → List (List UInt8)
  | [] => []
  | fragment :: fragments =>
      requestBytes (setParams c token 0 (some total) fragment) ::
        laterRequests c token fragment.length fragments

/-- One turn of `write`, when the device answers with a zero status. -/
theorem writeLoop_step {dev : Device BlobStore} {token : PinUvAuthToken}
    {frag : { n : Nat // 0 < n }} {serialized : List UInt8} {offset : Nat} {l : Link BlobStore}
    {st' : BlobStore} (hoffset : offset < serialized.length)
    (hdev : dev l.state (requestBytes (setParams c token offset (totalAt serialized offset)
      ((serialized.take (min (offset + frag.val) serialized.length)).drop offset))) =
        (.ok [0x00], st')) :
    writeLoop c dev token frag serialized offset l =
      writeLoop c dev token frag serialized (min (offset + frag.val) serialized.length)
        { state := st'
          sent := l.sent ++ [requestBytes (setParams c token offset (totalAt serialized offset)
            ((serialized.take (min (offset + frag.val) serialized.length)).drop offset))] } := by
  rw [writeLoop, if_pos hoffset]
  unfold totalAt at hdev ⊢
  simp only [dispatch, transact, hdev]
  rfl

theorem fragment_append_drop {serialized : List UInt8} {offset stop : Nat} (h : offset ≤ stop)
    (hend : stop ≤ serialized.length) :
    (serialized.take stop).drop offset ++ serialized.drop stop = serialized.drop offset := by
  have hlen : offset ≤ (serialized.take stop).length := by
    rw [List.length_take_of_le hend]
    exact h
  rw [← List.drop_append_of_le_length hlen, List.take_append_drop]

/-- One turn of `write` against the authenticator. -/
theorem writeLoop_turn {array serialized : List UInt8}
    (hserialized : serialized = array ++ c.left16Sha256 array) (hlong : 17 ≤ serialized.length)
    (hcap : serialized.length ≤ 1024 ∨ serialized.length ≤ auth.capacity) {offset : Nat}
    {l : Link BlobStore}
    (hoffset : offset < serialized.length) (hexpects : l.state.Expects serialized offset) :
    ∃ st' stop, offset < stop ∧ stop ≤ serialized.length ∧
      stop - offset ≤ auth.maxFragmentLength ∧
      (stop < serialized.length → st'.Expects serialized stop) ∧
      (stop = serialized.length → st'.stored = serialized) ∧
      writeLoop c (auth.device c) auth.token (maxFragmentLength auth.info) serialized offset l =
        writeLoop c (auth.device c) auth.token (maxFragmentLength auth.info) serialized stop
          { state := st'
            sent := l.sent ++ [requestBytes (setParams c auth.token offset
              (totalAt serialized offset) ((serialized.take stop).drop offset))] } := by
  have hfrag := (maxFragmentLength auth.info).property
  have hinfo := maxFragmentLength_info auth
  have hstop : offset < min (offset + (maxFragmentLength auth.info).val) serialized.length := by
    omega
  obtain ⟨st', hdev, hmore, hdone⟩ := device_set hserialized hlong hcap hstop
    (Nat.min_le_right _ _) (by omega) hexpects
  exact ⟨st', _, hstop, Nat.min_le_right _ _, by omega, hmore, hdone, writeLoop_step hoffset hdev⟩

/-- The write from any later offset the authenticator is at. -/
theorem writeLoop_later {array serialized : List UInt8}
    (hserialized : serialized = array ++ c.left16Sha256 array) (hlong : 17 ≤ serialized.length)
    (hcap : serialized.length ≤ 1024 ∨ serialized.length ≤ auth.capacity) {offset : Nat}
    {l : Link BlobStore}
    (hpos : 0 < offset) (hoffset : offset ≤ serialized.length)
    (hexpects : offset < serialized.length → l.state.Expects serialized offset)
    (hdone : offset = serialized.length → l.state.stored = serialized) :
    ∃ l' fragments,
      writeLoop c (auth.device c) auth.token (maxFragmentLength auth.info) serialized offset l =
        (.ok (), l') ∧ l'.state.stored = serialized ∧
      fragments.flatten = serialized.drop offset ∧
      (∀ f ∈ fragments, 0 < f.length ∧ f.length ≤ auth.maxFragmentLength) ∧
      l'.sent = l.sent ++ laterRequests c auth.token offset fragments := by
  induction hleft : serialized.length - offset using Nat.strong_induction_on
    generalizing offset l with
  | _ left ih =>
      by_cases hmore : offset < serialized.length
      · obtain ⟨st', stop, hstop, hend, hfrag, hexpects', hdone', hturn⟩ :=
          writeLoop_turn hserialized hlong hcap hmore (hexpects hmore)
        obtain ⟨l', fragments, hloop, hstored, hflat, hfragments, hsent⟩ :=
          ih (serialized.length - stop) (by omega) (l := { state := st', sent := _ })
            (by omega) hend hexpects' hdone' rfl
        have hlen : ((serialized.take stop).drop offset).length = stop - offset := by
          rw [List.length_drop, List.length_take_of_le hend]
        have hnone : totalAt serialized offset = none := if_neg hpos.ne'
        refine ⟨l', (serialized.take stop).drop offset :: fragments, hturn.trans hloop, hstored,
          ?_, ?_, ?_⟩
        · rw [List.flatten_cons, hflat, fragment_append_drop hstop.le hend]
        · rw [List.forall_mem_cons, hlen]
          exact ⟨⟨by omega, hfrag⟩, hfragments⟩
        · rw [hsent, laterRequests, hlen, hnone, Nat.add_sub_cancel' hstop.le, List.append_assoc,
            List.singleton_append]
      · refine ⟨l, [], ?_, hdone (by omega), ?_, by simp, by simp [laterRequests]⟩
        · rw [writeLoop, if_neg hmore]
        · rw [List.flatten_nil, List.drop_eq_nil_of_le (Nat.not_lt.mp hmore)]

/-- Every serialised array within the authenticator's capacity is written, in
consecutive fragments within its fragment length. -/
theorem write_accepted {array serialized : List UInt8}
    (hserialized : serialized = array ++ c.left16Sha256 array) (hlong : 17 ≤ serialized.length)
    (hcap : serialized.length ≤ 1024 ∨ serialized.length ≤ auth.capacity) (l : Link BlobStore) :
    ∃ l' fragments, write c (auth.device c) auth.info auth.token serialized l = (.ok (), l') ∧
      l'.state.stored = serialized ∧ fragments.flatten = serialized ∧
      (∀ f ∈ fragments, 0 < f.length ∧ f.length ≤ auth.maxFragmentLength) ∧
      l'.sent = l.sent ++ transferRequests c auth.token serialized.length fragments := by
  obtain ⟨st', stop, hstop, hend, hfrag, hexpects, hdone, hturn⟩ :=
    writeLoop_turn hserialized hlong hcap (l := l) (show 0 < serialized.length by omega)
      (fun h => absurd rfl h)
  obtain ⟨l', fragments, hloop, hstored, hflat, hfragments, hsent⟩ :=
    writeLoop_later hserialized hlong hcap (l := { state := st', sent := _ }) hstop hend hexpects
      hdone
  have hlen : ((serialized.take stop).drop 0).length = stop := by
    rw [List.drop_zero, List.length_take_of_le hend]
  refine ⟨l', (serialized.take stop).drop 0 :: fragments, hturn.trans hloop, hstored, ?_, ?_, ?_⟩
  · rw [List.flatten_cons, hflat, fragment_append_drop hstop.le hend, List.drop_zero]
  · rw [List.forall_mem_cons, hlen]
    exact ⟨⟨hstop, hfrag⟩, hfragments⟩
  · rw [hsent, transferRequests, hlen, List.append_assoc, List.singleton_append]
    rfl

/-- A write that is accepted was of no more than the authenticator stores. -/
theorem fits_of_write {serialized : List UInt8} {l : Link BlobStore} (hlong : 0 < serialized.length)
    (hsize : serialized.length < 2 ^ 64)
    (h : (write c (auth.device c) auth.info auth.token serialized l).1 = .ok ()) :
    serialized.length ≤ 1024 ∨ serialized.length ≤ auth.capacity := by
  by_contra hnot
  have hfull : 1024 < serialized.length ∧ auth.capacity < serialized.length := by omega
  have hfirst : ((serialized.take (min (0 + (maxFragmentLength auth.info).val)
      serialized.length)).drop 0).length < 2 ^ 64 := by
    rw [List.drop_zero, List.length_take]
    omega
  rcases @device_set_full c auth l.state _ _ hsize hfirst hfull with ⟨status, hstatus, hdev⟩
  rw [write, writeLoop, if_pos hlong] at h
  simp only [dispatch, transact, if_true, hdev] at h
  have herror : (Except.ok [status] >>= readResponse : Except CtapError Value) =
      .error (.statusCode status) := if_pos hstatus
  rw [herror] at h
  cases h

/-! ### The whole read -/

/-- The fragments still to come are one less after a full one. -/
theorem add_fullFragments {frag left : Nat} (hfrag : 0 < frag) (hle : frag ≤ left) :
    frag + (left - frag) / frag * frag = left / frag * frag := by
  rw [Nat.div_eq_sub_div hfrag hle, Nat.add_mul, Nat.one_mul, Nat.add_comm]

/-- What has been read up to `offset` and one more fragment. -/
theorem take_append_take {stored : List UInt8} (offset frag : Nat) :
    stored.take offset ++ (stored.drop offset).take frag = stored.take (offset + frag) :=
  List.take_add.symm

/-- The read loop from an offset it can get to: it ends with the whole array, or, when
the full fragments come to more than the ceiling, with an error. -/
theorem readLoop_ok {offset : Nat} {l : Link BlobStore} (hoffset : offset ≤ l.state.stored.length)
    (hstored : l.state.stored.length < 2 ^ 32) (hceiling : offset ≤ MAX_READ) :
    (readLoop (auth.device c) (maxFragmentLength auth.info) (l.state.stored.take offset) offset
        l).1 =
      if offset + (l.state.stored.length - offset) / (maxFragmentLength auth.info).val *
          (maxFragmentLength auth.info).val ≤ MAX_READ then .ok l.state.stored
      else .error tooLarge := by
  induction hleft : l.state.stored.length - offset using Nat.strong_induction_on
    generalizing offset l with
  | _ left ih =>
      have hfrag := (maxFragmentLength auth.info).property
      have hlen : ((l.state.stored.drop offset).take (maxFragmentLength auth.info).val).length =
          min (maxFragmentLength auth.info).val left := by
        rw [List.length_take, List.length_drop, hleft]
      rw [readLoop, readFragment_ok hoffset hstored]
      simp only [hlen, take_append_take]
      by_cases hshort : left < (maxFragmentLength auth.info).val
      · -- a short fragment: the end of the array
        rw [if_pos (by omega), Nat.div_eq_of_lt hshort, Nat.zero_mul, Nat.add_zero,
          if_pos hceiling, List.take_of_length_le (by omega)]
      · have hfull : min (maxFragmentLength auth.info).val left =
            (maxFragmentLength auth.info).val := by omega
        have hnext := add_fullFragments hfrag (Nat.not_lt.mp hshort)
        have htaken : (l.state.stored.take (offset + (maxFragmentLength auth.info).val)).length =
            offset + (maxFragmentLength auth.info).val :=
          List.length_take_of_le (by omega)
        rw [if_neg (by omega), hfull, htaken]
        by_cases hlarge : MAX_READ < offset + (maxFragmentLength auth.info).val
        · rw [if_pos hlarge, if_neg (by omega)]
        · rw [if_neg hlarge]
          have hrest := @ih (left - (maxFragmentLength auth.info).val) (by omega)
            (offset + (maxFragmentLength auth.info).val)
            { state := l.state
              sent := l.sent ++
                [requestBytes (getParams offset (maxFragmentLength auth.info).val)] }
            (by show _ ≤ l.state.stored.length; omega) hstored (Nat.not_lt.mp hlarge)
            (by show l.state.stored.length - _ = _; omega)
          rw [hrest, Nat.add_assoc, hnext]

/-- `read` after the loop: the checks of `parseChecked` on all the bytes. -/
theorem read_eq {σ : Type} (dev : Device σ) (info : AuthenticatorInfo) (l : Link σ) :
    (read c dev info l).1 = (readAll dev info l).1 >>= LargeBlobArray.parseChecked c := rfl

/-- Reading everything that is stored. -/
theorem readAll_ok {l : Link BlobStore} (hstored : l.state.stored.length < 2 ^ 32) :
    (readAll (auth.device c) auth.info l).1 =
      if l.state.stored.length / (maxFragmentLength auth.info).val *
          (maxFragmentLength auth.info).val ≤ MAX_READ then .ok l.state.stored
      else .error tooLarge := by
  have hread := @readLoop_ok c auth 0 l (Nat.zero_le _) hstored (Nat.zero_le _)
  rw [Nat.zero_add, Nat.sub_zero, List.take_zero] at hread
  exact hread

/-! ### Any device -/

/-- What every request of a read keeps, the read keeps. -/
theorem readLoop_keeps {σ : Type} {dev : Device σ} {frag : { n : Nat // 0 < n }}
    {P : Link σ → Prop}
    (hstep : ∀ offset l, P l → P (readFragment dev offset frag.val l).2)
    (data : List UInt8) (offset : Nat) (l : Link σ) (h : P l) :
    P (readLoop dev frag data offset l).2 := by
  induction hleft : MAX_READ + 1 - data.length using Nat.strong_induction_on
    generalizing data offset l with
  | _ left ih =>
      have hfrag := frag.property
      have hnext := hstep offset l h
      rcases hread : readFragment dev offset frag.val l with ⟨resp, l'⟩
      rw [hread] at hnext
      rw [readLoop, hread]
      cases resp with
      | error e => exact hnext
      | ok chunk =>
          simp only
          split_ifs with hshort hlarge
          · exact hnext
          · exact hnext
          · rw [List.length_append] at hlarge
            have hgrown : (data ++ chunk).length = data.length + chunk.length :=
              List.length_append
            exact ih _ (by omega) (data ++ chunk) (offset + chunk.length) l' hnext rfl

/-- A read leaves the authenticator as it was. -/
theorem state_read (l : Link BlobStore) (info : AuthenticatorInfo) :
    (read c (auth.device c) info l).2.state = l.state := by
  refine readLoop_keeps (P := fun l' => l'.state = l.state) ?_ [] 0 l rfl
  intro offset l' h
  rw [← h]
  exact state_device_get offset (maxFragmentLength info).val

/-- A read sends `get` requests and nothing else. -/
theorem sent_read {σ : Type} (dev : Device σ) (info : AuthenticatorInfo) (l : Link σ) :
    ∃ offsets : List Nat, (read c dev info l).2.sent = l.sent ++
      offsets.map fun offset => requestBytes (getParams offset (maxFragmentLength info).val) := by
  refine readLoop_keeps (P := fun l' => ∃ offsets : List Nat, l'.sent = l.sent ++
    offsets.map fun offset => requestBytes (getParams offset (maxFragmentLength info).val))
    ?_ [] 0 l ⟨[], by simp⟩
  rintro offset l' ⟨offsets, h⟩
  refine ⟨offsets ++ [offset], ?_⟩
  show l'.sent ++ [_] = _
  rw [h, List.map_append, List.append_assoc]
  rfl

/-- The read loop stops, whatever the device does: a fragment that does not end it adds
its full length to what is held, which the ceiling bounds. -/
theorem length_sent_readLoop {σ : Type} (dev : Device σ) (frag : { n : Nat // 0 < n })
    (data : List UInt8) (offset : Nat) (l : Link σ) (hdata : data.length ≤ MAX_READ) :
    (readLoop dev frag data offset l).2.sent.length ≤
      l.sent.length + (MAX_READ - data.length) / frag.val + 1 := by
  induction hleft : MAX_READ - data.length using Nat.strong_induction_on
    generalizing data offset l with
  | _ left ih =>
      have hfrag := frag.property
      have hsent : (readFragment dev offset frag.val l).2.sent.length = l.sent.length + 1 :=
        List.length_append
      rcases hread : readFragment dev offset frag.val l with ⟨resp, l'⟩
      rw [hread] at hsent
      change l'.sent.length = _ at hsent
      have hstop : l'.sent.length ≤ l.sent.length + left / frag.val + 1 := by
        rw [hsent]
        exact Nat.add_le_add_right (Nat.le_add_right _ _) 1
      rw [readLoop, hread]
      cases resp with
      | error e => exact hstop
      | ok chunk =>
          simp only
          split_ifs with hshort hlarge
          · exact hstop
          · exact hstop
          · -- a full fragment: at least `frag` bytes nearer to the ceiling
            rw [List.length_append] at hlarge
            have hgrown : (data ++ chunk).length = data.length + chunk.length :=
              List.length_append
            have hrest := ih _ (by omega) (data ++ chunk) (offset + chunk.length) l' (by omega)
              rfl
            calc _ ≤ l'.sent.length + (MAX_READ - (data ++ chunk).length) / frag.val + 1 := hrest
              _ ≤ l'.sent.length + (left - frag.val) / frag.val + 1 :=
                  Nat.add_le_add_right
                    (Nat.add_le_add_left (Nat.div_le_div_right (by omega)) _) 1
              _ = l.sent.length + left / frag.val + 1 := by
                  rw [hsent, Nat.div_eq_sub_div hfrag (show frag.val ≤ left by omega)]
                  ac_rfl

theorem length_sent_read {σ : Type} (dev : Device σ) (info : AuthenticatorInfo) (l : Link σ) :
    (read c dev info l).2.sent.length ≤
      l.sent.length + MAX_READ / (maxFragmentLength info).val + 1 :=
  length_sent_readLoop dev (maxFragmentLength info) [] 0 l (Nat.zero_le _)

/-! ### The transfer -/

/-- **Transfer.** An array and its checksum that fit the authenticator are accepted,
whatever it held or was receiving, in fragments that follow one another, none over the
limit, the total with the first only. Reading then gives the very bytes, if the full
fragments among them come to no more than `MAX_READ`, and is refused if they come to
more. Against any device, a read sends no more requests than full fragments fit in
`MAX_READ`, and one. -/
theorem transfer_sound (c : Crypto) (auth : Authenticator) {array : List UInt8}
    (harray : array ≠ []) (hfits : (array ++ c.left16Sha256 array).length ≤ auth.capacity)
    (l : Link BlobStore) :
    (∃ l' fragments,
      write c (auth.device c) auth.info auth.token (array ++ c.left16Sha256 array) l =
        (.ok (), l') ∧
      fragments.flatten = array ++ c.left16Sha256 array ∧
      (∀ f ∈ fragments, 0 < f.length ∧ f.length ≤ (maxFragmentLength auth.info).val) ∧
      l'.sent = l.sent ++
        transferRequests c auth.token (array ++ c.left16Sha256 array).length fragments ∧
      (if (array ++ c.left16Sha256 array).length / (maxFragmentLength auth.info).val *
          (maxFragmentLength auth.info).val ≤ MAX_READ then
        (readAll (auth.device c) auth.info l').1 = .ok (array ++ c.left16Sha256 array) ∧
          (read c (auth.device c) auth.info l').1 = LargeBlobArray.parse array
      else
        (readAll (auth.device c) auth.info l').1 = .error tooLarge ∧
          (read c (auth.device c) auth.info l').1 = .error tooLarge)) ∧
    ∀ (σ : Type) (dev : Device σ) (info : AuthenticatorInfo) (l : Link σ),
      (read c dev info l).2.sent.length ≤
        l.sent.length + MAX_READ / (maxFragmentLength info).val + 1 := by
  refine ⟨?_, fun σ dev info l => length_sent_read dev info l⟩
  have hpos := List.length_pos_iff.mpr harray
  have hlong : 17 ≤ (array ++ c.left16Sha256 array).length := by
    rw [List.length_append, c.length_left16Sha256]
    omega
  obtain ⟨l', fragments, hwrite, hstored, hflat, hfragments, hsent⟩ :=
    write_accepted rfl hlong (.inr hfits) l
  refine ⟨l', fragments, hwrite, hflat, ?_, hsent, ?_⟩
  · rw [maxFragmentLength_info]
    exact hfragments
  · have hread := @readAll_ok c auth l'
      (hstored ▸ hfits.trans_lt auth.capacity_lt)
    rw [hstored] at hread
    rw [read_eq, hread]
    split_ifs
    · exact ⟨rfl, LargeBlobArray.parseChecked_append c array⟩
    · exact ⟨rfl, rfl⟩

/-! ### Samples -/

/-- A key that is sent the sample's 45 bytes as one fragment. -/
def sampleKey : Authenticator where
  maxMsgSize := some 109
  capacity := 1024
  pinSet := true
  token := { protocol := 2, token := (List.range 32).map Nat.toUInt8 }
  msgSize_room := by decide
  capacity_lt := by decide
  protocol_known := .inr rfl

def emptyLink : Link BlobStore where
  state := { stored := [], expectedLength := 0, expectedNextOffset := 0, pending := [] }
  sent := []

/-- The digests of the sample and of its only fragment, and the tag of its request. -/
def transferCrypto : Crypto where
  sha256 data :=
    if data = LargeBlobArray.SAMPLE_REWRITTEN then
      LargeBlobArray.sampleCrypto.sha256 LargeBlobArray.SAMPLE_REWRITTEN
    else
      [0xda, 0xfb, 0x06, 0x76, 0x4b, 0x9d, 0xb7, 0xa9, 0xfd, 0x6b, 0xdb, 0x3f, 0x8f, 0x5c, 0xa7,
        0x39, 0xbd, 0xe9, 0x59, 0x1c, 0x33, 0x64, 0x80, 0x00, 0x25, 0xc1, 0xdd, 0x0b, 0xf3, 0xc9,
        0x21, 0x99]
  hmacSha256 _ _ :=
    [0x79, 0x2c, 0xad, 0xec, 0x29, 0xc0, 0xa8, 0xd9, 0x4d, 0xc1, 0xed, 0x54, 0x9a, 0x16, 0xbe, 0xc4,
      0x2d, 0x15, 0x32, 0x59, 0x10, 0x67, 0x4b, 0x88, 0x96, 0xb8, 0x09, 0x76, 0x62, 0x2a, 0x1f,
      0x69]
  aesGcmEncrypt _ _ plain _ := plain
  aesGcmDecrypt _ _ _ _ := none
  inflate _ _ := none
  length_sha256 data := by
    split
    · exact LargeBlobArray.sampleCrypto.length_sha256 _
    · rfl
  length_hmacSha256 _ _ := rfl

/-- One full fragment and no rest: the read asks once more and gets nothing. -/
theorem sampleKey_transfer :
    ∃ l' fragments,
      write transferCrypto (sampleKey.device transferCrypto) sampleKey.info sampleKey.token
        (LargeBlobArray.SAMPLE_REWRITTEN ++
          transferCrypto.left16Sha256 LargeBlobArray.SAMPLE_REWRITTEN) emptyLink = (.ok (), l') ∧
      l'.sent = transferRequests transferCrypto sampleKey.token 45 fragments ∧
      (readAll (sampleKey.device transferCrypto) sampleKey.info l').1 =
        .ok (LargeBlobArray.SAMPLE_REWRITTEN ++
          transferCrypto.left16Sha256 LargeBlobArray.SAMPLE_REWRITTEN) := by
  obtain ⟨⟨l', fragments, hwrite, -, -, hsent, hread⟩, -⟩ :=
    @transfer_sound transferCrypto sampleKey LargeBlobArray.SAMPLE_REWRITTEN
      (by decide) (by decide) emptyLink
  rw [if_pos (by decide)] at hread
  exact ⟨l', fragments, hwrite, hsent, hread.1⟩

/-- A key that stores more than a read takes in. -/
def bigKey : Authenticator where
  maxMsgSize := some 1024
  capacity := 100000
  pinSet := true
  token := { protocol := 2, token := List.replicate 32 0 }
  msgSize_room := by decide
  capacity_lt := by decide
  protocol_known := .inr rfl

/-- A note of 70000 characters, by itself. -/
def bigNote : LargeBlobArray :=
  ({ items := [], rawArray := [], trailing := 0 } : LargeBlobArray).withTextNote
    (List.replicate 70000 'a')

theorem length_asBytes_replicate (n : Nat) :
    (RustStr.asBytes (List.replicate n 'a')).length = n := by
  have hone : (String.utf8EncodeChar 'a').length = 1 := by decide
  rw [RustStr.asBytes, List.length_flatMap, List.map_replicate, hone, List.sum_replicate]
  exact Nat.mul_one n

theorem length_bigNote : bigNote.arrayBytes.length = 70032 := by
  have htext : (LargeBlobEntry.fromText (List.replicate 70000 'a')).ciphertext.length = 70004 := by
    rw [LargeBlobEntry.fromText, List.length_append, length_asBytes_replicate]
    rfl
  have hciphertext : (encode (.bytes (LargeBlobEntry.fromText
      (List.replicate 70000 'a')).ciphertext)).length = 70009 := by
    rw [encode, List.length_append, length_encodeHeader, htext]
    rfl
  have horigSize : (encode (.uInt (LargeBlobEntry.fromText
      (List.replicate 70000 'a')).origSize)).length = 5 := by
    rw [encode, length_encodeHeader, LargeBlobEntry.fromText, RustStr.len,
      length_asBytes_replicate]
    rfl
  have hentry : (encodeEntry (.fromText (List.replicate 70000 'a'))).length = 70031 := by
    rw [encodeEntry, length_encode_map]
    swap
    · exact show 3 < 24 by decide
    have hkey (key : UInt64) (h : key.toNat < 24) := length_encode_uInt_short h
    have hnonce : (encode (.bytes (LargeBlobEntry.fromText
        (List.replicate 70000 'a')).nonce)).length = 13 := by
      rw [LargeBlobEntry.fromText]
      decide
    simp only [List.map_cons, List.map_nil, List.sum_cons, List.sum_nil, hciphertext, horigSize,
      hnonce, hkey ENTRY_CIPHERTEXT (by decide), hkey ENTRY_NONCE (by decide),
      hkey ENTRY_ORIG_SIZE (by decide)]
    decide
  have hitems : bigNote.items = [.entry (.fromText (List.replicate 70000 'a'))] := rfl
  have hbytes : Item.bytes (.entry (.fromText (List.replicate 70000 'a'))) =
      encodeEntry (.fromText (List.replicate 70000 'a')) := rfl
  rw [LargeBlobArray.arrayBytes, hitems, List.length_append, List.map_singleton,
    List.flatten_singleton, hbytes, hentry]
  rfl

/-- The big note is written, and no cryptography makes the read give it back. -/
theorem bigNote_unread :
    ¬ ∃ c : Crypto,
      ((bigNote.arrayBytes ++ c.left16Sha256 bigNote.arrayBytes).length ≤ bigKey.capacity →
        (readAll (bigKey.device c) bigKey.info
          (write c (bigKey.device c) bigKey.info bigKey.token
            (bigNote.arrayBytes ++ c.left16Sha256 bigNote.arrayBytes) emptyLink).2).1 =
          .ok (bigNote.arrayBytes ++ c.left16Sha256 bigNote.arrayBytes)) := by
  rintro ⟨c, hback⟩
  have hlen : (bigNote.arrayBytes ++ c.left16Sha256 bigNote.arrayBytes).length = 70048 := by
    rw [List.length_append, c.length_left16Sha256, length_bigNote]
  have hcapacity : 70048 ≤ bigKey.capacity := by decide
  obtain ⟨l', fragments, hwrite, hstored, -⟩ := @write_accepted c bigKey _ _ rfl
    (hlen ▸ by decide) (.inr (hlen ▸ hcapacity)) emptyLink
  have hread := @readAll_ok c bigKey l'
    (by rw [hstored, hlen]; decide)
  rw [hstored, hlen, if_neg (by decide)] at hread
  rw [hwrite, hread] at hback
  cases hback (hlen ▸ hcapacity)

end

end Keyroost.Ctap
