import Keyroost.Ctap.Authenticator
import Keyroost.Ctap.CborRoundTrip

/-!
# One exchange with the authenticator

What the authenticator of `Authenticator` makes of one request of the two loops of
`keyroost-ctap/src/large_blobs.rs`: a `set` fragment that goes on where the last one ended joins
the array being received, and a `get` fragment comes back as the stored bytes at its offset.

A request is encoded by the host and decoded by the authenticator, so the first half is about the
bytes between them: that the maps are in canonical order, that they are read as the parameters they
were made from, and that a request is no longer than the authenticator's message size. `device_set`
and `device_get` are the two exchanges, as `LargeBlobTransfer` uses them.
-/

namespace Keyroost.Ctap

open Cbor

/-! ### Requests through the authenticator's eyes -/

section

variable {c : Crypto} {auth : Authenticator} {st : BlobStore}

/-- A canonical request within the message size is handled. -/
theorem respond_request {entries : List (Value × Value)} (hsized : (Value.map entries).Sized)
    (hnesting : (Value.map entries).nesting ≤ DECODE_DEPTH_LIMIT)
    (hkeys : Authenticator.ascending (entries.map fun entry => entry.1.asUInt) = true)
    (hroom : (requestBytes (.map entries)).length ≤ auth.msgSize) :
    Authenticator.respond c auth st (requestBytes (.map entries)) =
      Authenticator.handle c auth st (.ofValue (.map entries)) := by
  have hdecode := reads_encode hsized hnesting []
  rw [List.append_nil] at hdecode
  change decode (encode (.map entries)) = _ at hdecode
  unfold Authenticator.respond
  rw [if_neg (Nat.not_lt.mpr hroom)]
  simp only [requestBytes, CTAP2_LARGE_BLOBS, ne_eq, not_true_eq_false, if_false, hdecode, hkeys,
    true_and, if_true]

theorem length_encode_uInt (n : UInt64) : (encode (.uInt n)).length ≤ 9 := by
  rw [encode, length_encodeHeader]
  split_ifs <;> omega

theorem length_encode_uInt_32 {n : UInt64} (hn : n.toNat < 2 ^ 32) :
    (encode (.uInt n)).length ≤ 5 := by
  rw [encode, length_encodeHeader]
  split_ifs <;> omega

theorem length_encode_uInt_short {n : UInt64} (hn : n.toNat < 24) :
    (encode (.uInt n)).length = 1 := by
  rw [encode, length_encodeHeader, if_pos hn]

theorem length_encode_bytes {b : List UInt8} (hb : b.length < 2 ^ 32) :
    (encode (.bytes b)).length ≤ 5 + b.length := by
  rw [encode, List.length_append, length_encodeHeader, toNat_length (by omega)]
  split_ifs <;> omega

theorem length_encode_bytes_short {b : List UInt8} (hb : b.length < 2 ^ 8) :
    (encode (.bytes b)).length ≤ 2 + b.length := by
  rw [encode, List.length_append, length_encodeHeader, toNat_length (by omega)]
  split_ifs <;> omega

/-! ### The parameters a fragment is sent with -/

theorem expectedParam_eq (offset : Nat) (fragment : List UInt8) :
    Authenticator.expectedParam c auth offset fragment =
      writeAuthParam c auth.token offset fragment := rfl

theorem length_writeAuthParam (token : PinUvAuthToken) (offset : Nat) (fragment : List UInt8) :
    (writeAuthParam c token offset fragment).length ≤ 32 := by
  unfold writeAuthParam PinUvAuthToken.authenticate
  simp only
  split
  · rw [List.length_take, c.length_hmacSha256]
    omega
  · rw [c.length_hmacSha256]

theorem ofValue_setParams {offset : Nat} {total : Option Nat} {fragment : List UInt8} :
    BlobRequest.ofValue (setParams c auth.token offset total fragment) =
      { get := none
        set := some fragment
        offset := some offset.toUInt64
        length := total.map fun total => total.toUInt64
        pinUvAuthParam := some (writeAuthParam c auth.token offset fragment)
        pinUvAuthProtocol := some auth.token.protocol.toUInt64 } := by
  cases total with
  | none => rfl
  | some total => rfl

/-- A map of few entries takes a byte and its entries. -/
theorem length_encode_map {entries : List (Value × Value)} (h : entries.length < 24) :
    (encode (.map entries)).length =
      1 + (entries.map fun entry => (encode entry.1).length + (encode entry.2).length).sum := by
  rw [encode, List.length_append, length_encodeHeader, length_encodeEntries,
    toNat_length (by omega), if_pos h]

/-- A `set` request is within the allowance the fragment length leaves. -/
theorem length_setRequest {offset : Nat} {total : Option Nat} {fragment : List UInt8}
    (hoffset : offset < 2 ^ 32) (hfragment : fragment.length < 2 ^ 32) :
    (requestBytes (setParams c auth.token offset total fragment)).length ≤
      fragment.length + 64 := by
  have hset := length_encode_bytes hfragment
  have hoff := length_encode_uInt_32 (n := offset.toUInt64) (by
    rw [toNat_length (by omega)]
    exact hoffset)
  have hparamLen := length_writeAuthParam (c := c) auth.token offset fragment
  have hparam := length_encode_bytes_short (hparamLen.trans_lt (by decide))
  have hprotocol : (encode (.uInt auth.token.protocol.toUInt64)).length = 1 := by
    refine length_encode_uInt_short ?_
    rcases auth.protocol_known with h | h <;> rw [h] <;> decide
  have hkey (key : UInt64) (h : key.toNat < 24) := length_encode_uInt_short h
  have h2 := hkey KEY_SET (by decide)
  have h3 := hkey KEY_OFFSET (by decide)
  have h4 := hkey KEY_LENGTH (by decide)
  have h5 := hkey KEY_PIN_UV_AUTH_PARAM (by decide)
  have h6 := hkey KEY_PIN_UV_AUTH_PROTOCOL (by decide)
  cases total with
  | none =>
      unfold requestBytes setParams
      rw [List.length_cons, length_encode_map]
      swap
      · exact show 4 < 24 by decide
      simp only [Option.map_none, Option.toList_none, List.append_nil, List.cons_append,
        List.nil_append, List.map_cons, List.map_nil, List.sum_cons, List.sum_nil]
      omega
  | some total =>
      have hlength := length_encode_uInt total.toUInt64
      unfold requestBytes setParams
      rw [List.length_cons, length_encode_map]
      swap
      · exact show 5 < 24 by decide
      simp only [Option.map_some, Option.toList_some, List.cons_append,
        List.nil_append, List.map_cons, List.map_nil, List.sum_cons, List.sum_nil]
      omega

/-- A `set` request the authenticator has room for reaches the `set` rules with its own
parameters. -/
theorem respond_set_of_room {offset : Nat} {total : Option Nat} {fragment : List UInt8}
    (hoffset : offset < 2 ^ 64) (hfragment : fragment.length < 2 ^ 64)
    (hroom : (requestBytes (setParams c auth.token offset total fragment)).length ≤ auth.msgSize) :
    Authenticator.respond c auth st (requestBytes (setParams c auth.token offset total fragment)) =
      match Authenticator.handleSet c auth st
        (.ofValue (setParams c auth.token offset total fragment)) offset fragment with
      | .ok st' => ([0x00], st')
      | .error status => ([status], st) := by
  have hparamLen := length_writeAuthParam (c := c) auth.token offset fragment
  have hback : offset.toUInt64.toNat = offset := toNat_length hoffset
  have hsized : (setParams c auth.token offset total fragment).Sized := by
    cases total with
    | none =>
        exact ⟨show 4 < 2 ^ 64 by decide, ⟨trivial, hfragment⟩, ⟨trivial, trivial⟩,
          ⟨trivial, show List.length _ < 2 ^ 64 by omega⟩, ⟨trivial, trivial⟩, trivial⟩
    | some total =>
        exact ⟨show 5 < 2 ^ 64 by decide, ⟨trivial, hfragment⟩, ⟨trivial, trivial⟩,
          ⟨trivial, trivial⟩, ⟨trivial, show List.length _ < 2 ^ 64 by omega⟩,
          ⟨trivial, trivial⟩, trivial⟩
  have hrequest : Authenticator.respond c auth st
      (requestBytes (setParams c auth.token offset total fragment)) =
        Authenticator.handle c auth st
          (.ofValue (setParams c auth.token offset total fragment)) := by
    refine respond_request hsized ?_ ?_ hroom
    · cases total with
      | none => exact show 1 ≤ DECODE_DEPTH_LIMIT by decide
      | some total => exact show 1 ≤ DECODE_DEPTH_LIMIT by decide
    · cases total with
      | none => rfl
      | some total => rfl
  have hhandle : Authenticator.handle c auth st
      (.ofValue (setParams c auth.token offset total fragment)) =
        match Authenticator.handleSet c auth st
          (.ofValue (setParams c auth.token offset total fragment)) offset.toUInt64.toNat
            fragment with
        | .ok st' => ([0x00], st')
        | .error status => ([status], st) := by
    cases total with
    | none => rfl
    | some total => rfl
  rw [hrequest, hhandle, hback]

/-- There is room for a fragment within the fragment length. -/
theorem respond_set {offset : Nat} {total : Option Nat} {fragment : List UInt8}
    (hoffset : offset < 2 ^ 32) (hfragment : fragment.length < 2 ^ 32)
    (hfrag : fragment.length ≤ auth.maxFragmentLength) :
    Authenticator.respond c auth st (requestBytes (setParams c auth.token offset total fragment)) =
      match Authenticator.handleSet c auth st
        (.ofValue (setParams c auth.token offset total fragment)) offset fragment with
      | .ok st' => ([0x00], st')
      | .error status => ([status], st) := by
  have hlen := @length_setRequest c auth offset total _ hoffset hfragment
  have hmsg := auth.msgSize_room
  have hmax : auth.maxFragmentLength = auth.msgSize - 64 := rfl
  have hsize : auth.msgSize = (auth.maxMsgSize.getD 1024).toNat := rfl
  exact respond_set_of_room (by omega) (by omega) (hlen.trans (by omega))

/-- A transfer of more than the authenticator stores is refused at its first fragment. -/
theorem device_set_full {total : Nat} {fragment : List UInt8} (htotal : total < 2 ^ 64)
    (hfragment : fragment.length < 2 ^ 64) (hfull : 1024 < total ∧ auth.capacity < total) :
    ∃ status, status ≠ 0 ∧ Authenticator.device c auth st
      (requestBytes (setParams c auth.token 0 (some total) fragment)) = (.ok [status], st) := by
  by_cases hroom :
      (requestBytes (setParams c auth.token 0 (some total) fragment)).length ≤ auth.msgSize
  · have hback : total.toUInt64.toNat = total := toNat_length htotal
    have hopen : Authenticator.openTransfer auth st
        (.ofValue (setParams c auth.token 0 (some total) fragment)) 0 =
          .error Authenticator.LARGE_BLOB_STORAGE_FULL := by
      rw [ofValue_setParams]
      unfold Authenticator.openTransfer
      simp only [if_true, Option.map_some, hback]
      rw [if_pos hfull]
    have hset : ∃ status, status ≠ 0 ∧ Authenticator.handleSet c auth st
        (.ofValue (setParams c auth.token 0 (some total) fragment)) 0 fragment =
          .error status := by
      unfold Authenticator.handleSet
      by_cases hlong : auth.maxFragmentLength < fragment.length
      · rw [if_pos hlong]
        exact ⟨_, show Authenticator.INVALID_LENGTH ≠ 0 by decide, rfl⟩
      · rw [if_neg hlong, hopen]
        exact ⟨_, show Authenticator.LARGE_BLOB_STORAGE_FULL ≠ 0 by decide, rfl⟩
    rcases hset with ⟨status, hstatus, hset⟩
    refine ⟨status, hstatus, ?_⟩
    unfold Authenticator.device
    rw [respond_set_of_room (by decide) hfragment hroom, hset]
  · refine ⟨Authenticator.REQUEST_TOO_LARGE, by decide, ?_⟩
    unfold Authenticator.device Authenticator.respond
    rw [if_pos (Nat.lt_of_not_le hroom)]

/-! ### One fragment is accepted -/

/-- What the authenticator has received of `serialized` up to `offset`. -/
def BlobStore.Expects (st : BlobStore) (serialized : List UInt8) (offset : Nat) : Prop :=
  offset ≠ 0 → st.expectedLength = serialized.length ∧ st.expectedNextOffset = offset ∧
    st.pending = serialized.take offset

/-- The total that goes with the fragment at `offset`. -/
def totalAt (serialized : List UInt8) (offset : Nat) : Option Nat :=
  if offset = 0 then some serialized.length else none

/-- The request of the fragment at `offset` opens the transfer, or goes on with it. -/
theorem openTransfer_ok {serialized fragment : List UInt8} {offset : Nat}
    (hlong : 17 ≤ serialized.length)
    (hcap : serialized.length ≤ 1024 ∨ serialized.length ≤ auth.capacity)
    (hexpects : st.Expects serialized offset) :
    ∃ st₁, Authenticator.openTransfer auth st
        (.ofValue (setParams c auth.token offset (totalAt serialized offset) fragment)) offset =
          .ok st₁ ∧
      st₁.expectedLength = serialized.length ∧ st₁.expectedNextOffset = offset ∧
      (if offset = 0 then [] else st₁.pending) = serialized.take offset := by
  have hsize := auth.capacity_lt
  rw [ofValue_setParams]
  unfold Authenticator.openTransfer totalAt
  by_cases hzero : offset = 0
  · have hback : serialized.length.toUInt64.toNat = serialized.length := toNat_length (by omega)
    simp only [hzero, if_true, Option.map_some, hback]
    rw [if_neg (by omega), if_neg (by omega)]
    exact ⟨_, rfl, rfl, rfl, rfl⟩
  · obtain ⟨hlength, hnext, hpending⟩ := hexpects hzero
    simp only [hzero, if_false, Option.map_none, Option.isSome_none, Bool.false_eq_true]
    exact ⟨st, rfl, hlength, hnext, hpending⟩

theorem checkParam_ok {fragment : List UInt8} {offset : Nat} {total : Option Nat} :
    Authenticator.checkParam c auth (.ofValue (setParams c auth.token offset total fragment)) offset
      fragment = .ok () := by
  rw [ofValue_setParams]
  unfold Authenticator.checkParam
  split
  · rfl
  · simp only [ne_eq, not_true_eq_false, if_false, expectedParam_eq]

/-- What is received so far and the next fragment are what is received then. -/
theorem take_append_fragment {serialized : List UInt8} {offset stop : Nat} (h : offset ≤ stop) :
    serialized.take offset ++ (serialized.take stop).drop offset = serialized.take stop := by
  have htake : serialized.take offset = (serialized.take stop).take offset := by
    rw [List.take_take, Nat.min_eq_left h]
  rw [htake, List.take_append_drop]

/-- The next fragment joins the others; the last one completes the array. -/
theorem receive_ok {array serialized : List UInt8} {offset stop : Nat}
    (hserialized : serialized = array ++ c.left16Sha256 array) (hstop : offset ≤ stop)
    (hend : stop ≤ serialized.length) (hlength : st.expectedLength = serialized.length)
    (hpending : (if offset = 0 then [] else st.pending) = serialized.take offset) :
    ∃ st', Authenticator.receive c st offset ((serialized.take stop).drop offset) = .ok st' ∧
      (stop < serialized.length → st'.Expects serialized stop) ∧
      (stop = serialized.length → st'.stored = serialized) := by
  have hall : (serialized.take stop).length = stop := List.length_take_of_le hend
  unfold Authenticator.receive
  simp only [hpending, take_append_fragment hstop, hall, hlength]
  by_cases hlast : stop = serialized.length
  · have hwhole : serialized.take stop = serialized := by rw [hlast, List.take_length]
    have htrailer : stop - 16 = array.length := by
      rw [hlast, hserialized, List.length_append, c.length_left16Sha256, Nat.add_sub_cancel]
    have hchecksum : serialized.drop (stop - 16) =
        (c.sha256 (serialized.take (stop - 16))).take 16 := by
      rw [htrailer, hserialized, List.drop_left, List.take_left]
      rfl
    rw [if_pos hlast, hwhole, if_pos hchecksum]
    exact ⟨_, rfl, fun h => absurd hlast h.ne, fun _ => rfl⟩
  · rw [if_neg hlast]
    exact ⟨_, rfl, fun _ _ => ⟨rfl, rfl, rfl⟩, fun h => absurd h hlast⟩

/-- One fragment: the authenticator takes it, and expects the next or has the array. -/
theorem device_set {array serialized : List UInt8} {offset stop : Nat}
    (hserialized : serialized = array ++ c.left16Sha256 array) (hlong : 17 ≤ serialized.length)
    (hcap : serialized.length ≤ 1024 ∨ serialized.length ≤ auth.capacity) (hoffset : offset < stop)
    (hend : stop ≤ serialized.length) (hfrag : stop - offset ≤ auth.maxFragmentLength)
    (hexpects : st.Expects serialized offset) :
    ∃ st', Authenticator.device c auth st (requestBytes
        (setParams c auth.token offset (totalAt serialized offset)
          ((serialized.take stop).drop offset))) = (.ok [0x00], st') ∧
      (stop < serialized.length → st'.Expects serialized stop) ∧
      (stop = serialized.length → st'.stored = serialized) := by
  have hsize := auth.capacity_lt
  have hlen : ((serialized.take stop).drop offset).length = stop - offset := by
    rw [List.length_drop, List.length_take_of_le hend]
  obtain ⟨st₁, hopen, hlength, hnext, hpending⟩ :=
    @openTransfer_ok c _ _ _ ((serialized.take stop).drop offset) _ hlong hcap hexpects
  obtain ⟨st', hreceive, hmore, hdone⟩ :=
    receive_ok hserialized hoffset.le hend hlength hpending
  refine ⟨st', ?_, hmore, hdone⟩
  have hset : Authenticator.handleSet c auth st
      (.ofValue (setParams c auth.token offset (totalAt serialized offset)
        ((serialized.take stop).drop offset))) offset ((serialized.take stop).drop offset) =
      .ok st' := by
    unfold Authenticator.handleSet
    rw [if_neg (by rw [hlen]; omega), hopen]
    simp only [bind, Except.bind, hnext, ne_eq, not_true_eq_false, if_false, checkParam_ok,
      hlength]
    rw [if_neg (by rw [hlen]; omega)]
    exact hreceive
  have hrespond := @respond_set c auth st offset (totalAt serialized offset)
    ((serialized.take stop).drop offset) (show offset < 2 ^ 32 by omega)
    (by rw [hlen]; omega) (by rw [hlen]; exact hfrag)
  unfold Authenticator.device
  rw [hrespond, hset]

/-- The fragment length the host works out is the authenticator's own. -/
theorem maxFragmentLength_info (auth : Authenticator) :
    (maxFragmentLength auth.info).val = auth.maxFragmentLength := by
  have hroom := auth.msgSize_room
  change Nat.max ((auth.maxMsgSize.getD 1024).toNat - 64) 1 = (auth.maxMsgSize.getD 1024).toNat - 64
  exact Nat.max_eq_left (by omega)

/-! ### One fragment is read -/

theorem length_getRequest (offset count : Nat) :
    (requestBytes (getParams offset count)).length ≤ 22 := by
  have hkey (key : UInt64) (h : key.toNat < 24) := length_encode_uInt_short h
  have h1 := hkey KEY_GET (by decide)
  have h3 := hkey KEY_OFFSET (by decide)
  have hcount := length_encode_uInt count.toUInt64
  have hoffset := length_encode_uInt offset.toUInt64
  unfold requestBytes getParams
  rw [List.length_cons, length_encode_map]
  swap
  · exact show 2 < 24 by decide
  simp only [List.map_cons, List.map_nil, List.sum_cons, List.sum_nil]
  omega

/-- A response that holds a fragment gives the fragment. -/
theorem readResponse_config {chunk : List UInt8} (hchunk : chunk.length < 2 ^ 64) :
    (readResponse (0x00 :: encode (.map [(.uInt 1, .bytes chunk)])) >>= configOf) =
      .ok chunk := by
  have hdecode := @reads_encode DECODE_DEPTH_LIMIT (.map [(.uInt 1, .bytes chunk)])
    ⟨show 1 < 2 ^ 64 by decide, ⟨trivial, hchunk⟩, trivial⟩
    (show 1 ≤ DECODE_DEPTH_LIMIT by decide) []
  rw [List.append_nil] at hdecode
  change decode _ = _ at hdecode
  have hbody : encode (.map [(.uInt 1, .bytes chunk)]) ≠ [] := by
    rw [← List.length_pos_iff, length_encode_map]
    swap
    · exact show 1 < 24 by decide
    omega
  simp only [readResponse, ne_eq, not_true_eq_false, if_false, hbody, hdecode]
  rfl

/-- A `get` request is handled as one. -/
theorem respond_get (offset count : Nat) :
    Authenticator.respond c auth st (requestBytes (getParams offset count)) =
      Authenticator.handle c auth st (.ofValue (getParams offset count)) := by
  have hmsg := auth.msgSize_room
  have hsize : auth.msgSize = (auth.maxMsgSize.getD 1024).toNat := rfl
  have hroom := length_getRequest offset count
  refine respond_request ?_ (show 1 ≤ DECODE_DEPTH_LIMIT by decide) rfl (hroom.trans (by omega))
  exact ⟨show 2 < 2 ^ 64 by decide, ⟨trivial, trivial⟩, ⟨trivial, trivial⟩, trivial⟩

theorem ofValue_getParams (offset count : Nat) :
    BlobRequest.ofValue (getParams offset count) =
      { get := some count.toUInt64, set := none, offset := some offset.toUInt64, length := none,
        pinUvAuthParam := none, pinUvAuthProtocol := none } := rfl

/-- A `get` request leaves the authenticator as it was. -/
theorem state_device_get (offset count : Nat) :
    (Authenticator.device c auth st (requestBytes (getParams offset count))).2 = st := by
  unfold Authenticator.device
  rw [respond_get, Authenticator.handle, ofValue_getParams]
  dsimp only
  cases Authenticator.handleGet auth st _ offset.toUInt64.toNat count.toUInt64.toNat with
  | error status => rfl
  | ok v => rfl

/-- What the authenticator answers a `get` with. -/
theorem device_get {offset count : Nat} (hoffset : offset ≤ st.stored.length)
    (hstored : st.stored.length < 2 ^ 32) (hcount : count ≤ auth.maxFragmentLength) :
    ∃ resp, Authenticator.device c auth st (requestBytes (getParams offset count)) =
        (.ok resp, st) ∧
      (readResponse resp >>= configOf) = .ok ((st.stored.drop offset).take count) := by
  have hmax : auth.maxFragmentLength = auth.msgSize - 64 := rfl
  have hsize : auth.msgSize = (auth.maxMsgSize.getD 1024).toNat := rfl
  have hmsgLt := (auth.maxMsgSize.getD 1024).toNat_lt
  have hoff : offset.toUInt64.toNat = offset := toNat_length (by omega)
  have hcnt : count.toUInt64.toNat = count := toNat_length (by omega)
  have hget : Authenticator.handleGet auth st (.ofValue (getParams offset count)) offset count =
      .ok (.map [(.uInt 1, .bytes ((st.stored.drop offset).take count))]) := by
    unfold Authenticator.handleGet
    rw [ofValue_getParams, if_neg (by simp), if_neg (Nat.not_lt.mpr hcount),
      if_neg (Nat.not_lt.mpr hoffset)]
  refine ⟨_, ?_, @readResponse_config ((st.stored.drop offset).take count) ?_⟩
  · unfold Authenticator.device
    rw [respond_get, Authenticator.handle]
    rw [ofValue_getParams] at hget ⊢
    simp only [hoff, hcnt, hget]
  · rw [List.length_take, List.length_drop]
    omega

/-- One fragment read from the authenticator. -/
theorem readFragment_ok {offset : Nat} {l : Link BlobStore}
    (hoffset : offset ≤ l.state.stored.length) (hstored : l.state.stored.length < 2 ^ 32) :
    readFragment (auth.device c) offset (maxFragmentLength auth.info).val l =
      (.ok ((l.state.stored.drop offset).take (maxFragmentLength auth.info).val),
        { l with sent := l.sent ++
            [requestBytes (getParams offset (maxFragmentLength auth.info).val)] }) := by
  obtain ⟨resp, hdev, hconfig⟩ := @device_get c auth l.state _
    (maxFragmentLength auth.info).val hoffset hstored (maxFragmentLength_info auth).le
  unfold readFragment dispatch transact
  simp only [hdev]
  exact Prod.ext hconfig rfl

end

end Keyroost.Ctap
