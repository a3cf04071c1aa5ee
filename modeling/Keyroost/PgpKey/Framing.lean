import Keyroost.PgpKey.Packet

/-!
# Packets and subpackets

Framing of a binary OpenPGP stream (`keyroost-pgpkey/src/packet.rs`) and of a signature's subpacket
areas (`keyroost-pgpkey/src/sig.rs`). Both write a length the same way; each reads it in its own.

`readLength` is the part that the two readers share, with the first octet from which they differ as
a parameter, so that `reads_lengthBytes` serves both. Streams that were not written here are read
too: `MinimalStream` is what makes one come back the same when it is written again.
`framing_round_trips` states the round trips of packets, subpackets and integers, and
`framing_wraps` what becomes of counts beyond their fields.
-/

namespace Keyroost.PgpKey

def MAX_INPUT : Nat := 1 <<< 20

structure Packet where
  tag : UInt8
  body : List UInt8
deriving DecidableEq, Repr

/-! ### Writing -/

def lengthBytes (n : Nat) : List UInt8 :=
  if n < 192 then [n.toUInt8]
  else if n < 8384 then
    [(((n - 192) >>> 8) + 192).toUInt8, ((n - 192) &&& 0xFF).toUInt8]
  else 0xFF :: Bytes.be 4 (n % 2 ^ 32)

def writePacket (out : List UInt8) (p : Packet) : List UInt8 :=
  out ++ ((0xC0 ||| (p.tag &&& 0x3F)) :: (lengthBytes p.body.length ++ p.body))

def writePackets (ps : List Packet) : List UInt8 := ps.foldl writePacket []

/-- `push`, on the bytes of a run of subpackets: the length covers the type byte. -/
def pushSubpacket (v : List UInt8) (sp : UInt8 × List UInt8) : List UInt8 :=
  v ++ (lengthBytes (sp.2.length + 1) ++ sp.1 :: sp.2)

def pushSubpackets (sps : List (UInt8 × List UInt8)) : List UInt8 := sps.foldl pushSubpacket []

/-! ### Reading -/

def readLength32 : Read Nat := Reader.andThen readU32 fun n => Reader.done n.toNat

/-- Up to `top` the first octet starts a length of two octets; `other` reads what is above. -/
def readLength (top : UInt8) (other : UInt8 → Read Nat) : Read Nat :=
  Reader.andThen readU8 fun first =>
    if first ≤ 191 then Reader.done first.toNat
    else if first ≤ top then Reader.andThen readU8 fun second =>
      Reader.done (((first.toNat - 192) <<< 8) + second.toNat + 192)
    else other first

def newLength : Read Nat := readLength 223 fun first =>
  if first = 255 then readLength32 else fun _ => .error (.unsupported "partial-length packet")

def oldLength (form : UInt8) : Read Nat :=
  if form = 0 then Reader.andThen readU8 fun n => Reader.done n.toNat
  else if form = 1 then readU16
  else if form = 2 then readLength32
  else fun _ => .error (.unsupported "indeterminate-length packet")

def readHeader : Read (UInt8 × Nat) := Reader.andThen readU8 fun hdr =>
  if hdr &&& 0x80 = 0 then fun _ => .error (.malformed "bad packet header")
  else if hdr &&& 0x40 ≠ 0 then
    Reader.andThen newLength fun len => Reader.done (hdr &&& 0x3F, len)
  else Reader.andThen (oldLength (hdr &&& 0x03)) fun len =>
    Reader.done ((hdr >>> 2) &&& 0x0F, len)

def readPacket : Read Packet := Reader.andThen readHeader fun h =>
  Reader.andThen (take h.2) fun body => Reader.done ⟨h.1, body⟩

def parsePackets (data : List UInt8) : Except Error (List Packet) :=
  if data.length > MAX_INPUT then .error (.malformed "file too large")
  else Reader.toEnd .truncated readPacket data.length data

def subpacketLength : Read Nat := readLength 254 fun _ => readLength32

def readSubpacket : Read (UInt8 × List UInt8) := Reader.andThen subpacketLength fun len =>
  Reader.andThen (take len) fun sp =>
    match sp with
    | [] => fun _ => .error (.malformed "empty signature subpacket")
    | typ :: v => Reader.done (typ, v)

def splitSubpackets (data : List UInt8) : Except Error (List (UInt8 × List UInt8)) :=
  Reader.toEnd .truncated readSubpacket data.length data

/-! ### Lengths -/

theorem andThen_readU8 {α : Type} (f : UInt8 → Read α) (b : UInt8) (tail : List UInt8) :
    Reader.andThen readU8 f (b :: tail) = f b tail := rfl

theorem reads_readU32 {n : Nat} (hn : n < 2 ^ 32) :
    Reader.Reads readLength32 (Bytes.be 4 n) n := by
  have hbytes := Reader.reads_bytes Error.truncated (Bytes.be 4 n)
  rw [Bytes.length_be] at hbytes
  have hword : (Bytes.ofBe (Bytes.be 4 n)).toUInt32.toNat = n := by
    rw [Bytes.ofBe_be hn]
    exact Nat.mod_eq_of_lt hn
  have hread := (hbytes.map fun b => (Bytes.ofBe b).toUInt32).map UInt32.toNat
  rwa [hword] at hread

theorem toNat_toUInt8 {n : Nat} (hn : n < 256) : n.toUInt8.toNat = n := Nat.mod_eq_of_lt hn

theorem toUInt8_toNat (b : UInt8) : b.toNat.toUInt8 = b := UInt8.ofNat_toNat

theorem reads_lengthBytes {top : UInt8} {other : UInt8 → Read Nat} (hlow : 223 ≤ top)
    (hhigh : top < 255) (hother : other 255 = readLength32) {n : Nat} (hn : n < 2 ^ 32) :
    Reader.Reads (readLength top other) (lengthBytes n) n := by
  rw [lengthBytes]
  split
  · rename_i hone
    have hnat := toNat_toUInt8 (show n < 256 by omega)
    have hle : n.toUInt8 ≤ 191 := by
      rw [UInt8.le_iff_toNat_le, hnat]
      exact Nat.le_of_lt_succ hone
    intro tail
    have hread : readLength top other (n.toUInt8 :: tail) = .ok (n.toUInt8.toNat, tail) := by
      rw [readLength, andThen_readU8, if_pos hle]
      rfl
    rw [hnat] at hread
    exact hread
  split
  · rename_i hone htwo
    obtain ⟨m, rfl⟩ := Nat.exists_eq_add_of_le (Nat.le_of_not_lt hone)
    rw [Nat.add_sub_cancel_left]
    have hquot : m >>> 8 ≤ 31 := by
      rw [Nat.shiftRight_eq_div_pow]
      omega
    have hrem : m &&& 0xFF = m % 256 := Nat.and_two_pow_sub_one_eq_mod m 8
    have hfirst := toNat_toUInt8 (show (m >>> 8) + 192 < 256 by omega)
    have hsecond := toNat_toUInt8 (show m &&& 0xFF < 256 by omega)
    have hnot : ¬ ((m >>> 8) + 192).toUInt8 ≤ 191 := by
      rw [UInt8.le_iff_toNat_le, hfirst]
      exact fun hle => absurd (Nat.le_trans (Nat.le_add_left _ _) hle) (by decide)
    have hle : ((m >>> 8) + 192).toUInt8 ≤ top := by
      rw [UInt8.le_iff_toNat_le] at hlow ⊢
      rw [hfirst]
      exact Nat.le_trans (Nat.add_le_add_right hquot 192) hlow
    intro tail
    rw [List.cons_append, List.cons_append, List.nil_append, readLength,
      andThen_readU8, if_neg hnot, if_pos hle, andThen_readU8, hfirst, hsecond, Nat.add_sub_cancel,
      hrem, Nat.shiftRight_eq_div_pow, Nat.shiftLeft_eq, Nat.mul_comm (m / 2 ^ 8), Nat.div_add_mod,
      Nat.add_comm m]
    rfl
  · have hnot : ¬ (255 : UInt8) ≤ top := UInt8.not_le.mpr hhigh
    intro tail
    rw [List.cons_append, readLength, andThen_readU8,
      if_neg (by decide), if_neg hnot, hother, Nat.mod_eq_of_lt hn]
    exact reads_readU32 hn tail

theorem reads_newLength {n : Nat} (hn : n < 2 ^ 32) : Reader.Reads newLength (lengthBytes n) n :=
  reads_lengthBytes (by decide) (by decide) (if_pos rfl) hn

theorem reads_subpacketLength {n : Nat} (hn : n < 2 ^ 32) :
    Reader.Reads subpacketLength (lengthBytes n) n :=
  reads_lengthBytes (by decide) (by decide) rfl hn

/-! ### Packets -/

theorem header_bits {tag : UInt8} (htag : tag < 64) :
    (0xC0 ||| (tag &&& 0x3F)) &&& 0x80 ≠ 0 ∧ (0xC0 ||| (tag &&& 0x3F)) &&& 0x40 ≠ 0 ∧
    (0xC0 ||| (tag &&& 0x3F)) &&& 0x3F = tag := by
  obtain ⟨⟨i⟩⟩ := tag
  revert i
  decide +kernel

theorem header_of_bits {hdr : UInt8} (hnew : hdr &&& 0x40 ≠ 0) (hset : hdr &&& 0x80 ≠ 0) :
    0xC0 ||| ((hdr &&& 0x3F) &&& 0x3F) = hdr := by
  obtain ⟨⟨i⟩⟩ := hdr
  revert i
  decide +kernel

def packetBytes (p : Packet) : List UInt8 :=
  (0xC0 ||| (p.tag &&& 0x3F)) :: (lengthBytes p.body.length ++ p.body)

theorem reads_packetBytes {p : Packet} (htag : p.tag < 64) (hlen : p.body.length < 2 ^ 32) :
    Reader.Reads readPacket (packetBytes p) p := by
  obtain ⟨hset, hnew, hbits⟩ := header_bits htag
  have hheader : Reader.Reads readHeader
      ((0xC0 ||| (p.tag &&& 0x3F)) :: lengthBytes p.body.length) (p.tag, p.body.length) := by
    intro tail
    rw [List.cons_append, readHeader, andThen_readU8, if_neg hset, if_pos hnew, hbits]
    exact (reads_newLength hlen).map (fun len => (p.tag, len)) tail
  have hbody : Reader.Reads (Reader.andThen (take p.body.length) fun body =>
      Reader.done (⟨p.tag, body⟩ : Packet)) p.body p :=
    (Reader.reads_bytes Error.truncated p.body).map (Packet.mk p.tag)
  exact hheader.andThen (f := fun h => Reader.andThen (take h.2) fun body =>
    Reader.done (Packet.mk h.1 body)) hbody

theorem writePackets_eq (ps : List Packet) : writePackets ps = (ps.map packetBytes).flatten := by
  have hone : writePacket = fun out p => out ++ packetBytes p := rfl
  rw [writePackets, hone, List.foldl_append_eq_append, List.nil_append]

theorem length_body_le {p : Packet} {ps : List Packet} (hp : p ∈ ps) :
    p.body.length ≤ (writePackets ps).length := by
  have hone : p.body.length ≤ (packetBytes p).length := by
    rw [packetBytes, List.length_cons, List.length_append]
    omega
  rw [writePackets_eq]
  exact Nat.le_trans hone (List.sublist_flatten_of_mem (List.mem_map_of_mem hp)).length_le

theorem parsePackets_writePackets {ps : List Packet} (htags : ∀ p ∈ ps, p.tag < 64)
    (hsize : (writePackets ps).length ≤ MAX_INPUT) : parsePackets (writePackets ps) = .ok ps := by
  rw [parsePackets, if_neg (Nat.not_lt.mpr hsize), writePackets_eq]
  refine Reader.toEnd_flatten ?_ _ (Nat.le_refl _)
  rw [List.forall₂_map_left_iff, List.forall₂_same]
  intro p hp
  refine ⟨List.cons_ne_nil _ _, reads_packetBytes (htags p hp) ?_⟩
  have hbody := length_body_le hp
  exact Nat.lt_of_le_of_lt (Nat.le_trans hbody hsize) (by decide)

/-! ### Subpackets -/

def subpacketBytes (sp : UInt8 × List UInt8) : List UInt8 :=
  lengthBytes (sp.2.length + 1) ++ sp.1 :: sp.2

theorem lengthBytes_ne_nil (n : Nat) : lengthBytes n ≠ [] := by
  rw [lengthBytes]
  split
  · exact List.cons_ne_nil _ _
  split
  · exact List.cons_ne_nil _ _
  · exact List.cons_ne_nil _ _

theorem reads_subpacketBytes {sp : UInt8 × List UInt8} (hlen : sp.2.length + 1 < 2 ^ 32) :
    Reader.Reads readSubpacket (subpacketBytes sp) sp := by
  refine (reads_subpacketLength hlen).andThen ?_
  intro tail
  have htake : take (sp.2.length + 1) (sp.1 :: sp.2 ++ tail) = .ok (sp.1 :: sp.2, tail) :=
    Reader.reads_bytes Error.truncated (sp.1 :: sp.2) tail
  rw [Reader.andThen_of_ok htake]
  rfl

theorem pushSubpackets_eq (sps : List (UInt8 × List UInt8)) :
    pushSubpackets sps = (sps.map subpacketBytes).flatten := by
  have hone : pushSubpacket = fun v sp => v ++ subpacketBytes sp := rfl
  rw [pushSubpackets, hone, List.foldl_append_eq_append, List.nil_append]

theorem splitSubpackets_pushSubpackets {sps : List (UInt8 × List UInt8)}
    (hlens : ∀ sp ∈ sps, sp.2.length + 1 < 2 ^ 32) :
    splitSubpackets (pushSubpackets sps) = .ok sps := by
  rw [splitSubpackets, pushSubpackets_eq]
  refine Reader.toEnd_flatten ?_ _ (Nat.le_refl _)
  rw [List.forall₂_map_left_iff, List.forall₂_same]
  intro sp hsp
  exact ⟨List.append_ne_nil_of_left_ne_nil (lengthBytes_ne_nil _) _,
    reads_subpacketBytes (hlens sp hsp)⟩

/-! ### Streams in minimal form -/

/-- A new-format header whose length has no octet more than it needs. -/
def MinimalHeader : List UInt8 → Prop
  | hdr :: first :: rest => hdr &&& 0x40 ≠ 0 ∧ (first = 255 → 8384 ≤ Bytes.ofBe (rest.take 4))
  | _ => False

/-- Every packet of a stream has such a header. Of a stream like that, writing what was read gives
the same bytes again. -/
inductive MinimalStream : List UInt8 → Prop
  | nil : MinimalStream []
  | cons {data rest : List UInt8} {p : Packet} (hheader : MinimalHeader data)
      (hread : readPacket data = .ok (p, rest)) (hrest : MinimalStream rest) : MinimalStream data

theorem readU8_eq_ok {b : UInt8} {data rest : List UInt8} (h : readU8 data = .ok (b, rest)) :
    data = b :: rest := by
  rcases data with _ | ⟨c, data⟩
  · cases h
  · obtain ⟨rfl, rfl⟩ := Prod.mk.inj (Except.ok.inj h)
    rfl

theorem readLength32_eq_ok {n : Nat} {data rest : List UInt8}
    (h : readLength32 data = .ok (n, rest)) : n < 2 ^ 32 ∧ Bytes.ofBe (data.take 4) = n ∧
      data = Bytes.be 4 n ++ rest := by
  obtain ⟨w, mid, hword, h⟩ := Reader.andThen_eq_ok.mp h
  obtain ⟨rfl, rfl⟩ := Prod.mk.inj (Except.ok.inj h)
  obtain ⟨b, mid', hbytes, h⟩ := Reader.andThen_eq_ok.mp hword
  obtain ⟨rfl, rfl⟩ := Prod.mk.inj (Except.ok.inj h)
  obtain ⟨hlen, rfl⟩ := Reader.bytes_eq_ok.mp hbytes
  have hlt : Bytes.ofBe b < 2 ^ 32 := by
    have hlt := Bytes.ofBe_lt b
    rwa [hlen] at hlt
  have hval : (Bytes.ofBe b).toUInt32.toNat = Bytes.ofBe b := Nat.mod_eq_of_lt hlt
  have hbe : Bytes.be 4 (Bytes.ofBe b) = b := by
    rw [← hlen]
    exact Bytes.be_ofBe b
  rw [hval, hbe, ← hlen, List.take_left]
  exact ⟨hlt, rfl, rfl⟩

/-- A length that was read was written with these octets, unless five were used for less. -/
theorem newLength_minimal {first : UInt8} {n : Nat} {tail rest : List UInt8}
    (hminimal : first = 255 → 8384 ≤ Bytes.ofBe (tail.take 4))
    (h : newLength (first :: tail) = .ok (n, rest)) :
    first :: tail = lengthBytes n ++ rest := by
  rw [newLength, readLength, andThen_readU8] at h
  split at h
  · rename_i hle
    obtain ⟨rfl, rfl⟩ := Prod.mk.inj (Except.ok.inj h)
    rw [UInt8.le_iff_toNat_le] at hle
    change first.toNat ≤ 191 at hle
    rw [lengthBytes, if_pos (Nat.lt_succ_of_le hle), toUInt8_toNat]
    rfl
  split at h
  · rename_i hone htwo
    obtain ⟨second, mid, hsecond, h⟩ := Reader.andThen_eq_ok.mp h
    obtain ⟨rfl, rfl⟩ := Prod.mk.inj (Except.ok.inj h)
    rw [readU8_eq_ok hsecond]
    rw [UInt8.le_iff_toNat_le] at hone htwo
    change ¬ first.toNat ≤ 191 at hone
    change first.toNat ≤ 223 at htwo
    have hb := second.toNat_lt
    obtain ⟨m, hm⟩ := Nat.exists_eq_add_of_le (Nat.lt_of_not_le hone)
    have hshift : m <<< 8 = m * 256 := Nat.shiftLeft_eq m 8
    have hquot : (m * 256 + second.toNat) >>> 8 = m := by
      rw [Nat.shiftRight_eq_div_pow]
      omega
    have hrem : (m * 256 + second.toNat) &&& 0xFF = second.toNat := by
      rw [Nat.and_two_pow_sub_one_eq_mod _ 8]
      omega
    rw [hm, Nat.add_sub_cancel_left, hshift, lengthBytes, if_neg (by omega), if_pos (by omega),
      Nat.add_sub_cancel, hquot, hrem, Nat.add_comm m, ← hm, toUInt8_toNat, toUInt8_toNat]
    rfl
  · rename_i hone htwo
    split at h
    · rename_i hfive
      obtain ⟨hlt, hval, rfl⟩ := readLength32_eq_ok h
      have hbig := hminimal hfive
      rw [hval] at hbig
      rw [hfive, lengthBytes, if_neg (by omega), if_neg (by omega), Nat.mod_eq_of_lt hlt]
      rfl
    · cases h

theorem readPacket_minimal {data rest : List UInt8} {p : Packet} (hheader : MinimalHeader data)
    (h : readPacket data = .ok (p, rest)) : data = packetBytes p ++ rest := by
  rcases data with _ | ⟨hdr, _ | ⟨first, tail⟩⟩
  · exact hheader.elim
  · exact hheader.elim
  obtain ⟨hnew, hminimal⟩ := hheader
  obtain ⟨⟨tag, len⟩, mid, hread, h⟩ := Reader.andThen_eq_ok.mp h
  obtain ⟨body, mid', hbody, h⟩ := Reader.andThen_eq_ok.mp h
  obtain ⟨rfl, rfl⟩ := Prod.mk.inj (Except.ok.inj h)
  obtain ⟨hlen, rfl⟩ := Reader.bytes_eq_ok.mp hbody
  dsimp only at hlen
  rw [readHeader, andThen_readU8] at hread
  split at hread
  · cases hread
  rename_i hset
  obtain ⟨len', mid, hlength, hread⟩ := Reader.andThen_eq_ok.mp hread
  obtain ⟨hpair, rfl⟩ := Prod.mk.inj (Except.ok.inj hread)
  obtain ⟨rfl, rfl⟩ := Prod.mk.inj hpair
  rw [packetBytes, header_of_bits hnew hset, newLength_minimal hminimal hlength, hlen,
    List.cons_append, List.append_assoc]

theorem writePackets_parsePackets {data : List UInt8} {ps : List Packet}
    (hminimal : MinimalStream data) (h : parsePackets data = .ok ps) : writePackets ps = data := by
  rw [parsePackets] at h
  split at h
  · cases h
  rw [writePackets_eq]
  clear * - hminimal h
  generalize hfuel : data.length = fuel at h
  replace hfuel := Nat.le_of_eq hfuel
  induction hminimal generalizing fuel ps with
  | nil =>
      rw [Reader.toEnd] at h
      obtain rfl := Except.ok.inj h
      rfl
  | @cons data rest p hheader hread _ ih =>
      obtain rfl := readPacket_minimal hheader hread
      rcases fuel with _ | fuel
      · rw [packetBytes, List.cons_append, Reader.toEnd] at h
        cases h
      have hstep : Reader.toEnd Error.truncated readPacket (fuel + 1) (packetBytes p ++ rest) =
          (readPacket (packetBytes p ++ rest) >>= fun x =>
            Reader.toEnd Error.truncated readPacket fuel x.2 >>= fun ps => .ok (x.1 :: ps)) := rfl
      rw [hstep, hread, Checks.ok_bind] at h
      obtain ⟨ps', hrest, h⟩ := Checks.bind_eq_ok.mp h
      obtain rfl := Except.ok.inj h
      rw [packetBytes, List.cons_append, List.length_cons, List.length_append] at hfuel
      rw [List.map_cons, List.flatten_cons, ih fuel hrest (by omega)]

/-! ### Integers -/

theorem pushMpi_exact {bytes : List UInt8} (h : MpiFits bytes) (tail : List UInt8) :
    readMpi (pushMpi bytes ++ tail) = .ok (Bytes.strip bytes, tail) := reads_pushMpi h tail

/-- **Framing.** Packets, subpackets and integers that were written are read as they were, each
leaving exactly what follows it, and a stream of new-format packets whose lengths have no octet
more than they need is written again as it was. -/
theorem framing_round_trips :
    (∀ ps : List Packet, (∀ p ∈ ps, p.tag < 64) → (writePackets ps).length ≤ MAX_INPUT →
      parsePackets (writePackets ps) = .ok ps) ∧
    (∀ sps : List (UInt8 × List UInt8), (∀ sp ∈ sps, sp.2.length + 1 < 2 ^ 32) →
      splitSubpackets (pushSubpackets sps) = .ok sps) ∧
    (∀ bytes tail, mpiBits (Bytes.strip bytes) < 2 ^ 16 →
      readMpi (pushMpi bytes ++ tail) = .ok (Bytes.strip bytes, tail)) ∧
    ∀ data ps, MinimalStream data → parsePackets data = .ok ps → writePackets ps = data :=
  ⟨fun _ => parsePackets_writePackets, fun _ => splitSubpackets_pushSubpackets,
    fun _ tail h => pushMpi_exact h tail, fun _ _ => writePackets_parsePackets⟩

/-! ### A user id, a long signature and a small integer -/

def userIdPacket : Packet := ⟨13, [0x61, 0x40, 0x62]⟩

/-- A body whose length takes two octets. -/
def signaturePacket : Packet := ⟨2, List.replicate 300 0x5a⟩

/-- The two packets and their bytes, two subpackets, and an integer with a zero before it. -/
theorem framing_round_trips_sample :
    parsePackets (writePackets [userIdPacket, signaturePacket]) =
      .ok [userIdPacket, signaturePacket] ∧
    splitSubpackets [0x05, 0x02, 0x66, 0x00, 0x00, 0x00, 0x02, 0x1b, 0x0c] =
      .ok [(0x02, [0x66, 0x00, 0x00, 0x00]), (0x1b, [0x0c])] ∧
    readMpi [0x00, 0x09, 0x01, 0xff, 0xaa] = .ok ([0x01, 0xff], [0xaa]) ∧
    writePackets [userIdPacket] = [0xcd, 0x03, 0x61, 0x40, 0x62] := by
  obtain ⟨hpackets, hsubpackets, hmpi, hwritten⟩ := framing_round_trips
  have hminimal : MinimalStream [0xcd, 0x03, 0x61, 0x40, 0x62] :=
    .cons (p := userIdPacket) ⟨by decide, by decide⟩ (by rfl) .nil
  exact ⟨hpackets _ (by decide) (by decide +kernel),
    hsubpackets [(0x02, [0x66, 0x00, 0x00, 0x00]), (0x1b, [0x0c])] (by decide),
    hmpi [0x00, 0x01, 0xff] [0xaa] (by decide), hwritten _ _ hminimal (by rfl)⟩

/-! ### Counts that wrap -/

theorem readMpi_wrapped : readMpi (pushMpi (0x80 :: List.replicate 8191 0)) =
    .ok ([], 0x80 :: List.replicate 8191 0) := by
  have hstrip : Bytes.strip (0x80 :: List.replicate 8191 0) = 0x80 :: List.replicate 8191 0 :=
    Bytes.strip_cons (by decide) _
  have hbits : mpiBits (0x80 :: List.replicate 8191 0) % 2 ^ 16 = 0 := by
    rw [mpiBits, List.length_replicate]
    rfl
  rw [pushMpi, hstrip, hbits, readMpi,
    Reader.andThen_of_ok (reads_readU16 (by decide : 0 < 2 ^ 16) _)]
  exact Reader.reads_bytes Error.truncated [] _

theorem splitSubpackets_wrapped {sp : UInt8 × List UInt8} (hlen : sp.2.length + 1 = 2 ^ 32) :
    splitSubpackets (pushSubpackets [sp]) = .error (.malformed "empty signature subpacket") := by
  have hbytes : pushSubpackets [sp] = 0xFF :: (Bytes.be 4 0 ++ sp.1 :: sp.2) := by
    rw [pushSubpackets, List.foldl_cons, List.foldl_nil, pushSubpacket, List.nil_append,
      lengthBytes, hlen, if_neg (by decide), if_neg (by decide), Nat.mod_self, List.cons_append]
  have hread : readSubpacket (0xFF :: (Bytes.be 4 0 ++ sp.1 :: sp.2)) =
      .error (.malformed "empty signature subpacket") := by
    have hzero : subpacketLength (0xFF :: (Bytes.be 4 0 ++ sp.1 :: sp.2)) =
        .ok (0, sp.1 :: sp.2) := by
      rw [subpacketLength, readLength, andThen_readU8, if_neg (by decide), if_neg (by decide)]
      exact reads_readU32 (by decide) _
    have hempty : take 0 (sp.1 :: sp.2) = .ok ([], sp.1 :: sp.2) :=
      Reader.reads_bytes Error.truncated [] (sp.1 :: sp.2)
    rw [readSubpacket, Reader.andThen_of_ok hzero, Reader.andThen_of_ok hempty]
  rw [splitSubpackets, hbytes, List.length_cons, Reader.toEnd, hread]
  rfl

theorem exists_length (n : Nat) : ∃ v : List UInt8, v.length = n :=
  ⟨List.replicate n 0, List.length_replicate⟩

/-- The counts wrap: an integer of 65536 bits is read as nothing, and a subpacket of 2^32 octets
as an empty one. -/
theorem framing_wraps :
    readMpi (pushMpi (0x80 :: List.replicate 8191 0)) =
      .ok ([], 0x80 :: List.replicate 8191 0) ∧
    ∃ sp : UInt8 × List UInt8, splitSubpackets (pushSubpackets [sp]) =
      .error (.malformed "empty signature subpacket") := by
  obtain ⟨v, hv⟩ := exists_length (2 ^ 32 - 1)
  refine ⟨readMpi_wrapped, (2, v), splitSubpackets_wrapped ?_⟩
  show v.length + 1 = 2 ^ 32
  rw [hv, Nat.sub_add_cancel (Nat.one_le_two_pow)]

end Keyroost.PgpKey
