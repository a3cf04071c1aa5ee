import Mathlib.Logic.Function.Iterate
import Keyroost.Piv.CertObject
import Keyroost.Piv.LongWrite

/-!
# Compressed certificates

The gzip member of a certificate object: its header, checksum and size around a deflated body. The
deflate library itself is given. Modelled from `keyroost-transport/src/gzip.rs` and the functions of
`keyroost-transport/src/lib.rs` that store a certificate.

`Deflate` holds the library with the two laws that it is relied on for, that what it compresses is
inflated again and that inflating stops at the cap. The member around it is the source's own: what
was written inflates (`gunzipCapped_gzipMember`), and what inflates agrees with its checksum and its
size (`gunzipCapped_eq_ok`). The second half is about a card's object, which may be anything, and
about storing, where the compressed form is tried only when the plain one does not fit.
-/

namespace Keyroost.Piv

open Transport (Tried)

def MAX_CERT_DECOMPRESSED : Nat := 64 * 1024

/-! ### The checksum -/

def crcBit (c : UInt32) : UInt32 :=
  if c &&& 1 ≠ 0 then (0xEDB88320 : UInt32) ^^^ (c >>> 1) else c >>> 1

/-- One entry of `CRC32_TABLE`. -/
def crcEntry (index : UInt32) : UInt32 := crcBit^[8] index

def crc32 (data : List UInt8) : UInt32 :=
  data.foldl (fun c b => crcEntry ((c ^^^ b.toUInt32) &&& 0xFF) ^^^ (c >>> 8)) 0xFFFFFFFF ^^^
    0xFFFFFFFF

/-! ### The library -/

inductive InflateError where
  | hasMoreOutput
  | failed
deriving DecidableEq, Repr

/-- The library inflates what it deflated, and keeps to the limit it is given. Nothing is assumed of
what `compress` makes, nor of how long it is. -/
structure Deflate where
  compress : List UInt8 → List UInt8
  decompress : List UInt8 → Nat → Except InflateError (List UInt8)
  decompress_compress : ∀ data limit, data.length ≤ limit →
    decompress (compress data) limit = .ok data
  decompress_limit : ∀ body limit out, decompress body limit = .ok out → out.length ≤ limit

/-! ### A member -/

def GZIP_HEADER : List UInt8 := [0x1F, 0x8B, 0x08, 0x00, 0x00, 0x00, 0x00, 0x00, 0x02, 0xFF]

def gzipTrailer (data : List UInt8) : List UInt8 :=
  Bytes.le 4 (crc32 data).toNat ++ Bytes.le 4 (data.length % 2 ^ 32)

section

variable (D : Deflate)

def gzipMember (data : List UInt8) : List UInt8 :=
  GZIP_HEADER ++ D.compress data ++ gzipTrailer data

/-- Behind the extra field, if there is one. -/
def skipExtra (data : List UInt8) (flg : UInt8) (pos : Nat) : Option Nat :=
  if flg &&& 0x04 ≠ 0 then do
    let low ← data[pos]?
    let high ← data[pos + 1]?
    return pos + 2 + Bytes.ofLe [low, high]
  else return pos

/-- Behind a text that a zero byte ends, if the flags say there is one. -/
def skipText (bit : UInt8) (data : List UInt8) (flg : UInt8) (pos : Nat) : Option Nat :=
  if flg &&& bit ≠ 0 then
    if data.length < pos then none
    else do
      let rel ← (data.drop pos).findIdx? (· == 0)
      return pos + rel + 1
  else return pos

/-- Behind the header's own checksum, if there is one. -/
def skipHcrc (flg : UInt8) (pos : Nat) : Nat := if flg &&& 0x02 ≠ 0 then pos + 2 else pos

/-- The inflated body, when the trailer agrees with it. -/
def inflateChecked (body trailer : List UInt8) : Except CertUnreadable (List UInt8) :=
  match D.decompress body MAX_CERT_DECOMPRESSED with
  | .error .hasMoreOutput => .error .tooLarge
  | .error .failed => .error .damaged
  | .ok out =>
      if (crc32 out).toNat = Bytes.ofLe (trailer.take 4) ∧
          out.length % 2 ^ 32 = Bytes.ofLe (trailer.drop 4) then .ok out
      else .error .damaged

def gunzipStream (data : List UInt8) : Option (Except CertUnreadable (List UInt8)) :=
  if data.length < 18 ∨ data[0]? ≠ some 0x1F ∨ data[1]? ≠ some 0x8B ∨ data[2]? ≠ some 0x08 then none
  else do
    let flg ← data[3]?
    let pos ← skipExtra data flg 10
    let pos ← skipText 0x08 data flg pos
    let pos ← skipText 0x10 data flg pos
    let stop := data.length - 8
    if stop < skipHcrc flg pos then none
    else return inflateChecked D ((data.take stop).drop (skipHcrc flg pos)) (data.drop stop)

def gunzipCapped (data : List UInt8) : Except CertUnreadable (List UInt8) :=
  (gunzipStream D data).getD (.error .damaged)

/-! ### What was deflated inflates -/

theorem length_gzipTrailer (data : List UInt8) : (gzipTrailer data).length = 8 := by
  rw [gzipTrailer, List.length_append, Bytes.length_le, Bytes.length_le]

theorem inflateChecked_compress {data : List UInt8} (h : data.length ≤ MAX_CERT_DECOMPRESSED) :
    inflateChecked D (D.compress data) (gzipTrailer data) = .ok data := by
  have hcrc : Bytes.ofLe ((gzipTrailer data).take 4) = (crc32 data).toNat := by
    rw [gzipTrailer, List.take_left' (Bytes.length_le 4 _), Bytes.ofLe_le (crc32 data).toNat_lt]
  have hsize : Bytes.ofLe ((gzipTrailer data).drop 4) = data.length % 2 ^ 32 := by
    rw [gzipTrailer, List.drop_left' (Bytes.length_le 4 _),
      Bytes.ofLe_le (show data.length % 2 ^ 32 < 256 ^ 4 from Nat.mod_lt _ (by decide))]
  rw [inflateChecked, D.decompress_compress data _ h]
  exact if_pos ⟨hcrc.symm, hsize.symm⟩

theorem gunzipCapped_gzipMember {data : List UInt8} (h : data.length ≤ MAX_CERT_DECOMPRESSED) :
    gunzipCapped D (gzipMember D data) = .ok data := by
  have hlen : (gzipMember D data).length = (GZIP_HEADER ++ D.compress data).length + 8 := by
    rw [gzipMember, List.length_append, length_gzipTrailer]
  have hbody : ((gzipMember D data).take ((gzipMember D data).length - 8)).drop 10 =
      D.compress data := by
    rw [hlen, Nat.add_sub_cancel, gzipMember, List.take_left]
    rfl
  have htrailer : (gzipMember D data).drop ((gzipMember D data).length - 8) =
      gzipTrailer data := by
    rw [hlen, Nat.add_sub_cancel, gzipMember, List.drop_left]
  have hlong : 18 ≤ (gzipMember D data).length := by
    rw [hlen, List.length_append]
    show 18 ≤ 10 + _ + 8
    omega
  have hmagic : ¬ ((gzipMember D data).length < 18 ∨ (gzipMember D data)[0]? ≠ some 0x1F ∨
      (gzipMember D data)[1]? ≠ some 0x8B ∨ (gzipMember D data)[2]? ≠ some 0x08) := by
    rintro (hshort | h0 | h1 | h2)
    · exact absurd hlong (Nat.not_le.mpr hshort)
    · exact h0 rfl
    · exact h1 rfl
    · exact h2 rfl
  have hflags : (gzipMember D data)[3]? = some 0x00 := rfl
  have hroom : ¬ (gzipMember D data).length - 8 < 10 := by omega
  have hstream : gunzipStream D (gzipMember D data) =
      some (inflateChecked D (D.compress data) (gzipTrailer data)) := by
    rw [gunzipStream, if_neg hmagic, hflags]
    show (if _ < skipHcrc 0x00 10 then none
      else some (inflateChecked D (List.drop (skipHcrc 0x00 10) _) _)) = _
    rw [show skipHcrc 0x00 10 = 10 from rfl, if_neg hroom, hbody, htrailer]
  rw [gunzipCapped, hstream, Option.getD_some, inflateChecked_compress D h]

/-! ### What inflates agrees with its trailer -/

/-- A member's last eight bytes are the checksum and the size of `out`. -/
def Agrees (gz out : List UInt8) : Prop :=
  (crc32 out).toNat = Bytes.ofLe ((gz.drop (gz.length - 8)).take 4) ∧
    out.length % 2 ^ 32 = Bytes.ofLe ((gz.drop (gz.length - 8)).drop 4)

theorem inflateChecked_eq_ok {body trailer out : List UInt8}
    (h : inflateChecked D body trailer = .ok out) : out.length ≤ MAX_CERT_DECOMPRESSED ∧
      (crc32 out).toNat = Bytes.ofLe (trailer.take 4) ∧
        out.length % 2 ^ 32 = Bytes.ofLe (trailer.drop 4) := by
  rw [inflateChecked] at h
  split at h
  · cases h
  · cases h
  · rename_i got hgot
    split at h
    · rename_i hagree
      obtain rfl := Except.ok.inj h
      exact ⟨D.decompress_limit _ _ _ hgot, hagree⟩
    · cases h

theorem gunzipCapped_eq_ok {gz out : List UInt8} (h : gunzipCapped D gz = .ok out) :
    out.length ≤ MAX_CERT_DECOMPRESSED ∧ Agrees gz out := by
  rw [gunzipCapped] at h
  rcases hstream : gunzipStream D gz with _ | result
  · rw [hstream] at h
    cases h
  rw [hstream, Option.getD_some] at h
  rw [gunzipStream] at hstream
  split at hstream
  · cases hstream
  simp only [Option.bind_eq_bind, Option.bind_eq_some_iff] at hstream
  obtain ⟨flg, -, pos, -, pos', -, pos'', -, hstream⟩ := hstream
  split at hstream
  · cases hstream
  obtain rfl := Option.some.inj hstream
  exact inflateChecked_eq_ok D h

/-! ### The object -/

/-- What an object stores of a certificate. -/
def certPayload (der : List UInt8) : CertInfo → List UInt8
  | .uncompressed => der
  | .gzip => gzipMember D der

theorem certObjectDecode_encode {der : List UInt8} {info : CertInfo}
    (hder : der.length ≤ MAX_CERT_DECOMPRESSED)
    (hfits : (encodeCertificate (certPayload D der info) info).length ≤ 0xFFFF) :
    certObjectDecode (gunzipCapped D)
      (pushTlv [0x53] (encodeCertificate (certPayload D der info) info)) =
        .ok (some ⟨der, decide (info = .gzip)⟩) := by
  have hpayload : (certPayload D der info).length ≤ 0xFFFF := by
    refine Nat.le_trans ?_ hfits
    rw [encodeCertificate, List.length_append, List.length_append, pushTlv, List.length_append]
    omega
  rw [certObjectDecode, unwrapDataObject_pushTlv hfits, Option.bind_some,
    certObjectParts_encodeCertificate hpayload]
  cases info with
  | uncompressed => rfl
  | gzip =>
      show (gunzipCapped D (gzipMember D der)).map _ = _
      rw [gunzipCapped_gzipMember D hder]
      rfl

theorem readBerLen_le {buf : List UInt8} {len header : Nat}
    (h : readBerLen buf = some (len, header)) : len ≤ 0xFFFF := by
  simp only [readBerLen, Option.bind_eq_bind, Option.bind_eq_some_iff] at h
  obtain ⟨first, -, h⟩ := h
  split at h
  · rename_i hshort
    obtain ⟨rfl, -⟩ := Prod.mk.inj (Option.some.inj h)
    have hlt := first.toNat_lt
    omega
  split at h
  · cases h
  rename_i hcount
  split at h
  · cases h
  obtain ⟨rfl, -⟩ := Prod.mk.inj (Option.some.inj h)
  have hlen : ((buf.drop 1).take (first &&& 0x7F).toNat).length ≤ 2 := by
    refine Nat.le_trans (List.length_take_le _ _) ?_
    omega
  have hlt := Bytes.ofBe_lt ((buf.drop 1).take (first &&& 0x7F).toNat)
  have hpow := Nat.pow_le_pow_right (show 0 < 256 by decide) hlen
  omega

theorem findTlvFrom_le {tag : UInt8} {left : Nat} {buf v : List UInt8}
    (h : findTlvFrom tag left buf = some v) : v.length ≤ 0xFFFF := by
  induction left generalizing buf with
  | zero => cases h
  | succ left ih =>
      rcases buf with _ | ⟨t, rest⟩
      · cases h
      simp only [findTlvFrom, Option.bind_eq_bind, Option.bind_eq_some_iff] at h
      obtain ⟨⟨len, header⟩, hlen, value, hvalue, h⟩ := h
      split at h
      · obtain rfl := Option.some.inj h
        rw [slice?] at hvalue
        split at hvalue
        · obtain rfl := Option.some.inj hvalue
          exact Nat.le_trans (List.length_take_le _ _) (readBerLen_le hlen)
        · cases hvalue
      · exact ih h

theorem certObjectDecode_sound {body : List UInt8} {c : StoredCert}
    (h : certObjectDecode (gunzipCapped D) body = .ok (some c)) :
    c.der.length ≤ MAX_CERT_DECOMPRESSED ∧ (c.compressed = true → ∃ gz,
      (unwrapDataObject body).bind certObjectParts = some (gz, true) ∧ Agrees gz c.der) := by
  rw [certObjectDecode] at h
  split at h
  · cases h
  · rename_i der hparts
    obtain rfl := Option.some.inj (Except.ok.inj h)
    refine ⟨?_, fun hcompressed => Bool.noConfusion hcompressed⟩
    obtain ⟨inner, -, hinner⟩ := Option.bind_eq_some_iff.mp hparts
    simp only [certObjectParts, Option.bind_eq_bind, Option.bind_eq_some_iff] at hinner
    obtain ⟨der', hfind, hpair⟩ := hinner
    obtain ⟨rfl, -⟩ := Prod.mk.inj (Option.some.inj hpair)
    exact Nat.le_trans (findTlvFrom_le hfind) (by decide)
  · rename_i gz hparts
    rcases hgunzip : gunzipCapped D gz with e | out
    · rw [hgunzip] at h
      cases h
    rw [hgunzip] at h
    obtain rfl := Option.some.inj (Except.ok.inj h)
    obtain ⟨hcap, hagrees⟩ := gunzipCapped_eq_ok D hgunzip
    exact ⟨hcap, fun _ => ⟨gz, hparts, hagrees⟩⟩

end

/-! ### Storing -/

/-- What the writer is handed: whether a write so far failed at the reader, and a form. -/
abbrev PutCall : Type := Bool × CertInfo × List UInt8

abbrev PutAnswer : PutCall → Type := fun _ => Tried Unit × Bool

/-- The writer, whatever it does. -/
def put (after : Bool) (info : CertInfo) (payload : List UInt8) :
    Dialogue PutAnswer (Tried Unit × Bool) := Dialogue.query (after, info, payload)

def handed (log : List (Dialogue.Asked PutAnswer)) : List (CertInfo × List UInt8) :=
  log.map fun call => call.1.2

def PutAccepted (call : Dialogue.Asked PutAnswer) : Prop := call.2.1 = .ok ()

/-- The result says what was written last, which alone was accepted: in which form, how long that
was, and whether the form was chosen for its length. -/
structure Describes (der gz : List UInt8) (compression : CertCompression)
    (log : List (Dialogue.Asked PutAnswer)) (stored : CertImport) : Prop where
  last : ∃ before call, log = before ++ [call] ∧ PutAccepted call ∧
    (∀ c ∈ before, ¬ PutAccepted c) ∧
    call.1.2 = if stored.compressed then (.gzip, gz) else (.uncompressed, der)
  len : stored.storedLen = (if stored.compressed then gz else der).length
  auto : stored.autoCompressed = (stored.compressed && compression != .always)

variable {σ : Type} {W : Dialogue.Device PutAnswer σ}

theorem runs_storeCompressed {slot : Slot} {der gz : List UInt8} {tried after : Bool} {s t : σ}
    {log : List (Dialogue.Asked PutAnswer)} {r : Tried CertImport × Bool}
    (h : Dialogue.Runs W s (storeCompressed slot der gz tried put after) log r t) :
    ∃ answer, log = [⟨(after, .gzip, gz), answer⟩] ∧
      (answer.1 = .ok () → r.1 = .ok ⟨true, gz.length, tried⟩) ∧
      (answer.1 ≠ .ok () → ∃ e, r.1 = .error e) := by
  rw [storeCompressed, put, Dialogue.query_bind] at h
  obtain ⟨⟨answer, after'⟩, rest, u, rfl, -, hnext⟩ := Dialogue.runs_ask.mp h
  refine ⟨(answer, after'), ?_⟩
  rcases answer with e | ⟨⟩
  · cases e with
    | _ =>
      obtain ⟨rfl, rfl, -⟩ := Dialogue.runs_done.mp hnext
      refine ⟨rfl, ?_, fun _ => ⟨_, rfl⟩⟩
      intro hok
      cases hok
  · obtain ⟨rfl, rfl, -⟩ := Dialogue.runs_done.mp hnext
    exact ⟨rfl, fun _ => rfl, fun hne => absurd rfl hne⟩

/-- What storing a certificate does, whatever the writer answers. -/
def StoresOnce (der gz : List UInt8) (compression : CertCompression)
    (log : List (Dialogue.Asked PutAnswer)) (r : Tried CertImport) : Prop :=
  (handed log).Sublist [(.uncompressed, der), (.gzip, gz)] ∧
  (∀ stored, r = .ok stored → Describes der gz compression log stored) ∧
  ∀ e, r = .error e → ∀ call ∈ log, ¬ PutAccepted call

/-- The compressed write, after at most an uncompressed one that was not accepted. -/
theorem storesOnce_compressed {slot : Slot} {der gz : List UInt8} {compression : CertCompression}
    {before log : List (Dialogue.Asked PutAnswer)} {after : Bool} {s t : σ}
    {r : Tried CertImport × Bool} (hbefore : (handed before).Sublist [(.uncompressed, der)])
    (hrefused : ∀ call ∈ before, ¬ PutAccepted call)
    (h : Dialogue.Runs W s
      (storeCompressed slot der gz (compression != .always) put after) log r t) :
    StoresOnce der gz compression (before ++ log) r.1 := by
  obtain ⟨answer, rfl, hok, herror⟩ := runs_storeCompressed h
  refine ⟨?_, ?_, ?_⟩
  · rw [handed, List.map_append]
    exact hbefore.append (List.Sublist.refl _)
  · intro stored hstored
    have haccepted : answer.1 = .ok () := by
      by_contra hne
      obtain ⟨e, he⟩ := herror hne
      rw [he] at hstored
      cases hstored
    rw [hok haccepted] at hstored
    obtain rfl := Except.ok.inj hstored
    refine ⟨⟨before, _, rfl, haccepted, hrefused, rfl⟩, rfl, ?_⟩
    exact (Bool.true_and _).symm
  · intro e he call hcall haccepted
    rcases List.mem_append.mp hcall with hcall | hcall
    · exact hrefused call hcall haccepted
    · obtain rfl := List.mem_singleton.mp hcall
      rw [hok haccepted] at he
      cases he

theorem storesOnce {gzip : List UInt8 → List UInt8} {slot : Slot} {der : List UInt8}
    {compression : CertCompression} {s t : σ} {log : List (Dialogue.Asked PutAnswer)}
    {r : Tried CertImport × Bool}
    (h : Dialogue.Runs W s (storeCertificate gzip slot der compression put) log r t) :
    StoresOnce der (gzip der) compression log r.1 := by
  simp only [storeCertificate] at h
  split at h
  · rw [put, Dialogue.query_bind] at h
    obtain ⟨⟨answer, after⟩, rest, u, rfl, -, hnext⟩ := Dialogue.runs_ask.mp h
    rcases answer with e | ⟨⟩
    · have hrefused : ∀ call ∈ [(⟨(false, .uncompressed, der), (.error e, after)⟩ :
          Dialogue.Asked PutAnswer)], ¬ PutAccepted call := by
        intro call hcall haccepted
        obtain rfl := List.mem_singleton.mp hcall
        cases haccepted
      have hstop : ∀ e', r.1 = .error e' → rest = [] →
          StoresOnce der (gzip der) compression
            (⟨(false, .uncompressed, der), (.error e, after)⟩ :: rest) r.1 := by
        rintro e' he rfl
        refine ⟨(List.Sublist.refl [_]).trans (List.sublist_append_left [_] [_]), ?_,
          fun _ _ => hrefused⟩
        intro stored hstored
        rw [he] at hstored
        cases hstored
      cases e with
      | pivCertTooLarge s' len c =>
          dsimp only at hnext
          split at hnext
          · refine storesOnce_compressed ?_ hrefused hnext
            exact List.Sublist.refl _
          · obtain ⟨hrest, rfl, -⟩ := Dialogue.runs_done.mp hnext
            exact hstop _ rfl hrest
      | _ =>
          obtain ⟨hrest, rfl, -⟩ := Dialogue.runs_done.mp hnext
          exact hstop _ rfl hrest
    · obtain ⟨rfl, rfl, -⟩ := Dialogue.runs_done.mp hnext
      refine ⟨(List.Sublist.refl [_]).trans (List.sublist_append_left [_] [_]), ?_, ?_⟩
      · intro stored hstored
        obtain rfl := Except.ok.inj hstored
        exact ⟨⟨[], _, rfl, rfl, List.forall_mem_nil _, rfl⟩, rfl, rfl⟩
      · intro e he
        cases he
  · have hnone : (handed []).Sublist [(.uncompressed, der)] := List.nil_sublist _
    exact storesOnce_compressed hnone (List.forall_mem_nil _) h

/-- **Certificate objects.** What was encoded in either form is decoded; whatever the writer
answers, it is handed each form at most once, in order, and the result describes the one that was
accepted; and whatever a card returns, a decoded certificate is within the cap and agrees with
its member's trailer. -/
theorem certificate_object_exact (D : Deflate) :
    (∀ (der : List UInt8) (info : CertInfo), der.length ≤ MAX_CERT_DECOMPRESSED →
      (encodeCertificate (certPayload D der info) info).length ≤ 0xFFFF →
        certObjectDecode (gunzipCapped D)
          (pushTlv [0x53] (encodeCertificate (certPayload D der info) info)) =
            .ok (some ⟨der, decide (info = .gzip)⟩)) ∧
    (∀ (σ : Type) (W : Dialogue.Device PutAnswer σ) (s t : σ) (slot : Slot) (der : List UInt8)
      (compression : CertCompression) (log : List (Dialogue.Asked PutAnswer))
      (r : Tried CertImport × Bool),
      Dialogue.Runs W s (storeCertificate (gzipMember D) slot der compression put) log r t →
        StoresOnce der (gzipMember D der) compression log r.1) ∧
    ∀ (body : List UInt8) (c : StoredCert),
      certObjectDecode (gunzipCapped D) body = .ok (some c) →
        c.der.length ≤ MAX_CERT_DECOMPRESSED ∧ (c.compressed = true → ∃ gz,
          (unwrapDataObject body).bind certObjectParts = some (gz, true) ∧ Agrees gz c.der) :=
  ⟨fun _ _ hder => certObjectDecode_encode D hder, fun _ _ _ _ _ _ _ _ _ => storesOnce,
    fun _ _ => certObjectDecode_sound D⟩

/-! ### A certificate that only fits compressed -/

/-- A SEQUENCE of 40 equal bytes. -/
def sampleDer : List UInt8 := [0x30, 0x28] ++ List.replicate 40 0xAA

/-- The deflate stream of `sampleDer`. -/
def sampleBody : List UInt8 := [0x33, 0xD0, 0x58, 0x45, 0x24, 0x00, 0x00]

/-- The one certificate is deflated; all else goes behind a byte that begins no deflate stream. -/
def sampleCompress (data : List UInt8) : List UInt8 :=
  if data = sampleDer then sampleBody else 0x07 :: data

def sampleInflated (body : List UInt8) : Option (List UInt8) :=
  if body = sampleBody then some sampleDer
  else if body.head? = some 0x07 then some body.tail else none

def sampleDecompress (body : List UInt8) (limit : Nat) : Except InflateError (List UInt8) :=
  match sampleInflated body with
  | none => .error .failed
  | some out => if out.length ≤ limit then .ok out else .error .hasMoreOutput

theorem sampleInflated_compress (data : List UInt8) :
    sampleInflated (sampleCompress data) = some data := by
  rw [sampleCompress]
  split
  · next hdata => rw [hdata]; exact if_pos rfl
  · have hother : (0x07 : UInt8) :: data ≠ sampleBody := fun h =>
      absurd (List.cons.inj h).1 (by decide)
    rw [sampleInflated, if_neg hother]
    exact if_pos rfl

def sampleDeflate : Deflate where
  compress := sampleCompress
  decompress := sampleDecompress
  decompress_compress data limit h := by
    rw [sampleDecompress, sampleInflated_compress]
    exact if_pos h
  decompress_limit body limit out h := by
    rw [sampleDecompress] at h
    split at h
    · cases h
    · split at h
      · next hfits =>
          obtain rfl := Except.ok.inj h
          exact hfits
      · cases h

/-- A card without room for the certificate as it is. -/
def smallCard : Dialogue.Device PutAnswer Unit := fun _ call answer _ =>
  answer = match call.2.1 with
    | .uncompressed => (.error (.pivCertTooLarge .authentication call.2.2.length none), call.1)
    | .gzip => (.ok (), call.1)

/-- The member that is stored, byte for byte; it is read back as the certificate; and on the small
card the certificate is stored in this form, after one attempt in the other. -/
theorem certificate_object_exact_small :
    gzipMember sampleDeflate sampleDer =
      [0x1F, 0x8B, 0x08, 0x00, 0x00, 0x00, 0x00, 0x00, 0x02, 0xFF, 0x33, 0xD0, 0x58, 0x45, 0x24,
        0x00, 0x00, 0x36, 0xDC, 0x57, 0xB9, 0x2A, 0x00, 0x00, 0x00] ∧
    certObjectDecode (gunzipCapped sampleDeflate)
      (pushTlv [0x53] (encodeCertificate (gzipMember sampleDeflate sampleDer) .gzip)) =
        .ok (some ⟨sampleDer, true⟩) ∧
    ∃ log, StoresOnce sampleDer (gzipMember sampleDeflate sampleDer) .auto log
        (.ok ⟨true, 25, true⟩) ∧
      handed log = [(.uncompressed, sampleDer), (.gzip, gzipMember sampleDeflate sampleDer)] := by
  obtain ⟨hdecoded, hstored, -⟩ := certificate_object_exact sampleDeflate
  have hrun : Dialogue.Runs smallCard () (storeCertificate (gzipMember sampleDeflate)
      .authentication sampleDer .auto put)
      [⟨(false, .uncompressed, sampleDer),
          (.error (.pivCertTooLarge .authentication 42 none), false)⟩,
        ⟨(false, .gzip, gzipMember sampleDeflate sampleDer), (.ok (), false)⟩]
      (.ok ⟨true, 25, true⟩, false) () := by
    refine .ask (t := ()) rfl ?_
    refine .ask (t := ()) rfl ?_
    exact .done
  exact ⟨by decide +kernel, hdecoded sampleDer .gzip (by decide +kernel) (by decide),
    _, hstored _ _ _ _ _ _ _ _ _ hrun, rfl⟩

end Keyroost.Piv
