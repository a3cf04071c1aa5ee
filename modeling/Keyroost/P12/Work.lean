import Keyroost.P12.Pfx
import Keyroost.P12.Pkcs12Kdf

/-!
# The work of opening a file

The reader of `Pfx` once more, with a record of the derivations that it runs. The budget is charged
the iterations of each; a derivation of two blocks hashes twice as often.

The copy has the record beside the budget in its state, and `Extends` of the library says that a
copy gives the same result and leaves the same budget: `extends_bags` carries that through the
whole reader, function by function. On the copy, `Keeps` carries the sum of what was recorded and
what is left. `open_work` states the bound; the last section has a file that hashes more often than
its budget says.
-/

namespace Keyroost.P12

/-! ### Derivations -/

structure Derivation where
  hash : Hash
  iterations : Nat
  outLen : Nat
deriving DecidableEq, Repr

/-- How many hash blocks a derivation produces. -/
def Derivation.blocks (d : Derivation) : Nat := kdfRounds d.hash d.outLen

def Derivation.hashes (d : Derivation) : Nat := d.iterations * d.blocks

def iterationsOf (log : List Derivation) : Nat := (log.map Derivation.iterations).sum

/-- The hash computations of some derivations. -/
def hashesOf (log : List Derivation) : Nat := (log.map Derivation.hashes).sum

/-! ### The reader, counting -/

/-- A computation over what is left of the budget and the derivations so far. -/
abbrev Counting (α : Type) : Type := Metered (Nat × List Derivation) P12Error α

def charge (iterations : Nat) : Counting Unit := fun (left, log) =>
  if left < iterations then (.error (.unsupported TOO_MUCH_WORK), left, log)
  else (.ok (), left - iterations, log)

/-- A derivation is run. -/
def derive (d : Derivation) : Counting Unit := fun (left, log) => (.ok (), left, log ++ [d])

section

variable (prims : Primitives)

def countLegacy (scheme : Legacy) (params : Option Tlv) (ciphertext : List UInt8)
    (password : Option RustStr) : Counting (List UInt8) := do
  let (salt, iterations) ← legacyParams params
  charge iterations
  charge iterations
  let pw := bmpPassword password
  derive ⟨.sha1, iterations, scheme.keyLen⟩
  let key := prims.pkcs12Kdf .sha1 pw salt 1 iterations scheme.keyLen
  derive ⟨.sha1, iterations, 8⟩
  let iv := prims.pkcs12Kdf .sha1 pw salt 2 iterations 8
  cbcDecrypt prims scheme.cipher key iv ciphertext

def countPbes2 (params : Option Tlv) (ciphertext : List UInt8) (password : Option RustStr) :
    Counting (List UInt8) := do
  let p ← pbes2Params params
  charge p.iterations
  derive ⟨p.prf, p.iterations, p.keyLen⟩
  let key := prims.pbkdf2 p.prf (RustStr.asBytes (password.getD [])) p.salt p.iterations p.keyLen
  cbcDecrypt prims p.cipher key p.iv ciphertext

def countDecrypt (alg : Tlv) (ciphertext : List UInt8) (password : Option RustStr) :
    Counting (List UInt8) := do
  let id ← algorithmOf alg
  if id.oid = PBES2 then countPbes2 prims id.params ciphertext password
  else
    match legacyOf id.oid with
    | none => Metered.lift (.error (.unsupported "encryption algorithm"))
    | some legacy => countLegacy prims legacy id.params ciphertext password

def countBagContent (id : List UInt8) (value : Tlv) (password : Option RustStr)
    (plainKeysOk : Bool) : Counting (Option (BagKind × List UInt8)) :=
  if id = KEY_BAG_OID then do
    let bytes ← plainKey value plainKeysOk
    return some (.key, bytes)
  else if id = SHROUDED_KEY_BAG_OID then do
    let (alg, cipher) ← shroudedKey value
    let bytes ← countDecrypt prims alg cipher password
    return some (.key, bytes)
  else if id = CERT_BAG_OID then do
    let cert ← certificate value
    return cert.map (BagKind.certificate, ·)
  else return none

def countSafeBag (bag : Tlv) (password : Option RustStr) (plainKeysOk : Bool) :
    Counting (Option RawBag) := do
  let (id, value, attrs) ← bagParts bag
  match ← countBagContent prims id value password plainKeysOk with
  | none => return none
  | some (kind, bytes) =>
      let (localKeyId, friendlyName) ← bagAttributes attrs
      return some ⟨kind, bytes, localKeyId, friendlyName⟩

def countSafeBags (password : Option RustStr) (plainKeysOk : Bool) :
    List Tlv → Counting (List RawBag)
  | [] => return []
  | bag :: rest => do
      let raw ← countSafeBag prims bag password plainKeysOk
      return raw.toList ++ (← countSafeBags password plainKeysOk rest)

def countSafeContents (data : List UInt8) (password : Option RustStr) (plainKeysOk : Bool) :
    Counting (List RawBag) := do
  countSafeBags prims password plainKeysOk (← safeMembers data)

def countContent (info : Tlv) (password : Option RustStr) (plainKeysOk : Bool) :
    Counting (List RawBag) := do
  let (oid, content) ← contentInfo info
  if oid = DATA_OID then do
    Metered.lift (expectOctets content "data content is not an OCTET STRING")
    countSafeContents prims content.value password plainKeysOk
  else if oid = ENCRYPTED_DATA_OID then do
    let (alg, ciphertext) ← encryptedData content
    let plain ← countDecrypt prims alg ciphertext password
    countSafeContents prims plain password true
  else Metered.lift (.error (.unsupported "AuthenticatedSafe content type"))

def countContents (password : Option RustStr) (plainKeysOk : Bool) :
    List Tlv → Counting (List RawBag)
  | [] => return []
  | info :: rest => do
      let bags ← countContent prims info password plainKeysOk
      return bags ++ (← countContents password plainKeysOk rest)

def countAuthSafe (authSafe : List UInt8) (password : Option RustStr) (plainKeysOk : Bool) :
    Counting (List RawBag) := do
  countContents prims password plainKeysOk (← contentInfos authSafe)

def Mac.count (mac : Mac) (data : List UInt8) (password : Option RustStr) : Counting Bool := do
  charge mac.iterations
  derive ⟨mac.hash, mac.iterations, mac.hash.outputLen⟩
  return constantTimeEq (mac.compute prims data password) mac.digest

def countAdmits (authSafe : List UInt8) (mac : Option Mac) (password : Option RustStr) :
    Counting Bool :=
  match mac with
  | none => return true
  | some mac => mac.count prims authSafe password

def countCandidates (authSafe : List UInt8) (mac : Option Mac) :
    List (Option RustStr) → Counting (List RawBag)
  | [] => Metered.lift (.error .wrongPassword)
  | pw :: rest => do
      if ← countAdmits prims authSafe mac pw then
        Metered.orElseIf (countAuthSafe prims authSafe pw mac.isSome) (retries rest.isEmpty)
          (countCandidates authSafe mac rest)
      else countCandidates authSafe mac rest

def countBags (der : List UInt8) (password : Option RustStr) : Counting (List RawBag) := do
  let (authSafe, mac) ← parsePfx der
  countCandidates prims authSafe mac (candidates password)

def MAX_FILE_BYTES : Nat := 1024 * 1024

/-- The derivations that opening a file runs. -/
def openDerivations (file : List UInt8) (password : Option RustStr) : List Derivation :=
  if MAX_FILE_BYTES < file.length then []
  else (countBags prims file password (WORK_BUDGET, [])).2.2

end

/-! ### The copy is the reader -/

section

variable (prims : Primitives)

theorem extends_charge (iterations : Nat) : (charge iterations).Extends (spend iterations) := by
  rintro ⟨left, log⟩
  rw [charge, spend]
  split
  · rfl
  · rfl

theorem extends_derive (d : Derivation) {α : Type} {x : Counting α} {y : Working α}
    (h : x.Extends y) : (derive d >>= fun _ => x).Extends y := by
  rintro ⟨left, log⟩
  exact h (left, log ++ [d])

theorem extends_decrypt (alg : Tlv) (ciphertext : List UInt8) (password : Option RustStr) :
    (countDecrypt prims alg ciphertext password).Extends
      (decrypt prims alg ciphertext password) := by
  refine (Metered.Extends.lift _).bind fun id => ?_
  split
  · refine (Metered.Extends.lift _).bind fun p => (extends_charge _).bind fun _ => ?_
    exact extends_derive _ (.lift _)
  · rcases legacyOf id.oid with _ | legacy
    · exact .lift _
    · refine (Metered.Extends.lift _).bind fun p => (extends_charge _).bind fun _ => ?_
      refine (extends_charge _).bind fun _ => extends_derive _ ?_
      exact extends_derive _ (.lift _)

theorem extends_safeBag (bag : Tlv) (password : Option RustStr) (plainKeysOk : Bool) :
    (countSafeBag prims bag password plainKeysOk).Extends
      (safeBag prims bag password plainKeysOk) := by
  refine (Metered.Extends.lift _).bind fun parts => Metered.Extends.bind ?_ fun content => ?_
  · rw [countBagContent, bagContent]
    split
    · exact (Metered.Extends.lift _).bind fun bytes => .pure _
    · split
      · refine (Metered.Extends.lift _).bind fun shrouded => ?_
        exact (extends_decrypt prims _ _ _).bind fun bytes => .pure _
      · split
        · exact (Metered.Extends.lift _).bind fun cert => .pure _
        · exact .pure _
  · split
    · exact .pure _
    · exact (Metered.Extends.lift _).bind fun names => .pure _

theorem extends_safeBags (password : Option RustStr) (plainKeysOk : Bool) (bags : List Tlv) :
    (countSafeBags prims password plainKeysOk bags).Extends
      (safeBags prims password plainKeysOk bags) := by
  induction bags with
  | nil => exact .pure _
  | cons bag bags ih =>
      exact (extends_safeBag prims bag password plainKeysOk).bind fun raw =>
        ih.bind fun _ => .pure _

theorem extends_safeContents (data : List UInt8) (password : Option RustStr)
    (plainKeysOk : Bool) : (countSafeContents prims data password plainKeysOk).Extends
      (safeContents prims data password plainKeysOk) :=
  (Metered.Extends.lift _).bind fun bags => extends_safeBags prims password plainKeysOk bags

theorem extends_content (info : Tlv) (password : Option RustStr) (plainKeysOk : Bool) :
    (countContent prims info password plainKeysOk).Extends
      (walkContent prims info password plainKeysOk) := by
  refine (Metered.Extends.lift _).bind ?_
  rintro ⟨oid, content⟩
  dsimp only
  split
  · exact (Metered.Extends.lift _).bind fun _ => extends_safeContents prims _ _ _
  · split
    · refine (Metered.Extends.lift _).bind fun data => ?_
      exact (extends_decrypt prims _ _ _).bind fun plain => extends_safeContents prims _ _ _
    · exact .lift _

theorem extends_authSafe (authSafe : List UInt8) (password : Option RustStr)
    (plainKeysOk : Bool) : (countAuthSafe prims authSafe password plainKeysOk).Extends
      (walkAuthSafe prims authSafe password plainKeysOk) := by
  refine (Metered.Extends.lift _).bind fun infos => ?_
  induction infos with
  | nil => exact .pure _
  | cons info infos ih =>
      exact (extends_content prims info password plainKeysOk).bind fun bags =>
        ih.bind fun _ => .pure _

theorem extends_admits (authSafe : List UInt8) (mac : Option Mac) (password : Option RustStr) :
    (countAdmits prims authSafe mac password).Extends (admits prims authSafe mac password) := by
  rcases mac with _ | mac
  · exact .pure _
  · exact (extends_charge _).bind fun _ => extends_derive _ (.pure _)

/-- **Counting changes nothing: the same result, and the same budget left.** -/
theorem extends_bags (der : List UInt8) (password : Option RustStr) :
    (countBags prims der password).Extends (readBagsWithin prims der password) := by
  refine (Metered.Extends.lift _).bind fun file => ?_
  induction candidates password with
  | nil => exact .lift _
  | cons pw rest ih =>
      refine (extends_admits prims _ _ _).bind fun admitted => ?_
      split
      · exact (extends_authSafe prims _ _ _).orElseIf ih
      · exact ih

end

/-! ### The budget -/

theorem iterationsOf_append (log : List Derivation) (d : Derivation) :
    iterationsOf (log ++ [d]) = iterationsOf log + d.iterations := by
  rw [iterationsOf, List.map_append, List.sum_append, iterationsOf]
  rfl

/-- What is left, what was run and so many iterations that are paid for fit in the budget, and no
derivation has more than two blocks. -/
def Paid (budget iterations : Nat) (s : Nat × List Derivation) : Prop :=
  s.1 + iterationsOf s.2 + iterations ≤ budget ∧ ∀ d ∈ s.2, d.blocks ≤ 2

section

variable {budget k : Nat} {α : Type}

/-- A program that runs no more than was paid for and what it pays for itself. -/
def Leads (budget k : Nat) (x : Counting α) : Prop :=
  ∀ s, Paid budget k s → Paid budget 0 (x s).2

theorem leads_lift (x : Except P12Error α) : Leads budget k (Metered.lift x) := by
  rintro s ⟨hpaid, hblocks⟩
  exact ⟨Nat.le_trans (Nat.le_add_right _ k) hpaid, hblocks⟩

theorem leads_charge {iterations : Nat} {x : Counting α} (h : Leads budget (k + iterations) x) :
    Leads budget k (charge iterations >>= fun _ => x) := by
  rintro ⟨left, log⟩ ⟨hpaid, hblocks⟩
  dsimp only at hpaid
  by_cases hlow : left < iterations
  · have hstep : (charge iterations >>= fun _ => x) (left, log) =
        (.error (.unsupported TOO_MUCH_WORK), left, log) := by
      show Metered.bind (charge iterations) (fun _ => x) (left, log) = _
      simp only [Metered.bind, charge, if_pos hlow]
    rw [hstep]
    exact ⟨Nat.le_trans (Nat.le_add_right _ k) hpaid, hblocks⟩
  · have hstep : (charge iterations >>= fun _ => x) (left, log) = x (left - iterations, log) := by
      show Metered.bind (charge iterations) (fun _ => x) (left, log) = _
      simp only [Metered.bind, charge, if_neg hlow]
    rw [hstep]
    refine h _ ⟨?_, hblocks⟩
    dsimp only
    omega

theorem leads_derive {d : Derivation} {x : Counting α} (hd : d.blocks ≤ 2)
    (h : Leads budget k x) : Leads budget (k + d.iterations) (derive d >>= fun _ => x) := by
  rintro ⟨left, log⟩ ⟨hpaid, hblocks⟩
  refine h (left, log ++ [d]) ⟨?_, ?_⟩
  · dsimp only at hpaid ⊢
    rw [iterationsOf_append]
    omega
  · intro d' hd'
    rcases List.mem_append.mp hd' with hd' | hd'
    · exact hblocks d' hd'
    · obtain rfl := List.mem_singleton.mp hd'
      exact hd

theorem leads_pure (a : α) : Leads budget k (pure a : Counting α) := leads_lift (.ok a)

theorem leads_lift_bind {β : Type} {x : Except P12Error α} {f : α → Counting β}
    (hf : ∀ a, x = .ok a → Leads budget k (f a)) : Leads budget k (Metered.lift x >>= f) := by
  intro s hs
  rcases x with e | a
  · exact leads_lift (.error e : Except P12Error β) s hs
  · exact hf a rfl s hs

end

/-- What keeps to the budget on its own. -/
abbrev Within (budget : Nat) {α : Type} (x : Counting α) : Prop := Metered.Keeps (Paid budget 0) x

section

variable (prims : Primitives) {budget : Nat}

theorem blocks_le_two {hash : Hash} (iterations : Nat) {outLen : Nat} (h : outLen ≤ 32) :
    (Derivation.mk hash iterations outLen).blocks ≤ 2 := by
  rw [Derivation.blocks, kdfRounds_le_iff]
  cases hash
  · exact Nat.le_trans h (by decide : 32 ≤ 2 * 20)
  · exact Nat.le_trans h (by decide : 32 ≤ 2 * 32)

/-- What a table of three names gives is one of its values. -/
theorem eq_of_table {α : Type} {oid a b c : List UInt8} {x y z w : α}
    (h : (if oid = a then some x else if oid = b then some y
      else if oid = c then some z else none) = some w) : w = x ∨ w = y ∨ w = z := by
  split at h
  · exact .inl (Option.some.inj h).symm
  · split at h
    · exact .inr (.inl (Option.some.inj h).symm)
    · split at h
      · exact .inr (.inr (Option.some.inj h).symm)
      · cases h

theorem aesOf_keyLen {oid : List UInt8} {p : Cipher × Nat} (h : aesOf oid = some p) :
    p.2 ≤ 32 := by
  rcases eq_of_table h with rfl | rfl | rfl
  all_goals decide

theorem legacyOf_keyLen {oid : List UInt8} {legacy : Legacy} (h : legacyOf oid = some legacy) :
    legacy.keyLen ≤ 32 := by
  rcases eq_of_table h with rfl | rfl | rfl
  all_goals decide

theorem pbes2_keyLen {params : Option Tlv} {p : Pbes2} (h : pbes2Params params = .ok p) :
    p.keyLen ≤ 32 := by
  rcases params with _ | params
  · cases h
  simp only [pbes2Params] at h
  split at h
  · cases h
  obtain ⟨kids, -, h⟩ := Checks.bind_eq_ok.mp h
  split at h
  · split at h
    · cases h
    obtain ⟨enc, -, h⟩ := Checks.bind_eq_ok.mp h
    obtain ⟨⟨cipher, aesKeyLen⟩, haes, h⟩ := Checks.bind_eq_ok.mp h
    have hkeyLen : aesKeyLen ≤ 32 := by
      rcases hof : aesOf enc.oid with _ | q
      · rw [hof] at haes
        cases haes
      · rw [hof] at haes
        obtain rfl := Except.ok.inj haes
        exact aesOf_keyLen hof
    obtain ⟨iv, -, h⟩ := Checks.bind_eq_ok.mp h
    obtain ⟨kdf, -, h⟩ := Checks.bind_eq_ok.mp h
    split at h
    · cases h
    split at h
    · cases h
    split at h
    · cases h
    obtain ⟨⟨salt, iterations, prf⟩, -, h⟩ := Checks.bind_eq_ok.mp h
    obtain rfl := Except.ok.inj h
    exact hkeyLen
  · cases h

theorem within_decrypt (alg : Tlv) (ciphertext : List UInt8) (password : Option RustStr) :
    Within budget (countDecrypt prims alg ciphertext password) := by
  refine Metered.Keeps.lift_bind fun id _ => ?_
  split
  · refine leads_lift_bind fun p hp =>
      leads_charge (leads_derive (d := ⟨_, _, _⟩) ?_ (leads_lift _))
    exact blocks_le_two p.iterations (pbes2_keyLen hp)
  · rcases hlegacy : legacyOf id.oid with _ | legacy
    · exact leads_lift _
    · refine leads_lift_bind fun p _ => leads_charge (leads_charge ?_)
      refine leads_derive (d := ⟨_, _, _⟩) ?_ (leads_derive (d := ⟨_, _, _⟩) ?_ (leads_lift _))
      · exact blocks_le_two p.2 (legacyOf_keyLen hlegacy)
      · exact blocks_le_two p.2 (by decide)

theorem within_safeBag (bag : Tlv) (password : Option RustStr) (plainKeysOk : Bool) :
    Within budget (countSafeBag prims bag password plainKeysOk) := by
  refine (Metered.Keeps.lift _).bind fun parts => Metered.Keeps.bind ?_ fun content => ?_
  · rw [countBagContent]
    split
    · exact (Metered.Keeps.lift _).bind fun bytes => .pure _
    · split
      · refine (Metered.Keeps.lift _).bind fun shrouded => ?_
        exact (within_decrypt prims _ _ _).bind fun bytes => .pure _
      · split
        · exact (Metered.Keeps.lift _).bind fun cert => .pure _
        · exact .pure _
  · split
    · exact .pure _
    · exact (Metered.Keeps.lift _).bind fun names => .pure _

theorem within_safeContents (data : List UInt8) (password : Option RustStr)
    (plainKeysOk : Bool) : Within budget (countSafeContents prims data password plainKeysOk) := by
  refine (Metered.Keeps.lift _).bind fun bags => ?_
  induction bags with
  | nil => exact .pure _
  | cons bag bags ih =>
      exact (within_safeBag prims bag password plainKeysOk).bind fun raw => ih.bind fun _ => .pure _

theorem within_content (info : Tlv) (password : Option RustStr) (plainKeysOk : Bool) :
    Within budget (countContent prims info password plainKeysOk) := by
  refine (Metered.Keeps.lift _).bind ?_
  rintro ⟨oid, content⟩
  dsimp only
  split
  · exact (Metered.Keeps.lift _).bind fun _ => within_safeContents prims _ _ _
  · split
    · refine (Metered.Keeps.lift _).bind fun data => ?_
      exact (within_decrypt prims _ _ _).bind fun plain => within_safeContents prims _ _ _
    · exact .lift _

theorem within_authSafe (authSafe : List UInt8) (password : Option RustStr)
    (plainKeysOk : Bool) : Within budget (countAuthSafe prims authSafe password plainKeysOk) := by
  refine (Metered.Keeps.lift _).bind fun infos => ?_
  induction infos with
  | nil => exact .pure _
  | cons info infos ih =>
      exact (within_content prims info password plainKeysOk).bind fun bags =>
        ih.bind fun _ => .pure _

theorem within_admits (authSafe : List UInt8) (mac : Option Mac) (password : Option RustStr) :
    Within budget (countAdmits prims authSafe mac password) := by
  rcases mac with _ | mac
  · exact .pure _
  · refine leads_charge (leads_derive (d := ⟨_, _, _⟩) ?_ (leads_pure _))
    refine blocks_le_two mac.iterations ?_
    cases mac.hash
    · decide
    · decide

theorem within_bags (der : List UInt8) (password : Option RustStr) :
    Within budget (countBags prims der password) := by
  refine (Metered.Keeps.lift _).bind fun file => ?_
  induction candidates password with
  | nil => exact .lift _
  | cons pw rest ih =>
      refine (within_admits prims _ _ _).bind fun admitted => ?_
      split
      · exact (within_authSafe prims _ _ _).orElseIf ih
      · exact ih

theorem hashesOf_le {log : List Derivation} (h : ∀ d ∈ log, d.blocks ≤ 2) :
    hashesOf log ≤ 2 * iterationsOf log := by
  induction log with
  | nil => exact Nat.le_refl 0
  | cons d log ih =>
      have hd : d.hashes ≤ d.iterations * 2 :=
        Nat.mul_le_mul_left d.iterations (h d List.mem_cons_self)
      have hlog := ih fun d' hd' => h d' (List.mem_cons_of_mem d hd')
      rw [hashesOf, iterationsOf, List.map_cons, List.map_cons, List.sum_cons, List.sum_cons]
      rw [hashesOf, iterationsOf] at hlog
      omega

end

/-- **The work of opening a file.** Whatever the file and the password, the iterations of all its
derivations fit in the budget, and twice as many hash computations are enough for them; counting
them changes neither the result nor the budget left. -/
theorem open_work (prims : Primitives) (file : List UInt8) (password : Option RustStr) :
    iterationsOf (openDerivations prims file password) ≤ WORK_BUDGET ∧
      hashesOf (openDerivations prims file password) ≤ 2 * WORK_BUDGET ∧
        (countBags prims file password).Extends (readBagsWithin prims file password) := by
  obtain ⟨hpaid, hblocks⟩ :
      Paid WORK_BUDGET 0 (countBags prims file password (WORK_BUDGET, [])).2 :=
    within_bags prims file password (WORK_BUDGET, []) ⟨Nat.le_refl WORK_BUDGET, nofun⟩
  have hiterations : iterationsOf (openDerivations prims file password) ≤ WORK_BUDGET := by
    rw [openDerivations]
    split
    · exact Nat.zero_le _
    · omega
  have htwo : ∀ d ∈ openDerivations prims file password, d.blocks ≤ 2 := by
    rw [openDerivations]
    split
    · exact nofun
    · exact hblocks
  refine ⟨hiterations, ?_, extends_bags prims file password⟩
  exact Nat.le_trans (hashesOf_le htwo) (Nat.mul_le_mul_left 2 hiterations)

/-! ### A file that hashes more often than the budget says -/

/-- One container under triple DES with the most iterations there may be. -/
def TRIPLE_DES_FILE : List UInt8 :=
  [0x30, 0x5A, 0x02, 0x01, 0x03, 0x30, 0x55, 0x06, 0x09, 0x2A, 0x86, 0x48, 0x86, 0xF7, 0x0D, 0x01,
    0x07, 0x01, 0xA0, 0x48, 0x04, 0x46, 0x30, 0x44, 0x30, 0x42, 0x06, 0x09, 0x2A, 0x86, 0x48, 0x86,
    0xF7, 0x0D, 0x01, 0x07, 0x06, 0xA0, 0x35, 0x30, 0x33, 0x02, 0x01, 0x00, 0x30, 0x2E, 0x06, 0x09,
    0x2A, 0x86, 0x48, 0x86, 0xF7, 0x0D, 0x01, 0x07, 0x01, 0x30, 0x17, 0x06, 0x0A, 0x2A, 0x86, 0x48,
    0x86, 0xF7, 0x0D, 0x01, 0x0C, 0x01, 0x03, 0x30, 0x09, 0x04, 0x01, 0x01, 0x02, 0x04, 0x00, 0x98,
    0x96, 0x80, 0x80, 0x08, 0x00, 0x00, 0x00, 0x00, 0x00, 0x00, 0x00, 0x00]

/-- Nothing decrypts. -/
def closedPrims : Primitives where
  hmac _ _ _ := []
  pkcs12Kdf _ _ _ _ _ outLen := List.replicate outLen 0
  pbkdf2 _ _ _ _ outLen := List.replicate outLen 0
  decryptPadded _ _ _ _ := none

/-- Two derivations, one of them of two blocks, hash thirty million times; the budget with an
overhead of nearly five million for each derivation is less. -/
theorem open_work_not_budget :
    WORK_BUDGET + 4999999 * (openDerivations closedPrims TRIPLE_DES_FILE (some ['k'])).length <
      hashesOf (openDerivations closedPrims TRIPLE_DES_FILE (some ['k'])) := by
  have hlog : openDerivations closedPrims TRIPLE_DES_FILE (some ['k']) =
      [⟨.sha1, 10000000, 24⟩, ⟨.sha1, 10000000, 8⟩] := by decide +kernel
  have hhashes : hashesOf [⟨.sha1, 10000000, 24⟩, ⟨.sha1, 10000000, 8⟩] = 30000000 := by
    decide
  rw [hlog, hhashes, List.length_cons, List.length_singleton, WORK_BUDGET]
  decide

end Keyroost.P12
