import Keyroost.Resolve.Readers

/-!
# Readers are owned by evidence, not by position

The reader of a node is fixed by the set of nodes and the set of probes alone. Each step is stated
as a relation that mentions no position (`WantsTopology`, `WantsIdentity`, `WantsVendor`), and the
loops are shown to settle exactly what these relations say, although their checks read slots and
claims that earlier turns changed: a node that a turn could have been influenced by reports the same
identity, or guesses the same reader, and then neither of the two is bound.
-/

namespace Keyroost.Resolve

open Hid Transport Slots Sole

theorem sameUsbDevice_comm {a b : Option UsbDeviceKey} (h : sameUsbDevice a b = true) :
    sameUsbDevice b a = true := by
  obtain ⟨key, ha, hb⟩ := sameUsbDevice_iff.mp h
  exact sameUsbDevice_iff.mpr ⟨key, hb, ha⟩

theorem sameUsbDevice_trans {a b c : Option UsbDeviceKey} (h : sameUsbDevice a b = true)
    (h' : sameUsbDevice b c = true) : sameUsbDevice a c = true := by
  obtain ⟨key, ha, hb⟩ := sameUsbDevice_iff.mp h
  obtain ⟨key', hb', hc⟩ := sameUsbDevice_iff.mp h'
  rw [hb] at hb'
  exact sameUsbDevice_iff.mpr ⟨key, ha, hb' ▸ hc⟩

/-- Distinct paths, distinct reader names, and no USB device with two readers. Under this the
binding does not depend on the order of either list. -/
structure Distinct (hids : List HidDevice) (probes : List ReaderProbe) : Prop where
  paths : (hids.map (·.path)).Nodup
  names : (probes.map (·.readerName)).Nodup
  keys : ∀ p ∈ probes, ∀ q ∈ probes, sameUsbDevice p.usbDevice q.usbDevice = true → p = q

namespace Distinct

variable {hids hids' : List HidDevice} {probes probes' : List ReaderProbe}

theorem nodes (hd : Distinct hids probes) : hids.Nodup := hd.paths.of_map

theorem readers (hd : Distinct hids probes) : probes.Nodup := hd.names.of_map

theorem position (hd : Distinct hids probes) {i j : Nat} {h : HidDevice}
    (hi : hids[i]? = some h) (hj : hids[j]? = some h) : i = j := by
  have hlt : i < hids.length := (List.getElem?_eq_some_iff.mp hi).1
  exact (List.getElem?_inj hlt hd.nodes).mp (hi.trans hj.symm)

theorem probe (hd : Distinct hids probes) {p q : ReaderProbe} (hp : p ∈ probes) (hq : q ∈ probes)
    (hname : p.readerName = q.readerName) : p = q :=
  List.inj_on_of_nodup_map hd.names hp hq hname

theorem perm (hd : Distinct hids probes) (hh : hids'.Perm hids) (hp : probes'.Perm probes) :
    Distinct hids' probes' where
  paths := (hh.map _).nodup_iff.mpr hd.paths
  names := (hp.map _).nodup_iff.mpr hd.names
  keys p hpp q hqq := hd.keys p (hp.mem_iff.mp hpp) q (hp.mem_iff.mp hqq)

end Distinct

/-! ### What each step settles -/

/-- The nodes bound so far, each with its reader and the step that bound it. -/
abbrev Settled : Type := HidDevice → RustStr × MatchStep → Prop

namespace Settled

def Open (s : Settled) (h : HidDevice) : Prop := ∀ b, ¬ s h b

/-- Only nodes on the same known USB device own the reader. -/
def FreeFor (hids : List HidDevice) (s : Settled) (reader : RustStr) (h : HidDevice) : Prop :=
  ∀ k ∈ hids, ∀ b, s k b → b.1 = reader → sameUsbDevice k.usbDevice h.usbDevice = true

/-- A further step, binding the open nodes that want a reader by it. -/
def andThen (s : Settled) (step : MatchStep) (wants : HidDevice → RustStr → Prop) : Settled :=
  fun h b => s h b ∨ (wants h b.1 ∧ b.2 = step)

end Settled

open Settled

def WantsTopology (probes : List ReaderProbe) (h : HidDevice) (r : RustStr) : Prop :=
  ∃ p ∈ probes, p.isMolto2 = false ∧ sameUsbDevice p.usbDevice h.usbDevice = true ∧
    p.readerName = r

structure WantsIdentity (hids : List HidDevice) (probes : List ReaderProbe) (ids : Identities)
    (s : Settled) (h : HidDevice) (r : RustStr) (id : CanonicalId) (owner : ReaderProbe) :
    Prop where
  opened : s.Open h
  reported : ids.hid.lookup h.path = some id
  noTwin : ∀ k ∈ hids, s.Open k → ids.hid.lookup k.path = some id → k = h
  isProbe : owner ∈ probes
  isKey : owner.isMolto2 = false
  agrees : ids.reader.lookup owner.readerName = some id
  only : ∀ p ∈ probes, p.isMolto2 = false → ids.reader.lookup p.readerName = some id → p = owner
  oneSided : ¬ (h.usbDevice.isSome = true ∧ owner.usbDevice.isSome = true)
  free : s.FreeFor hids owner.readerName h
  name : owner.readerName = r

structure WantsVendor (hids : List HidDevice) (probes : List ReaderProbe) (ids : Identities)
    (s : Settled) (h : HidDevice) (r : RustStr) : Prop where
  opened : s.Open h
  guess : readerByVendor probes (ykReaders probes) h = some r
  free : s.FreeFor hids r h
  notRuledOut : topologyRulesOutGuess h.usbDevice (readerKey probes (ykReaders probes) r) = false
  notDiffering : identitiesDiffer ids h r = false
  uncontended : ∀ k ∈ hids, k ≠ h → s.Open k →
    topologyRulesOutGuess k.usbDevice (readerKey probes (ykReaders probes) r) = false →
    readerByVendor probes (ykReaders probes) k ≠ some r

/-- **What the evidence says**: the steps, over sets of nodes and probes. -/
def Evidence (hids : List HidDevice) (probes : List ReaderProbe) (ids : Identities)
    (opts : MatchOptions) : Settled :=
  let none : Settled := fun _ _ => False
  let first := if opts.skipTopology then none else none.andThen .topology (WantsTopology probes)
  let second := first.andThen .identity fun h r =>
    ∃ id owner, WantsIdentity hids probes ids first h r id owner
  if opts.skipVendorFallback then second
  else second.andThen .vendor (WantsVendor hids probes ids second)

/-! ### Readers claimed -/

/-- The claims are those of the nodes bound, and nodes that share a reader are on one known
USB device. -/
structure Claims (hids : List HidDevice) (st : Binding (RustStr × MatchStep)) : Prop where
  length : st.bound.length = hids.length
  free : ∀ r, st.claimed.lookup r = none → ∀ k b, slot st.bound k = some b → b.1 ≠ r
  held : ∀ r key, st.claimed.lookup r = some key →
    ∃ k h b, hids[k]? = some h ∧ slot st.bound k = some b ∧ b.1 = r ∧ h.usbDevice = key
  oneDevice : ∀ j k hj hk b c, j ≠ k → hids[j]? = some hj → hids[k]? = some hk →
    slot st.bound j = some b → slot st.bound k = some c → b.1 = c.1 →
    sameUsbDevice hj.usbDevice hk.usbDevice = true

namespace Claims

variable {hids : List HidDevice} {st : Binding (RustStr × MatchStep)}

theorem unbound (hids : List HidDevice) : Claims hids (Binding.unbound _ hids) := by
  have hnone : ∀ k b, slot (Binding.unbound (RustStr × MatchStep) hids).bound k ≠ some b := by
    intro k b h
    rw [Binding.unbound, slot_replicate] at h
    cases h
  refine ⟨List.length_replicate, fun r _ k b h => absurd h (hnone k b), ?_, ?_⟩
  · intro r key h
    cases h
  · intro j k hj hk b c _ _ _ hb
    exact absurd hb (hnone j b)

/-- A reader may be bound where each node that has it is on the node's known USB device. -/
theorem bindable_iff (hst : Claims hids st) {r : RustStr} {hid : HidDevice} :
    readerIsBindable st.claimed r hid = true ↔
      ∀ k hk b, hids[k]? = some hk → slot st.bound k = some b → b.1 = r →
        sameUsbDevice hk.usbDevice hid.usbDevice = true := by
  rw [readerIsBindable]
  rcases hr : st.claimed.lookup r with _ | key
  · constructor
    · intro _ k hk b _ hb hbr
      exact absurd hbr (hst.free r hr k b hb)
    · intro _
      rfl
  · obtain ⟨j, hj, c, hjget, hc, hcr, hkey⟩ := hst.held r key hr
    constructor
    · intro hsame k hk b hkget hb hbr
      have hsame : sameUsbDevice hj.usbDevice hid.usbDevice = true := hkey ▸ hsame
      by_cases hjk : k = j
      · subst hjk
        obtain rfl : hk = hj := Option.some.inj (hkget.symm.trans hjget)
        exact hsame
      · exact sameUsbDevice_trans
          (hst.oneDevice k j hk hj b c hjk hkget hjget hb hc (hbr.trans hcr.symm)) hsame
    · intro hall
      exact hkey ▸ hall j hj c hjget hc hcr

/-- Binding an open node to a reader that may be bound. -/
theorem bind (hst : Claims hids st) {i : Nat} {hid : HidDevice} (hi : hids[i]? = some hid)
    (hopen : slot st.bound i = none) {b : RustStr × MatchStep}
    (hfree : readerIsBindable st.claimed b.1 hid = true) :
    Claims hids (st.bind i hid b.1 b) := by
  have hlt : i < st.bound.length := hst.length ▸ (List.getElem?_eq_some_iff.mp hi).1
  have hfree := hst.bindable_iff.mp hfree
  have hslot : ∀ k, slot (st.bind i hid b.1 b).bound k =
      if k = i then some b else slot st.bound k := slot_set hlt (some b)
  have hlook : ∀ r, (st.bind i hid b.1 b).claimed.lookup r =
      if r = b.1 then some hid.usbDevice else st.claimed.lookup r := by
    intro r
    by_cases hr : r = b.1
    · rw [if_pos hr, hr]
      exact List.lookup_cons_self
    · rw [if_neg hr]
      have hbeq : (r == b.1) = false := beq_eq_false_iff_ne.mpr hr
      rw [Binding.bind, List.lookup_cons, hbeq]
  refine ⟨?_, ?_, ?_, ?_⟩
  · rw [Binding.bind, List.length_set]
    exact hst.length
  · intro r hr k c hc
    rw [hlook] at hr
    rw [hslot] at hc
    split at hr
    · cases hr
    · rename_i hne
      split at hc
      · cases hc
        exact Ne.symm hne
      · exact hst.free r hr k c hc
  · intro r key hr
    rw [hlook] at hr
    split at hr
    · rename_i hrb
      cases hr
      refine ⟨i, hid, b, hi, ?_, hrb.symm, rfl⟩
      rw [hslot, if_pos rfl]
    · obtain ⟨k, h, c, hk, hc, hcr, hkey⟩ := hst.held r key hr
      refine ⟨k, h, c, hk, ?_, hcr, hkey⟩
      rw [hslot, if_neg, hc]
      rintro rfl
      rw [hopen] at hc
      cases hc
  · intro j k hj hk c d hjk hjget hkget hc hd hcd
    rw [hslot] at hc hd
    split at hc
    · rename_i hji
      obtain rfl : hj = hid := Option.some.inj (hjget.symm.trans (hji ▸ hi))
      cases hc
      rw [if_neg (fun hki => hjk (hji.trans hki.symm))] at hd
      exact sameUsbDevice_comm (hfree k hk d hkget hd hcd.symm)
    · split at hd
      · rename_i hki
        obtain rfl : hk = hid := Option.some.inj (hkget.symm.trans (hki ▸ hi))
        cases hd
        exact hfree j hj c hjget hc hcd
      · exact hst.oneDevice j k hj hk c d hjk hjget hkget hc hd hcd

end Claims

/-! ### One step over all nodes -/

/-- The nodes bound are the ones settled. The claims follow from these, so a later step sees the
same claims in whatever order the nodes came. -/
structure Bound (hids : List HidDevice) (s : Settled) (st : Binding (RustStr × MatchStep)) :
    Prop where
  claims : Claims hids st
  slots : ∀ k h b, hids[k]? = some h → (slot st.bound k = some b ↔ s h b)

/-- In the middle of a step, the nodes before position `i` have had their turn. A node is bound if
it was settled before the step, or had its turn and wanted a reader in it. -/
structure Progress (hids : List HidDevice) (s : Settled) (step : MatchStep)
    (wants : HidDevice → RustStr → Prop) (i : Nat) (st : Binding (RustStr × MatchStep)) :
    Prop where
  claims : Claims hids st
  slots : ∀ k h b, hids[k]? = some h →
    (slot st.bound k = some b ↔ s h b ∨ (k < i ∧ wants h b.1 ∧ b.2 = step))

/-- What a turn's choice has to be: the reader the node wants, which it may be bound to. -/
structure Chooses (wants : HidDevice → RustStr → Prop) (st : Binding (RustStr × MatchStep))
    (i : Nat) (hid : HidDevice) (choice : Option RustStr) : Prop where
  wanted : ∀ r, choice = some r ↔ wants hid r
  opened : ∀ r, choice = some r → slot st.bound i = none
  bindable : ∀ r, choice = some r → readerIsBindable st.claimed r hid = true

section Passes

variable {hids : List HidDevice} {s : Settled} {step : MatchStep}
  {wants : HidDevice → RustStr → Prop} {i : Nat} {st : Binding (RustStr × MatchStep)}

theorem Progress.take (hst : Progress hids s step wants i st) {hid : HidDevice}
    (hi : hids[i]? = some hid) {choice : Option RustStr}
    (hchoice : Chooses wants st i hid choice) :
    Progress hids s step wants (i + 1) (st.take i hid step choice) := by
  have hother : ∀ k : Nat, k ≠ i → (k < i + 1 ↔ k < i) := fun k hk => by omega
  rcases choice with _ | r
  · refine ⟨hst.claims, ?_⟩
    intro k h b hk
    rw [Binding.take, hst.slots k h b hk]
    by_cases hki : k = i
    · subst hki
      obtain rfl : h = hid := Option.some.inj (hk.symm.trans hi)
      have hno : ¬ wants h b.1 := fun hw => nomatch (hchoice.wanted b.1).mpr hw
      simp [hno]
    · rw [hother k hki]
  · have hopen := hchoice.opened r rfl
    have hlt : i < st.bound.length :=
      hst.claims.length ▸ (List.getElem?_eq_some_iff.mp hi).1
    refine ⟨hst.claims.bind hi hopen (hchoice.bindable r rfl), ?_⟩
    intro k h b hk
    rw [Binding.take, Binding.bind, slot_set hlt]
    by_cases hki : k = i
    · subst hki
      obtain rfl : h = hid := Option.some.inj (hk.symm.trans hi)
      have hnot : ¬ s h b := by
        intro hs
        rw [(hst.slots k h b hk).mpr (.inl hs)] at hopen
        cases hopen
      rw [if_pos rfl, Option.some.injEq]
      constructor
      · rintro rfl
        exact .inr ⟨Nat.lt_succ_self k, (hchoice.wanted r).mp rfl, rfl⟩
      · rintro (hs | ⟨-, hw, hstep⟩)
        · exact absurd hs hnot
        · exact Prod.ext (Option.some.inj ((hchoice.wanted b.1).mpr hw)) hstep.symm
    · rw [if_neg hki, hst.slots k h b hk, hother k hki]

/-- **A step settles what its turns want**, where every turn chooses that. -/
theorem Bound.pass {choose : Binding (RustStr × MatchStep) → Nat → HidDevice → Option RustStr}
    (hst : Bound hids s st)
    (hturn : ∀ i hid st, hids[i]? = some hid → Progress hids s step wants i st →
      Chooses wants st i hid (choose st i hid)) :
    Bound hids (s.andThen step wants)
      (turns (fun st i hid => st.take i hid step (choose st i hid)) st hids) := by
  have hstart : Progress hids s step wants 0 st :=
    ⟨hst.claims, fun k h b hk => by simp [hst.slots k h b hk]⟩
  have hrun : Progress hids s step wants hids.length
      (turns (fun st i hid => st.take i hid step (choose st i hid)) st hids) :=
    turns_rule (Progress hids s step wants)
      (fun i hid st hi hst => hst.take hi (hturn i hid st hi hst)) hstart
  refine ⟨hrun.claims, ?_⟩
  intro k h b hk
  have hlt : k < hids.length := (List.getElem?_eq_some_iff.mp hk).1
  rw [hrun.slots k h b hk, andThen]
  simp [hlt]

theorem Progress.open_of_slot (hst : Progress hids s step wants i st) {k : Nat} {h : HidDevice}
    (hk : hids[k]? = some h) (hslot : slot st.bound k = none) : s.Open h := by
  intro b hb
  rw [(hst.slots k h b hk).mpr (.inl hb)] at hslot
  cases hslot

/-- A slot is open where the node was open before the step and has not been bound by it. -/
theorem Progress.slot_none (hst : Progress hids s step wants i st) {k : Nat} {h : HidDevice}
    (hk : hids[k]? = some h) (hopen : s.Open h) (hno : k < i → ∀ r, ¬ wants h r) :
    slot st.bound k = none := by
  rcases hslot : slot st.bound k with _ | b
  · rfl
  · rcases (hst.slots k h b hk).mp hslot with hs | ⟨hlt, hw, -⟩
    · exact absurd hs (hopen b)
    · exact absurd hw (hno hlt b.1)

/-- At a node's own turn its slot is open exactly where the node is. -/
theorem Progress.slot_self (hst : Progress hids s step wants i st) {hid : HidDevice}
    (hi : hids[i]? = some hid) : slot st.bound i = none ↔ s.Open hid :=
  ⟨hst.open_of_slot hi, fun hopen =>
    hst.slot_none hi hopen fun hlt => absurd hlt (Nat.lt_irrefl i)⟩

/-- A reader may be bound where it is free, and no node bound earlier in the step has it. -/
theorem Progress.bindable_iff (hst : Progress hids s step wants i st) {hid : HidDevice}
    {r : RustStr} (hno : ∀ k h, k < i → hids[k]? = some h → ¬ wants h r) :
    readerIsBindable st.claimed r hid = true ↔ s.FreeFor hids r hid := by
  rw [hst.claims.bindable_iff]
  constructor
  · intro hall k hk b hb hbr
    obtain ⟨j, hj⟩ := List.getElem?_of_mem hk
    exact hall j k b hj ((hst.slots j k b hj).mpr (.inl hb)) hbr
  · intro hfree k h b hk hb hbr
    rcases (hst.slots k h b hk).mp hb with hs | ⟨hlt, hw, -⟩
    · exact hfree h (List.mem_of_getElem? hk) b hs hbr
    · exact absurd (hbr ▸ hw) (hno k h hlt hk)

end Passes

/-! ### The three steps -/

section Steps

variable {hids : List HidDevice} {probes : List ReaderProbe} {ids : Identities} {s : Settled}
  {i : Nat} {st : Binding (RustStr × MatchStep)} {hid : HidDevice}

theorem readerByTopology_iff (hd : Distinct hids probes) {p : ReaderProbe} :
    readerByTopology probes hid = some p ↔
      p ∈ probes ∧ p.isMolto2 = false ∧ sameUsbDevice p.usbDevice hid.usbDevice = true := by
  have honce : AtMostOne (fun p => sameUsbDevice p.usbDevice hid.usbDevice)
      (probes.filter fun p => !p.isMolto2) := by
    intro p hp q hq hps hqs
    exact hd.keys p (List.mem_filter.mp hp).1 q (List.mem_filter.mp hq).1
      (sameUsbDevice_trans hps (sameUsbDevice_comm hqs))
  rw [readerByTopology, honce.find?, List.mem_filter, Bool.not_eq_true', and_assoc]

/-- What holds of the loop of step 1, before its turn `i`: the slots of the earlier nodes are
settled as the relation says, and every claim is by the key of the reader claimed. -/
structure TopologyLoop (hids : List HidDevice) (probes : List ReaderProbe) (i : Nat)
    (st : Binding RustStr) : Prop where
  length : st.bound.length = hids.length
  slots : ∀ k h r, hids[k]? = some h →
    (slot st.bound k = some r ↔ k < i ∧ WantsTopology probes h r)
  claims : ∀ r key, st.claimed.lookup r = some key →
    ∃ p ∈ probes, p.readerName = r ∧ sameUsbDevice p.usbDevice key = true

theorem TopologyLoop.turn (hd : Distinct hids probes) {st : Binding RustStr}
    (hst : TopologyLoop hids probes i st) (hi : hids[i]? = some hid) :
    TopologyLoop hids probes (i + 1) (topologyTurn probes st i hid) := by
  have hother : ∀ k : Nat, k ≠ i → (k < i + 1 ↔ k < i) := fun k hk => by omega
  rw [topologyTurn]
  rcases hp : readerByTopology probes hid with _ | p
  · refine ⟨hst.length, ?_, hst.claims⟩
    intro k h r hk
    rw [hst.slots k h r hk]
    by_cases hki : k = i
    · subst hki
      obtain rfl : h = hid := Option.some.inj (hk.symm.trans hi)
      have hno : ¬ WantsTopology probes h r := by
        rintro ⟨p, hpmem, hkey, hsame, -⟩
        rw [(readerByTopology_iff hd).mpr ⟨hpmem, hkey, hsame⟩] at hp
        cases hp
      simp [hno]
    · rw [hother k hki]
  · obtain ⟨hpmem, hkey, hsame⟩ := (readerByTopology_iff hd).mp hp
    have hbind : readerIsBindable st.claimed p.readerName hid = true := by
      rw [readerIsBindable]
      rcases hr : st.claimed.lookup p.readerName with _ | key
      · rfl
      · obtain ⟨q, hq, hname, hqkey⟩ := hst.claims _ _ hr
        obtain rfl := hd.probe hq hpmem hname
        exact sameUsbDevice_trans (sameUsbDevice_comm hqkey) hsame
    have hlt : i < st.bound.length := hst.length ▸ (List.getElem?_eq_some_iff.mp hi).1
    simp only [hbind, if_true]
    refine ⟨?_, ?_, ?_⟩
    · rw [Binding.bind, List.length_set]
      exact hst.length
    · intro k h r hk
      rw [Binding.bind, slot_set hlt]
      by_cases hki : k = i
      · subst hki
        obtain rfl : h = hid := Option.some.inj (hk.symm.trans hi)
        rw [if_pos rfl, Option.some.injEq]
        constructor
        · rintro rfl
          exact ⟨Nat.lt_succ_self k, p, hpmem, hkey, hsame, rfl⟩
        · rintro ⟨-, q, hq, -, hqsame, hqname⟩
          rw [hd.keys p hpmem q hq (sameUsbDevice_trans hsame (sameUsbDevice_comm hqsame)),
            hqname]
      · rw [if_neg hki, hst.slots k h r hk, hother k hki]
    · intro r key hr
      rw [Binding.bind, List.lookup_cons] at hr
      split at hr
      · rename_i hrp
        cases hr
        exact ⟨p, hpmem, (eq_of_beq hrp).symm, hsame⟩
      · exact hst.claims r key hr

theorem slot_topologyBound (hd : Distinct hids probes) (hi : hids[i]? = some hid) {r : RustStr} :
    slot (topologyBound hids probes) i = some r ↔ WantsTopology probes hid r := by
  have hstart : TopologyLoop hids probes 0 (Binding.unbound RustStr hids) := by
    refine ⟨List.length_replicate, ?_, fun r key hr => nomatch hr⟩
    intro k h r _
    rw [Binding.unbound, slot_replicate]
    simp
  have hrun := turns_rule (TopologyLoop hids probes)
    (fun i hid st hi hst => TopologyLoop.turn hd hst hi) hstart
  rw [topologyBound, hrun.slots i hid r hi]
  exact and_iff_right (List.getElem?_eq_some_iff.mp hi).1

theorem chooses_topology (hd : Distinct hids probes) (hi : hids[i]? = some hid)
    (hst : Progress hids (fun _ _ => False) .topology (WantsTopology probes) i st) :
    Chooses (WantsTopology probes) st i hid (slot (topologyBound hids probes) i) := by
  refine ⟨fun r => slot_topologyBound hd hi, ?_, ?_⟩
  · intro r _
    exact (hst.slot_self hi).mpr fun b hb => hb
  · intro r hr
    obtain ⟨p, hp, -, hsame, hname⟩ := (slot_topologyBound hd hi).mp hr
    rw [hst.claims.bindable_iff]
    intro k h b hk hb hbr
    rcases (hst.slots k h b hk).mp hb with hs | ⟨-, ⟨q, hq, -, hqsame, hqname⟩, -⟩
    · exact absurd hs id
    · obtain rfl := hd.probe hq hp (hqname.trans (hbr.trans hname.symm))
      exact sameUsbDevice_trans (sameUsbDevice_comm hqsame) hsame

theorem identityChoice_iff {r : RustStr} :
    identityChoice hids probes ids st i hid = some r ↔ slot st.bound i = none ∧
      ∃ id owner, ids.hid.lookup hid.path = some id ∧
        sole (probes.filter fun p =>
          !p.isMolto2 && decide (ids.reader.lookup p.readerName = some id)) = some owner ∧
        (hids.zipIdx.filter fun e =>
          (slot st.bound e.2).isNone && decide (ids.hid.lookup e.1.path = some id)).length = 1 ∧
        ¬ (hid.usbDevice.isSome = true ∧ owner.usbDevice.isSome = true) ∧
        readerIsBindable st.claimed owner.readerName hid = true ∧ owner.readerName = r := by
  rw [identityChoice]
  rcases hslot : slot st.bound i with _ | b
  · rcases hid' : ids.hid.lookup hid.path with _ | id
    · simp
    · rcases hown : sole (probes.filter fun p =>
          !p.isMolto2 && decide (ids.reader.lookup p.readerName = some id)) with _ | owner
      · simp [hown]
      · simp [hown, not_or, and_assoc]
  · simp

/-- The nodes counted as twins are the open ones with the identity: one that the step has
bound already would have had this node as a twin. -/
theorem length_twins (hd : Distinct hids probes) {s : Settled}
    (hst : Progress hids s .identity
      (fun h r => ∃ id owner, WantsIdentity hids probes ids s h r id owner) i st)
    (hi : hids[i]? = some hid) (hopen : s.Open hid) {id : CanonicalId}
    (hid' : ids.hid.lookup hid.path = some id) :
    (hids.zipIdx.filter fun e =>
      (slot st.bound e.2).isNone && decide (ids.hid.lookup e.1.path = some id)).length = 1 ↔
    ∀ k ∈ hids, s.Open k → ids.hid.lookup k.path = some id → k = hid := by
  rw [length_filter_eq_one (nodup_zipIdx hids 0) (List.mk_mem_zipIdx_iff_getElem?.mpr hi)
    (by simp [(hst.slot_self hi).mpr hopen, hid'])]
  constructor
  · intro honly k hk hkopen hkid
    obtain ⟨j, hj⟩ := List.getElem?_of_mem hk
    have hslot : slot st.bound j = none := by
      refine hst.slot_none hj hkopen ?_
      rintro hji r ⟨id', owner, hw⟩
      obtain rfl : id = id' := Option.some.inj (hkid.symm.trans hw.reported)
      have hsame := hw.noTwin hid (List.mem_of_getElem? hi) hopen hid'
      exact absurd (hd.position hj (hsame ▸ hi)) (Nat.ne_of_lt hji)
    have heq := honly (k, j) (List.mk_mem_zipIdx_iff_getElem?.mpr hj) (by simp [hslot, hkid])
    exact congrArg Prod.fst heq
  · rintro honly ⟨k, j⟩ hkj htwin
    have hj : hids[j]? = some k := List.mk_mem_zipIdx_iff_getElem?.mp hkj
    rw [Bool.and_eq_true, Option.isNone_iff_eq_none, decide_eq_true_iff] at htwin
    have hkhid : k = hid := honly k (List.mem_of_getElem? hj)
      (hst.open_of_slot hj htwin.1) htwin.2
    rw [hkhid, hd.position hj (hkhid ▸ hi)]

theorem chooses_identity (hd : Distinct hids probes) (hi : hids[i]? = some hid)
    (hst : Progress hids s .identity
      (fun h r => ∃ id owner, WantsIdentity hids probes ids s h r id owner) i st) :
    Chooses (fun h r => ∃ id owner, WantsIdentity hids probes ids s h r id owner) st i hid
      (identityChoice hids probes ids st i hid) := by
  -- A node bound to the same owner earlier in the step reports this node's identity.
  have hbind : ∀ id owner, s.Open hid → ids.hid.lookup hid.path = some id → owner ∈ probes →
      ids.reader.lookup owner.readerName = some id →
      (readerIsBindable st.claimed owner.readerName hid = true ↔
        s.FreeFor hids owner.readerName hid) := by
    intro id owner hopen hid' howner hreader
    refine hst.bindable_iff ?_
    rintro k h hki hk ⟨id', owner', hw⟩
    obtain rfl := hd.probe hw.isProbe howner hw.name
    obtain rfl : id = id' := Option.some.inj (hreader.symm.trans hw.agrees)
    have hsame := hw.noTwin hid (List.mem_of_getElem? hi) hopen hid'
    exact absurd (hd.position hk (hsame ▸ hi)) (Nat.ne_of_lt hki)
  refine ⟨?_, ?_, ?_⟩
  · intro r
    rw [identityChoice_iff, hst.slot_self hi]
    constructor
    · rintro ⟨hopen, id, owner, hid', hown, htwins, hsided, hfree, hname⟩
      obtain ⟨⟨howner, hkey⟩, honly⟩ := (sole_filter hd.readers).mp hown
      rw [Bool.and_eq_true, Bool.not_eq_true', decide_eq_true_iff] at hkey
      refine ⟨id, owner, hopen, hid', (length_twins hd hst hi hopen hid').mp htwins, howner,
        hkey.1, hkey.2, ?_, hsided, (hbind id owner hopen hid' howner hkey.2).mp hfree, hname⟩
      intro p hp hpkey hpid
      exact honly p hp (by rw [hpkey, hpid]; simp)
    · rintro ⟨id, owner, hw⟩
      refine ⟨hw.opened, id, owner, hw.reported, ?_,
        (length_twins hd hst hi hw.opened hw.reported).mpr hw.noTwin, hw.oneSided,
        (hbind id owner hw.opened hw.reported hw.isProbe hw.agrees).mpr hw.free, hw.name⟩
      refine (sole_filter hd.readers).mpr ⟨⟨hw.isProbe, ?_⟩, ?_⟩
      · rw [hw.isKey, hw.agrees]
        simp
      · intro p hp hpown
        rw [Bool.and_eq_true, Bool.not_eq_true', decide_eq_true_iff] at hpown
        exact hw.only p hp hpown.1 hpown.2
  · intro r hr
    exact (identityChoice_iff.mp hr).1
  · intro r hr
    obtain ⟨-, id, owner, -, -, -, -, hfree, hname⟩ := identityChoice_iff.mp hr
    exact hname ▸ hfree

theorem vendorChoice_iff {yk : List YubiKeyCcid} {r : RustStr} :
    vendorChoice hids probes yk ids st i hid = some r ↔ slot st.bound i = none ∧
      readerByVendor probes yk hid = some r ∧ readerIsBindable st.claimed r hid = true ∧
      topologyRulesOutGuess hid.usbDevice (readerKey probes yk r) = false ∧
      identitiesDiffer ids hid r = false ∧
      ∀ e ∈ hids.zipIdx, e.2 ≠ i → slot st.bound e.2 = none →
        topologyRulesOutGuess e.1.usbDevice (readerKey probes yk r) = false →
        readerByVendor probes yk e.1 ≠ some r := by
  rw [vendorChoice]
  rcases hslot : slot st.bound i with _ | b
  · rcases hguess : (readerByVendor probes yk hid).filter fun n =>
        readerIsBindable st.claimed n hid with _ | name
    · constructor
      · intro h
        cases h
      · rintro ⟨-, hr, hfree, -⟩
        rw [hr, Option.filter_some, if_pos hfree] at hguess
        cases hguess
    · obtain ⟨hname, hfree⟩ := Option.filter_eq_some_iff.mp hguess
      simp only [Option.isSome_none, Bool.false_eq_true, if_false, true_and]
      constructor
      · intro h
        split at h
        · cases h
        · rename_i hruled
          split at h
          · cases h
          · rename_i hdiffer
            split at h
            · cases h
            · rename_i hcontended
              obtain rfl : name = r := Option.some.inj h
              refine ⟨hname, hfree, eq_false_of_ne_true hruled, eq_false_of_ne_true hdiffer, ?_⟩
              intro e he hei heslot heruled heguess
              apply hcontended
              rw [List.any_eq_true]
              exact ⟨e, he, by simp [hei, heslot, heruled, heguess]⟩
      · rintro ⟨hr, -, hruled, hdiffer, hfreeOf⟩
        obtain rfl : name = r := Option.some.inj (hname.symm.trans hr)
        rw [hruled, hdiffer, if_neg Bool.false_ne_true, if_neg Bool.false_ne_true, if_neg]
        rw [List.any_eq_true]
        rintro ⟨e, he, hcontends⟩
        simp only [Bool.and_eq_true, decide_eq_true_eq, Option.isNone_iff_eq_none,
          Bool.not_eq_true'] at hcontends
        obtain ⟨⟨⟨hei, heslot⟩, heruled⟩, heguess⟩ := hcontends
        exact hfreeOf e he hei heslot heruled heguess
  · simp

theorem chooses_vendor (hd : Distinct hids probes) (hi : hids[i]? = some hid)
    (hst : Progress hids s .vendor (WantsVendor hids probes ids s) i st) :
    Chooses (WantsVendor hids probes ids s) st i hid
      (vendorChoice hids probes (ykReaders probes) ids st i hid) := by
  -- Two open nodes that may both guess a reader contend for it, whoever comes first.
  have hrival : ∀ k h r, k < i → hids[k]? = some h → s.Open hid →
      readerByVendor probes (ykReaders probes) hid = some r →
      topologyRulesOutGuess hid.usbDevice (readerKey probes (ykReaders probes) r) = false →
      ¬ WantsVendor hids probes ids s h r := by
    intro k h r hki hk hopen hguess hruled hw
    have hne : hid ≠ h := fun heq => absurd (hd.position hk (heq ▸ hi)) (Nat.ne_of_lt hki)
    exact hw.uncontended hid (List.mem_of_getElem? hi) hne hopen hruled hguess
  refine ⟨?_, ?_, ?_⟩
  · intro r
    rw [vendorChoice_iff, hst.slot_self hi]
    constructor
    · rintro ⟨hopen, hguess, hfree, hruled, hdiffer, hno⟩
      refine ⟨hopen, hguess, (hst.bindable_iff fun k h hki hk =>
        hrival k h r hki hk hopen hguess hruled).mp hfree, hruled, hdiffer, ?_⟩
      intro k hk hne hkopen hkruled hkguess
      obtain ⟨j, hj⟩ := List.getElem?_of_mem hk
      have hji : j ≠ i := by
        rintro rfl
        exact hne (Option.some.inj (hj.symm.trans hi))
      have hslot : slot st.bound j = none := by
        refine hst.slot_none hj hkopen ?_
        intro hlt r' hw
        obtain rfl : r = r' := Option.some.inj (hkguess.symm.trans hw.guess)
        exact hrival j k r hlt hj hopen hguess hruled hw
      exact hno (k, j) (List.mk_mem_zipIdx_iff_getElem?.mpr hj) hji hslot hkruled hkguess
    · intro hw
      refine ⟨hw.opened, hw.guess, (hst.bindable_iff fun k h hki hk =>
        hrival k h r hki hk hw.opened hw.guess hw.notRuledOut).mpr hw.free, hw.notRuledOut,
        hw.notDiffering, ?_⟩
      rintro ⟨k, j⟩ hkj hji hslot hkruled
      have hj : hids[j]? = some k := List.mk_mem_zipIdx_iff_getElem?.mp hkj
      have hne : k ≠ hid := fun heq => hji (hd.position hj (heq ▸ hi))
      exact hw.uncontended k (List.mem_of_getElem? hj) hne (hst.open_of_slot hj hslot) hkruled
  · intro r hr
    exact (vendorChoice_iff.mp hr).1
  · intro r hr
    exact (vendorChoice_iff.mp hr).2.2.1

/-- **The matching settles what the evidence says.** -/
theorem bound_bindReaders (hd : Distinct hids probes) (ids : Identities) (opts : MatchOptions) :
    ∃ st, Bound hids (Evidence hids probes ids opts) st ∧
      bindReaders hids probes (ykReaders probes) ids opts = st.bound := by
  refine ⟨_, ?_, rfl⟩
  have hstart : Bound hids (fun _ _ => False) (Binding.unbound _ hids) := by
    refine ⟨Claims.unbound hids, ?_⟩
    intro k h b _
    rw [Binding.unbound, slot_replicate]
    simp
  have hfirst : Bound hids
      (if opts.skipTopology then fun _ _ => False
        else Settled.andThen (fun _ _ => False) .topology (WantsTopology probes))
      (if opts.skipTopology then Binding.unbound _ hids
        else turns (fun st i hid =>
          st.take i hid .topology (slot (topologyBound hids probes) i)) (Binding.unbound _ hids)
            hids) := by
    split
    · exact hstart
    · exact hstart.pass fun i hid st hi hst => chooses_topology hd hi hst
  have hsecond := hfirst.pass fun i hid st hi
      (hst : Progress hids _ .identity
        (fun h r => ∃ id owner, WantsIdentity hids probes ids _ h r id owner) i st) =>
    chooses_identity hd hi hst
  rw [Evidence]
  split
  · exact hsecond
  · exact hsecond.pass fun i hid st hi hst => chooses_vendor hd hi hst

/-! ### The order of nodes and probes -/

variable {hids' : List HidDevice} {probes' : List ReaderProbe}

theorem readerByVendor_perm (hp : probes'.Perm probes) (h : HidDevice) :
    readerByVendor probes' (ykReaders probes') h = readerByVendor probes (ykReaders probes) h := by
  have hyk : (ykReaders probes').Perm (ykReaders probes) := (hp.filter _).map _
  rw [readerByVendor, readerByVendor, sole_perm (hyk.filter _),
    sole_perm (((hp.filter _).map _).filter _)]

theorem readerKey_perm (hd : Distinct hids probes) (hp : probes'.Perm probes) (name : RustStr) :
    readerKey probes' (ykReaders probes') name = readerKey probes (ykReaders probes) name := by
  have hyk : (ykReaders probes').Perm (ykReaders probes) := (hp.filter _).map _
  have hprobe : AtMostOne (fun p : ReaderProbe => decide (p.readerName = name)) probes := by
    intro p hpm q hqm hpn hqn
    exact hd.probe hpm hqm ((of_decide_eq_true hpn).trans (of_decide_eq_true hqn).symm)
  have hreader : AtMostOne (fun c : YubiKeyCcid => decide (c.readerName = name))
      (ykReaders probes) := by
    intro c hc d hdm hcn hdn
    obtain ⟨p, hpm, rfl⟩ := List.mem_map.mp hc
    obtain ⟨q, hqm, rfl⟩ := List.mem_map.mp hdm
    rw [hd.probe (List.mem_filter.mp hpm).1 (List.mem_filter.mp hqm).1
      ((of_decide_eq_true hcn).trans (of_decide_eq_true hdn).symm)]
  rw [readerKey, readerKey, hprobe.find?_perm hp, hreader.find?_perm hyk]

theorem evidence_perm (hd : Distinct hids probes) (hh : hids'.Perm hids)
    (hp : probes'.Perm probes) (ids : Identities) (opts : MatchOptions) :
    Evidence hids' probes' ids opts = Evidence hids probes ids opts := by
  have hnode : ∀ k, k ∈ hids' ↔ k ∈ hids := fun k => hh.mem_iff
  have hprobe : ∀ p, p ∈ probes' ↔ p ∈ probes := fun p => hp.mem_iff
  have hfree : ∀ s r h, FreeFor hids' s r h ↔ FreeFor hids s r h := by
    intro s r h
    simp only [FreeFor, hnode]
  have htopology : WantsTopology probes' = WantsTopology probes := by
    funext h r
    simp only [WantsTopology, hprobe]
  have hidentity : ∀ s h r id owner, WantsIdentity hids' probes' ids s h r id owner ↔
      WantsIdentity hids probes ids s h r id owner := by
    intro s h r id owner
    constructor
    · rintro ⟨h1, h2, h3, h4, h5, h6, h7, h8, h9, h10⟩
      exact ⟨h1, h2, fun k hk => h3 k ((hnode k).mpr hk), (hprobe _).mp h4, h5, h6,
        fun p hpm => h7 p ((hprobe p).mpr hpm), h8, (hfree _ _ _).mp h9, h10⟩
    · rintro ⟨h1, h2, h3, h4, h5, h6, h7, h8, h9, h10⟩
      exact ⟨h1, h2, fun k hk => h3 k ((hnode k).mp hk), (hprobe _).mpr h4, h5, h6,
        fun p hpm => h7 p ((hprobe p).mp hpm), h8, (hfree _ _ _).mpr h9, h10⟩
  have hvendor : ∀ s, WantsVendor hids' probes' ids s = WantsVendor hids probes ids s := by
    intro s
    funext h r
    have hkey := readerKey_perm hd hp r
    apply propext
    constructor
    · rintro ⟨h1, h2, h3, h4, h5, h6⟩
      rw [readerByVendor_perm hp] at h2
      rw [hkey] at h4 h6
      refine ⟨h1, h2, (hfree _ _ _).mp h3, h4, h5, ?_⟩
      intro k hk hne hkopen hkruled
      rw [← readerByVendor_perm hp]
      exact h6 k ((hnode k).mpr hk) hne hkopen hkruled
    · rintro ⟨h1, h2, h3, h4, h5, h6⟩
      rw [← readerByVendor_perm hp] at h2
      rw [← hkey] at h4 h6
      refine ⟨h1, h2, (hfree _ _ _).mpr h3, h4, h5, ?_⟩
      intro k hk hne hkopen hkruled
      rw [readerByVendor_perm hp]
      exact h6 k ((hnode k).mp hk) hne hkopen hkruled
  simp only [Evidence, htopology, hidentity, hvendor]

/-! ### Vendor guesses -/

/-- A node with a Linux bus address is bound by a step on hard evidence only. -/
theorem no_guess_at_bus_addr {opts : MatchOptions} {h : HidDevice} {r : RustStr}
    (hb : Evidence hids probes ids opts h (r, .vendor)) (bus addr : UInt8) :
    h.usbDevice ≠ some (.busAddr bus addr) := by
  have hsecond : ∀ s : Settled, ¬ s h (r, .vendor) →
      ∀ wants, ¬ s.andThen .identity wants h (r, .vendor) := by
    rintro s hs wants (hbefore | ⟨-, hstep⟩)
    · exact hs hbefore
    · cases hstep
  have hfirst : ¬ (if opts.skipTopology then fun _ _ => False
      else Settled.andThen (fun _ _ => False) .topology (WantsTopology probes)) h
        (r, .vendor) := by
    split
    · exact id
    · rintro (hbefore | ⟨-, hstep⟩)
      · exact hbefore
      · cases hstep
  rw [Evidence] at hb
  split at hb
  · exact absurd hb (hsecond _ hfirst _)
  · rcases hb with hbefore | ⟨hw, -⟩
    · exact absurd hbefore (hsecond _ hfirst _)
    · intro hbus
      have hruled := hw.notRuledOut
      rw [hbus] at hruled
      cases hruled

end Steps

/-! ### The main result -/

/-- **Readers are bound by evidence**: a node's reader and the step that bound it are the
same in every order of the nodes and of the probes, nodes share a reader only on one known
USB device, and a node with a Linux bus address is never bound by the vendor guess. -/
theorem binding_by_evidence {hids hids' : List HidDevice} {probes probes' : List ReaderProbe}
    (hd : Distinct hids probes) (hh : hids'.Perm hids) (hp : probes'.Perm probes)
    (ids : Identities) (opts : MatchOptions) :
    (∀ (i j : Nat) (h : HidDevice), hids[i]? = some h → hids'[j]? = some h →
      (bindReaders hids' probes' (ykReaders probes') ids opts)[j]? =
        (bindReaders hids probes (ykReaders probes) ids opts)[i]?) ∧
    (∀ (i j : Nat) (h k : HidDevice) (r : RustStr) (step step' : MatchStep), i ≠ j →
      hids[i]? = some h → hids[j]? = some k →
      (bindReaders hids probes (ykReaders probes) ids opts)[i]? = some (some (r, step)) →
      (bindReaders hids probes (ykReaders probes) ids opts)[j]? = some (some (r, step')) →
      sameUsbDevice h.usbDevice k.usbDevice = true) ∧
    (∀ (i : Nat) (h : HidDevice) (r : RustStr), hids[i]? = some h →
      (bindReaders hids probes (ykReaders probes) ids opts)[i]? = some (some (r, .vendor)) →
      ∀ bus addr, h.usbDevice ≠ some (.busAddr bus addr)) := by
  obtain ⟨st, hst, hbound⟩ := bound_bindReaders hd ids opts
  obtain ⟨st', hst', hbound'⟩ := bound_bindReaders (hd.perm hh hp) ids opts
  rw [evidence_perm hd hh hp] at hst'
  rw [hbound, hbound']
  have hslot : ∀ {i : Nat} {b : RustStr × MatchStep}, st.bound[i]? = some (some b) →
      slot st.bound i = some b := by
    intro i b hb
    rw [slot, hb]
    rfl
  refine ⟨?_, ?_, ?_⟩
  · intro i j h hi hj
    have hilt : i < st.bound.length :=
      hst.claims.length ▸ (List.getElem?_eq_some_iff.mp hi).1
    have hjlt : j < st'.bound.length :=
      hst'.claims.length ▸ (List.getElem?_eq_some_iff.mp hj).1
    rw [getElem?_slot hilt, getElem?_slot hjlt]
    congr 1
    apply Option.ext
    intro b
    rw [hst.slots i h b hi, hst'.slots j h b hj]
  · intro i j h k r step step' hij hi hj hb hc
    exact hst.claims.oneDevice i j h k _ _ hij hi hj (hslot hb) (hslot hc) rfl
  · intro i h r hi hb
    exact no_guess_at_bus_addr ((hst.slots i h _ hi).mp (hslot hb))

/-- A YubiKey's FIDO node at the end of a hub. -/
def hubNode (path : Path) (addr : UInt8) : HidDevice :=
  { path := path, vendorId := VID_YUBICO, productId := 0x0407, productName := "YubiKey".toList,
    usagePage := HID_USAGE_PAGE_FIDO, usage := 1, serialNumber := none,
    usbDevice := some (.busAddr 1 addr) }

/-- The card reader of the YubiKey at that address. -/
def hubReader (name : RustStr) (addr : UInt8) : ReaderProbe :=
  { readerName := name, isMolto2 := false, serial := none, formerSerial := none, hasOath := true,
    hasOpenpgp := false, hasPiv := true, hasFido := false, hasOtp := false, isProg := false,
    progSerial := none, yubikeySerial := none, usbDevice := some (.busAddr 1 addr) }

theorem hub_in_any_order :
    (bindReaders [hubNode ['b'] 6, hubNode ['a'] 5] [hubReader ['2'] 6, hubReader ['1'] 5]
      (ykReaders [hubReader ['2'] 6, hubReader ['1'] 5]) ⟨[], []⟩ .shipped)[1]? =
    (bindReaders [hubNode ['a'] 5, hubNode ['b'] 6] [hubReader ['1'] 5, hubReader ['2'] 6]
      (ykReaders [hubReader ['1'] 5, hubReader ['2'] 6]) ⟨[], []⟩ .shipped)[0]? :=
  (binding_by_evidence ⟨by decide, by decide, by decide⟩ (List.Perm.swap _ _ _)
    (List.Perm.swap _ _ _) ⟨[], []⟩ .shipped).1 0 1 (hubNode ['a'] 5) rfl rfl

end Keyroost.Resolve
