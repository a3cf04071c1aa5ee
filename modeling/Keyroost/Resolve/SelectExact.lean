import Keyroost.Resolve.Select
import Keyroost.Resolve.NamesPass
import Keyroost.Library.Positions

/-!
# Selection is exact

The `--device` value offered for a row names that row alone, and the names read from keys are left
out of a selection only where they cannot change it.

The first half follows a value from the refusal that offers it back through the parser of `Select`
to the rows it matches (`rowsMatching_deviceValue`); `Offers` is what the candidates of every
refusal are shown to be. The second half runs the finder twice, over rows that differ in their names
only (`SameListed`), function by function, up to `resolve_same`. `selection_exact` states both.
-/

namespace Keyroost.Resolve

open Hid Keyring RustStr Positions

variable {isAlphabetic : Char → Bool} {devices devices' : List ListedDevice} {need : Need}

/-! ### The numbering -/

theorem mem_order {i : Nat} : i ∈ order devices ↔ i < devices.length := by
  rw [order, mem_listOrder, deviceRows, List.length_map]

theorem length_order : (order devices).length = devices.length := by
  rw [order, listOrder, List.length_insertionSort, List.length_range, deviceRows, List.length_map]

/-- The number of a row leads back to it. -/
theorem listNumber_spec {i : Nat} (hi : i < devices.length) :
    ∃ k, listNumber devices i = some (k + 1) ∧ k < devices.length ∧
      (order devices)[k]? = some i := by
  obtain ⟨k, hk, hlt, hget⟩ := idxOf?_of_mem (mem_order.mpr hi)
  refine ⟨k, ?_, length_order ▸ hlt, hget⟩
  rw [listNumber, hk, Option.map_some]

theorem parseNumber_decimal {n : Nat} (hn : n < 2 ^ 64) : parseNumber (decimal n) = some n := by
  have hne : (decimal n).isEmpty = false := by
    rw [List.isEmpty_eq_false_iff]
    exact decimal_ne_nil n
  rw [parseNumber, hne, decimal_all_isAsciiDigit]
  exact parseUnsigned_decimal hn

theorem parseDeviceSpec_list {n : Nat} (hn : n < 2 ^ 64) :
    parseDeviceSpec ("list:".toList ++ decimal n) = .number n := by
  have hname : stripPrefix "name:".toList ("list:".toList ++ decimal n) = none := rfl
  have hserial : stripPrefix "serial:".toList ("list:".toList ++ decimal n) = none := rfl
  have hlist : stripPrefix "list:".toList ("list:".toList ++ decimal n) = some (decimal n) := rfl
  rw [parseDeviceSpec, hname, hserial, hlist]
  dsimp only
  rw [parseNumber_decimal hn]
  rfl

/-! ### What a value names -/

theorem mem_rowsMatching {spec : DeviceSpec} {i : Nat} :
    i ∈ rowsMatching devices spec ↔ i ∈ hitsOf devices spec := mem_tidy _

theorem rowsMatching_number {i k : Nat} (hk : (order devices)[k]? = some i) :
    rowsMatching devices (.number (k + 1)) = [i] := by
  rw [rowsMatching, hitsOf, byNumber, if_neg (Nat.succ_ne_zero k), Nat.add_sub_cancel, hk]
  rfl

/-- **The value offered for a row names it and no other row.** -/
theorem rowsMatching_deviceValue (hfits : devices.length < 2 ^ 64) {i : Nat}
    (hi : i < devices.length) :
    rowsMatching devices (parseDeviceSpec (deviceValue devices i)) = [i] := by
  rw [deviceValue]
  cases htry : List.find? (fun v => decide (rowsMatching devices (parseDeviceSpec v) = [i]))
      (((devices[i]?).map (valuesToTry devices i)).getD []) with
  | some v =>
      have hfound := List.find?_some htry
      exact of_decide_eq_true hfound
  | none =>
      obtain ⟨k, hnumber, hk, hget⟩ := listNumber_spec hi
      have hk64 : k + 1 < 2 ^ 64 := Nat.lt_of_le_of_lt hk hfits
      rw [Option.getD_none, hnumber, Option.getD_some, parseDeviceSpec_list hk64,
        rowsMatching_number hget]

/-! ### What a refusal lists -/

/-- A candidate that stands for the row `i`. -/
def Offers (isAlphabetic : Char → Bool) (devices : List ListedDevice) (c : Candidate) (i : Nat) :
    Prop :=
  ∃ d, devices[i]? = some d ∧ c = { value := deviceValue devices i, label := rowLabel isAlphabetic d }

theorem offers_of_mem_describe {rows : List Nat} {c : Candidate}
    (hc : c ∈ describe isAlphabetic devices rows) : ∃ i ∈ rows, Offers isAlphabetic devices c i := by
  rw [describe, List.mem_filterMap] at hc
  obtain ⟨i, hi, hmap⟩ := hc
  obtain ⟨d, hd, hcd⟩ := Option.map_eq_some_iff.mp hmap
  exact ⟨i, hi, d, hd, hcd.symm⟩

/-- A result whose refusals list rows only, by the values that are offered for them. -/
def Honest (isAlphabetic : Char → Bool) (devices : List ListedDevice)
    (r : Except SelectError Target) : Prop :=
  ∀ e, r = .error e → ∀ c ∈ e.candidates, ∃ i, Offers isAlphabetic devices c i

namespace Honest

theorem ok (t : Target) : Honest isAlphabetic devices (.ok t) := fun _ he => nomatch he

theorem describes {e : SelectError} {rows : List Nat}
    (he : e.candidates = describe isAlphabetic devices rows) :
    Honest isAlphabetic devices (.error e) := by
  intro e' heq c hc
  obtain rfl : e = e' := Except.error.inj heq
  rw [he] at hc
  obtain ⟨i, -, hi⟩ := offers_of_mem_describe hc
  exact ⟨i, hi⟩

theorem nothing {e : SelectError} (he : e.candidates = []) :
    Honest isAlphabetic devices (.error e) := by
  have hnone : e.candidates = describe isAlphabetic devices [] := he
  exact describes hnone

end Honest

theorem resolveDevice_honest (cards : Option (Nat → Option RustStr)) (v : RustStr) :
    Honest isAlphabetic devices (resolveDevice isAlphabetic devices need cards v) := by
  rw [resolveDevice]
  split
  · split
    · exact .describes rfl
    · exact .describes rfl
  · split
    · exact .ok _
    · exact .describes rfl
  · exact .describes rfl

theorem pickReader_honest {typed : RustStr} {rows : List Nat} {r : Except SelectError Target}
    (hr : pickReader devices typed rows = some r) : Honest isAlphabetic devices r := by
  rw [pickReader.eq_def] at hr
  split at hr
  · cases hr
  · obtain rfl := Option.some.inj hr
    exact .ok _
  · obtain rfl := Option.some.inj hr
    exact .nothing rfl

theorem resolveReader_honest (typed : RustStr) :
    Honest isAlphabetic devices (resolveReader devices typed) := by
  rw [resolveReader]
  cases hexact : pickReader devices typed (rowsWithReader devices fun r =>
      eqIgnoreAsciiCase r typed) with
  | some r => exact pickReader_honest hexact
  | none =>
      cases hpart : pickReader devices typed (rowsWithReader devices fun r =>
          containsStr (toAsciiLowercase r) (toAsciiLowercase typed)) with
      | some r => exact pickReader_honest hpart
      | none => exact .nothing rfl

theorem resolvePath_honest (p : Path) : Honest isAlphabetic devices (resolvePath devices p) := by
  rw [resolvePath]
  split
  · exact .ok _
  · exact .nothing rfl

theorem resolveAlone_honest (picker : Picker) :
    Honest isAlphabetic devices (resolveAlone isAlphabetic devices need picker) := by
  rw [resolveAlone.eq_def]
  split
  · exact .describes rfl
  · exact .ok _
  · split
    · rw [askPicker]
      split
      · exact .nothing rfl
      · split
        · exact .ok _
        · exact .nothing rfl
    · exact .describes rfl

theorem resolve_honest (sel : Selector) (picker : Picker) (cards : Option (Nat → Option RustStr)) :
    Honest isAlphabetic devices (resolve isAlphabetic devices need sel picker cards) := by
  rw [resolve.eq_def]
  split
  · exact .nothing rfl
  · split
    · exact resolveDevice_honest cards _
    · exact resolveReader_honest _
    · exact resolvePath_honest _
    · exact resolveAlone_honest picker

/-- The value offered for a row, given back, resolves to it if it can serve the need. -/
theorem resolve_deviceValue (hfits : devices.length < 2 ^ 64) {i : Nat} (hi : i < devices.length)
    (hadmits : admitsAt devices need i = true) (picker : Picker)
    (cards : Option (Nat → Option RustStr)) :
    resolve isAlphabetic devices need (.byDevice (deviceValue devices i)) picker cards =
      .ok (targetAt devices i .device) := by
  have hrows := rowsMatching_deviceValue hfits hi
  have hcards :
      rowsForDevice devices need cards (parseDeviceSpec (deviceValue devices i)) = [i] := by
    rw [rowsForDevice.eq_def, hrows]
    cases cards <;> rfl
  rw [resolve, if_neg (show ¬ 1 < (Selector.byDevice (deviceValue devices i)).given by
    simp [Selector.given, Selector.byDevice, Selector.default])]
  change resolveDevice isAlphabetic devices need cards (deviceValue devices i) = _
  rw [resolveDevice, hcards]
  dsimp only
  rw [if_pos hadmits]

/-! ### Rows that differ in their names only -/

def ListedDevice.bare (d : ListedDevice) : ListedDevice := { d with toDevice := d.toDevice.bare }

/-- The same rows, but for how they are named. -/
def SameListed (devices devices' : List ListedDevice) : Prop :=
  devices.map ListedDevice.bare = devices'.map ListedDevice.bare

namespace SameListed

theorem get (hs : SameListed devices devices') (i : Nat) :
    (devices[i]?).map ListedDevice.bare = (devices'[i]?).map ListedDevice.bare := by
  rw [← List.getElem?_map, ← List.getElem?_map, hs]

theorem length (hs : SameListed devices devices') : devices.length = devices'.length := by
  have hlen := congrArg List.length hs
  rwa [List.length_map, List.length_map] at hlen

theorem order (hs : SameListed devices devices') : order devices = order devices' := by
  have hrows : SameRows (deviceRows devices) (deviceRows devices') := by
    have hmap := congrArg (List.map ListedDevice.toDevice) hs
    rw [List.map_map, List.map_map] at hmap
    rw [SameRows, deviceRows, deviceRows, List.map_map, List.map_map]
    exact hmap
  exact hrows.listOrder

/-- A test that does not look at names holds of the same rows. -/
theorem any_get (hs : SameListed devices devices') {p : ListedDevice → Bool}
    (hp : ∀ d, p d.bare = p d) (i : Nat) : (devices[i]?).any p = (devices'[i]?).any p := by
  have hget := congrArg (Option.any p) (hs.get i)
  rw [Option.any_map, Option.any_map] at hget
  simp only [hp] at hget
  exact hget

theorem rowsWhere (hs : SameListed devices devices') {p : ListedDevice → Bool}
    (hp : ∀ d, p d.bare = p d) : rowsWhere devices p = rowsWhere devices' p := by
  rw [Resolve.rowsWhere, Resolve.rowsWhere, hs.order]
  congr 1
  funext i
  exact hs.any_get hp i

theorem bySerial (hs : SameListed devices devices') (s : RustStr) :
    bySerial devices s = bySerial devices' s := hs.rowsWhere fun _ => rfl

theorem byNumber (hs : SameListed devices devices') (k : Nat) :
    byNumber devices k = byNumber devices' k := by
  rw [Resolve.byNumber, Resolve.byNumber, hs.order]

theorem targetAt (hs : SameListed devices devices') (i : Nat) (how : SelectedBy) :
    targetAt devices i how = targetAt devices' i how := by
  rw [Resolve.targetAt, Resolve.targetAt, listNumber, listNumber, hs.order]

theorem candidatesFor (hs : SameListed devices devices') (need : Need) :
    candidatesFor devices need = candidatesFor devices' need := hs.rowsWhere fun _ => rfl

theorem pickReader (hs : SameListed devices devices') (typed : RustStr) (rows : List Nat) :
    pickReader devices typed rows = pickReader devices' typed rows := by
  have hreader (i : Nat) : (devices[i]?).bind (fun d => d.reader) =
      (devices'[i]?).bind (fun d => d.reader) := by
    have hget := congrArg (Option.bind · fun d => d.reader) (hs.get i)
    simp only [Option.bind_map] at hget
    exact hget
  rw [pickReader.eq_def, pickReader.eq_def]
  split
  · rfl
  · rw [hs.targetAt]
  · simp only [hreader]

theorem resolveReader (hs : SameListed devices devices') (typed : RustStr) :
    resolveReader devices typed = resolveReader devices' typed := by
  have hrows : ∀ hit, rowsWithReader devices hit = rowsWithReader devices' hit := fun _ =>
    hs.rowsWhere fun _ => rfl
  rw [Resolve.resolveReader, Resolve.resolveReader, hrows, hrows, hs.pickReader, hs.pickReader]

theorem resolvePath (hs : SameListed devices devices') (p : Path) :
    resolvePath devices p = resolvePath devices' p := by
  have hrows := hs.rowsWhere (p := fun d => decide (d.hidPath = some p)) fun _ => rfl
  rw [resolvePath.eq_def, resolvePath.eq_def, hrows]
  split
  · rw [hs.targetAt]
  · rfl

end SameListed

/-- Naming leaves the rows as they are, but for their names. -/
theorem nameListed_same (h : Hasher) (ring : Ring) (labels : Labels) :
    SameListed devices (nameListed h devices ring labels) := by
  have hsame : SameRows (applyNames h (deviceRows devices) ring labels).devices
      (deviceRows devices) := applyNames_same _
  apply List.ext_getElem?
  intro i
  have hget := hsame.get i
  rw [deviceRows, List.getElem?_map, ← deviceRows] at hget
  rw [List.getElem?_map, List.getElem?_map, nameListed, List.getElem?_zipWith]
  cases hd : devices[i]? with
  | none => rfl
  | some d =>
      rw [hd] at hget
      obtain ⟨named, hnamed, hbare⟩ := Option.map_eq_some_iff.mp hget
      rw [hnamed]
      change some d.bare = some { d with toDevice := named.bare }
      rw [hbare]
      rfl

/-! ### Selections that need no names -/

variable {cards : Option (Nat → Option RustStr)} {v : RustStr} {spec : DeviceSpec}

theorem resolveDevice_ok {t : Target}
    (ht : resolveDevice isAlphabetic devices need cards v = .ok t) :
    rowsForDevice devices need cards (parseDeviceSpec v) = [t.device] := by
  rw [resolveDevice] at ht
  split at ht
  · split at ht <;> cases ht
  · rename_i i hrows
    split at ht
    · obtain rfl := Except.ok.inj ht
      exact hrows
    · cases ht
  · cases ht

theorem mem_rowsForDevice {i : Nat} (hi : i ∈ hitsOf devices spec) :
    i ∈ rowsForDevice devices need cards spec := by
  have hmem := mem_rowsMatching.mpr hi
  have hsome : (rowsMatching devices spec).isEmpty = false := by
    rw [List.isEmpty_eq_false_iff]
    exact List.ne_nil_of_mem hmem
  rw [rowsForDevice.eq_def]
  dsimp only
  rw [hsome]
  cases cards <;> exact hmem

/-- A serial or a list number names the same rows, whatever the rows are called. -/
theorem rowsForDevice_same (hs : SameListed devices devices') (hnamed : spec.named = none) :
    rowsForDevice devices need cards spec = rowsForDevice devices' need cards spec := by
  have hhits : hitsOf devices spec = hitsOf devices' spec := by
    cases spec with
    | any v => cases hnamed
    | name n => cases hnamed
    | serial s => exact hs.bySerial s
    | number k => exact hs.byNumber k
    | badNumber n => rfl
  have hmatching : rowsMatching devices spec = rowsMatching devices' spec := by
    rw [rowsMatching, rowsMatching, hhits, hs.order]
  have hnewcomers : newcomersFor devices spec = newcomersFor devices' spec := by
    rw [newcomersFor, newcomersFor, hnamed]
    rfl
  have hcard : ∀ read s, rowsByCard devices need read s = rowsByCard devices' need read s := by
    intro read s
    rw [rowsByCard, rowsByCard]
    congr 1
    exact hs.rowsWhere fun _ => rfl
  rw [rowsForDevice.eq_def, rowsForDevice.eq_def, hmatching, hnewcomers]
  simp only [hcard]

theorem parseDeviceSpec_any {w : RustStr} (hspec : parseDeviceSpec v = .any w) : w = v := by
  rw [parseDeviceSpec.eq_def] at hspec
  split at hspec
  · cases hspec
  · split at hspec
    · cases hspec
    · split at hspec
      · rename_i n _
        cases hn : parseNumber n <;> rw [hn] at hspec <;> cases hspec
      · exact (DeviceSpec.any.inj hspec).symm

/-- A value that is a connected key's serial or an existing number names that row, whatever the
rows are called. -/
theorem common_hit (hs : SameListed devices devices')
    (hneeds : selectionNeedsKeyNames devices (.byDevice v) need = false)
    (hspec : parseDeviceSpec v = .any v) :
    ∃ i, i ∈ hitsOf devices (.any v) ∧ i ∈ hitsOf devices' (.any v) := by
  have hcheap : (!v.isEmpty && devices.any fun d => hasSerial d.toDevice v) = true ∨
      ((parseNumber v).any fun k => decide (1 ≤ k ∧ k ≤ devices.length)) = true := by
    rw [← Bool.or_eq_true]
    change selectionNeedsKeyNames devices
      { device := some v, reader := none, path := none } need = false at hneeds
    rw [selectionNeedsKeyNames] at hneeds
    dsimp only [Option.isSome, Option.map_some] at hneeds
    rw [hspec] at hneeds
    simpa only [Bool.or_self, Bool.false_eq_true, if_false, Bool.not_eq_eq_eq_not,
      Bool.not_false] using hneeds
  rcases hcheap with hserial | hnumber
  · rw [Bool.and_eq_true, List.any_eq_true] at hserial
    obtain ⟨hne, d, hd, hhas⟩ := hserial
    obtain ⟨i, hi, hget⟩ := List.mem_iff_getElem.mp hd
    have hmem : i ∈ bySerial devices v := by
      refine List.mem_filter.mpr ⟨mem_order.mpr hi, ?_⟩
      rw [List.getElem?_eq_getElem hi, hget, Option.any_some, hne, hhas]
      rfl
    have hmem' := hs.bySerial v ▸ hmem
    exact ⟨i, List.mem_append_left _ (List.mem_append_right _ hmem),
      List.mem_append_left _ (List.mem_append_right _ hmem')⟩
  · obtain ⟨k, hk, hin⟩ := Option.any_eq_true _ _ |>.mp hnumber
    obtain ⟨hpos, hle⟩ := of_decide_eq_true hin
    have hlt : k - 1 < (order devices).length := by
      rw [length_order]
      omega
    have hmem : (order devices)[k - 1] ∈ byNumber devices k := by
      rw [byNumber, if_neg (Nat.ne_of_gt hpos), List.getElem?_eq_getElem hlt]
      exact List.mem_singleton_self _
    have hmem' := hs.byNumber k ▸ hmem
    refine ⟨(order devices)[k - 1], List.mem_append_right _ ?_, List.mem_append_right _ ?_⟩
    · rw [hk]
      exact hmem
    · rw [hk]
      exact hmem'

theorem resolveDevice_same (hs : SameListed devices devices')
    (hneeds : selectionNeedsKeyNames devices (.byDevice v) need = false) {t t' : Target}
    (ht : resolveDevice isAlphabetic devices need cards v = .ok t)
    (ht' : resolveDevice isAlphabetic devices' need cards v = .ok t') : t.device = t'.device := by
  have hrows := resolveDevice_ok ht
  have hrows' := resolveDevice_ok ht'
  cases hnamed : (parseDeviceSpec v).named with
  | none =>
      rw [rowsForDevice_same hs hnamed, hrows'] at hrows
      exact (List.singleton_inj.mp hrows).symm
  | some n =>
      cases hspec : parseDeviceSpec v with
      | any w =>
          obtain rfl := parseDeviceSpec_any hspec
          obtain ⟨i, hi, hi'⟩ := common_hit hs hneeds hspec
          rw [hspec] at hrows hrows'
          have hmem : i ∈ [t.device] := hrows ▸ mem_rowsForDevice hi
          have hmem' : i ∈ [t'.device] := hrows' ▸ mem_rowsForDevice hi'
          exact (List.mem_singleton.mp hmem).symm.trans (List.mem_singleton.mp hmem')
      | name n =>
          rw [selectionNeedsKeyNames] at hneeds
          simp [Selector.byDevice, Selector.default, hspec] at hneeds
      | serial s => rw [hspec] at hnamed; cases hnamed
      | number k => rw [hspec] at hnamed; cases hnamed
      | badNumber s => rw [hspec] at hnamed; cases hnamed

theorem length_candidatesFor :
    (candidatesFor devices need).length = (devices.filter need.admits).length := by
  have hperm : (order devices).Perm (List.range devices.length) := by
    rw [order, listOrder, deviceRows, List.length_map]
    exact List.perm_insertionSort _ _
  rw [candidatesFor, rowsWhere, (hperm.filter _).length_eq, length_filter_range]

theorem resolveAlone_same (hs : SameListed devices devices')
    (hneeds : selectionNeedsKeyNames devices .default need = false) {picker picker' : Picker}
    {t t' : Target} (ht : resolveAlone isAlphabetic devices need picker = .ok t)
    (ht' : resolveAlone isAlphabetic devices' need picker' = .ok t') : t.device = t'.device := by
  have hfew : (candidatesFor devices need).length ≤ 1 := by
    rw [length_candidatesFor]
    exact Nat.not_lt.mp (of_decide_eq_false hneeds)
  rw [resolveAlone.eq_def, ← hs.candidatesFor need] at ht'
  rw [resolveAlone.eq_def] at ht
  split at ht
  · cases ht
  · rename_i i hone
    rw [hone] at ht'
    cases ht
    cases ht'
    rfl
  · rename_i many hmany hone
    cases hlist : candidatesFor devices need with
    | nil => exact absurd hlist hmany
    | cons i rest =>
        rw [hlist, List.length_cons] at hfew
        obtain rfl : rest = [] := List.eq_nil_of_length_eq_zero (by omega)
        exact absurd hlist (hone i)

/-- A resolved selection was given one selector at most. -/
theorem resolve_ok {sel : Selector} {picker : Picker} {t : Target}
    (ht : resolve isAlphabetic devices need sel picker cards = .ok t) : sel.given ≤ 1 := by
  rw [resolve.eq_def] at ht
  split at ht
  · cases ht
  · rename_i hgiven
    exact Nat.not_lt.mp hgiven

/-- **Names are left unread only where they cannot change the choice.** -/
theorem resolve_same (hs : SameListed devices devices') {sel : Selector} {picker picker' : Picker}
    (hneeds : selectionNeedsKeyNames devices sel need = false) {t t' : Target}
    (ht : resolve isAlphabetic devices need sel picker cards = .ok t)
    (ht' : resolve isAlphabetic devices' need sel picker' cards = .ok t') :
    t.device = t'.device := by
  have hgiven := resolve_ok ht
  rw [resolve.eq_def, if_neg (Nat.not_lt.mpr hgiven)] at ht ht'
  obtain ⟨device, reader, path⟩ := sel
  cases device with
  | some v =>
      cases reader with
      | some typed =>
          change 1 + 1 + path.isSome.toNat ≤ 1 at hgiven
          omega
      | none =>
          cases path with
          | some p =>
              change 1 + 0 + 1 ≤ 1 at hgiven
              omega
          | none => exact resolveDevice_same hs hneeds ht ht'
  | none =>
      cases reader with
      | some typed =>
          have heq := (ht.symm.trans (hs.resolveReader typed)).trans ht'
          rw [Except.ok.inj heq]
      | none =>
          cases path with
          | some p =>
              have heq := (ht.symm.trans (hs.resolvePath p)).trans ht'
              rw [Except.ok.inj heq]
          | none => exact resolveAlone_same hs hneeds ht ht'

/-- Selecting by `--device` is exact; every row that a refusal lists is named by the value it is
listed with, and given back for the same need that value resolves to it if it serves the need; and
where no names from keys are needed, those names do not change which row is selected. -/
theorem selection_exact (isAlphabetic : Char → Bool) (devices : List ListedDevice)
    (hfits : devices.length < 2 ^ 64) :
    (∀ i < devices.length,
      rowsMatching devices (parseDeviceSpec (deviceValue devices i)) = [i]) ∧
    (∀ need sel picker cards e, resolve isAlphabetic devices need sel picker cards = .error e →
      ∀ c ∈ e.candidates, ∃ i d, devices[i]? = some d ∧
        c = { value := deviceValue devices i, label := rowLabel isAlphabetic d } ∧
        (need.admits d = true → ∀ picker' cards',
          resolve isAlphabetic devices need (.byDevice c.value) picker' cards' =
            .ok (targetAt devices i .device))) ∧
    (∀ h ring labels need sel picker picker' cards t t',
      selectionNeedsKeyNames devices sel need = false →
      resolve isAlphabetic devices need sel picker cards = .ok t →
      resolve isAlphabetic (nameListed h devices ring labels) need sel picker' cards = .ok t' →
      t.device = t'.device) := by
  refine ⟨fun i hi => rowsMatching_deviceValue hfits hi, ?_, ?_⟩
  · intro need sel picker cards e he c hc
    obtain ⟨i, d, hd, hcd⟩ := resolve_honest sel picker cards e he c hc
    refine ⟨i, d, hd, hcd, fun hadmits picker' cards' => ?_⟩
    have hadmitsAt : admitsAt devices need i = true := by
      rw [admitsAt, hd]
      exact hadmits
    rw [hcd]
    exact resolve_deviceValue hfits (List.getElem?_eq_some_iff.mp hd).1 hadmitsAt picker' cards'
  · intro h ring labels need sel picker picker' cards t t' hneeds ht ht'
    exact resolve_same (nameListed_same h ring labels) hneeds ht ht'

/-- Two keys: the first is named like the serial of the second. -/
def imitators : List ListedDevice :=
  [{ id := ['a'], name := some ['7', '7'], serial := ['X'], kind := .key, hidPath := some ['/', 'a'],
     reader := none, hidSerial := none, formerSerial := none,
     naming := { plain := some ['7', '7'], source := some .computer, selectable := true,
                 onKey := .notRead, missingOnKey := none },
     vendor := ['V'], model := ['M'], caps := .FIDO2 },
   { id := ['b'], name := none, serial := ['7', '7'], kind := .key, hidPath := some ['/', 'b'],
     reader := none, hidSerial := none, formerSerial := none, naming := .unnamed,
     vendor := ['V'], model := ['M'], caps := .FIDO2 }]

/-- Each row is offered by a value that the other one does not answer to. -/
theorem selection_exact_imitators :
    rowsMatching imitators (parseDeviceSpec ['7', '7']) = [1, 0] ∧
    deviceValue imitators 0 = ['X'] ∧
    rowsMatching imitators (parseDeviceSpec (deviceValue imitators 0)) = [0] ∧
    rowsMatching imitators (parseDeviceSpec (deviceValue imitators 1)) = [1] ∧
    ∀ c ∈ (SelectError.needsChoice .fidoHid
      (describe Char.isAlpha imitators [1, 0])).candidates, ∃ i d, imitators[i]? = some d ∧
        c = { value := deviceValue imitators i, label := rowLabel Char.isAlpha d } := by
  have hexact := selection_exact Char.isAlpha imitators (by decide)
  refine ⟨by decide, by decide, hexact.1 0 (by decide), hexact.1 1 (by decide),
    fun c hc => ?_⟩
  obtain ⟨i, d, hd, hcd, -⟩ := hexact.2.1 .fidoHid .default
    { interactive := false, pick := fun _ _ => .ok 0 } none _ (by rfl) c hc
  exact ⟨i, d, hd, hcd⟩

end Keyroost.Resolve
