import Keyroost.Resolve.RowsUnmixed

/-!
# The check after a confirmation

Before a command reopens the key that was confirmed, the key is looked for again at its endpoints:
first in a look without identity reads, and in a full one where that cannot tell. Modelled from
`keyroostctl/src/target.rs`.

`Confirmed` says in terms of the rows of a look what a passing verdict rests on: the endpoints are
there again, and of a key with a serial some row at them tells it and none tells another.
`recheck_same_iff` shows
that the code decides exactly this. Rows are only those that a scan can make (`Detected`,
`correlateRows_detected`), and their order does not matter (`recheck_perm`). `reverify_exact` is
about both looks together.
-/

namespace Keyroost.Resolve

open Hid Transport Keyring Slots

inductive Recheck where
  | same
  | skip
  | gone
  | changed
  | unconfirmed
deriving DecidableEq, Repr

def OVERRIDE_PREFIX : RustStr := "override:".toList

/-- What was typed for a stand-in row. -/
def typedValue (d : Device) : Option RustStr :=
  if OVERRIDE_PREFIX.isPrefixOf d.id then some (d.id.drop OVERRIDE_PREFIX.length) else none

def sharesEndpoint (before d : Device) : Bool :=
  before.reader.isSome && decide (d.reader = before.reader) ||
    before.hidPath.isSome && decide (d.hidPath = before.hidPath)

/-- The serials that rows at an endpoint tell. -/
def endpointSerials (before : Device) (now : List Device) : List RustStr :=
  ((now.filter (sharesEndpoint before)).map (·.serial)).filter (!·.isEmpty)

def recheck (before : Device) (now : List Device) : Recheck :=
  if (typedValue before).isSome || (before.reader.isNone && before.hidPath.isNone) then .skip
  else
    let readerBack := before.reader.all fun r => now.any fun d => decide (d.reader = some r)
    let pathBack := before.hidPath.all fun p => now.any fun d => decide (d.hidPath = some p)
    if !readerBack || !pathBack then .gone
    else if before.serial.isEmpty then .same
    else if (endpointSerials before now).any fun s => decide (s ≠ before.serial) then .changed
    else if (endpointSerials before now).isEmpty then .unconfirmed
    else .same

/-- Only a first look that sees another serial, or none, is looked at again. -/
def reverifyVerdict (first : Recheck) (fullLook : Except RustStr Recheck) :
    Except RustStr Recheck :=
  match first with
  | .changed | .unconfirmed => fullLook
  | first => .ok first

/-- `label` is what the messages call the key. -/
def verdictResult (label : RustStr) : Recheck → Except RustStr Unit
  | .same | .skip => .ok ()
  | .gone | .changed =>
      .error ("the key changed while waiting for a confirmation or a typed secret (".toList ++
        label ++ "); nothing was changed".toList)
  | .unconfirmed =>
      .error ("could not re-read the serial of ".toList ++ label ++
        " after waiting for input; nothing was changed".toList)

/-- Each look may fail, and the full one is only taken if the first does not decide. -/
def reverify (label : RustStr) (before : Device) (first full : Except RustStr (List Device)) :
    Except RustStr Unit := do
  let now ← first
  let verdict ← reverifyVerdict (recheck before now) (full.map (recheck before))
  verdictResult label verdict

/-! ### What a verdict rests on -/

/-- Both endpoints are there again. -/
structure EndpointsBack (before : Device) (now : List Device) : Prop where
  reader : ∀ r, before.reader = some r → ∃ d ∈ now, d.reader = some r
  path : ∀ p, before.hidPath = some p → ∃ d ∈ now, d.hidPath = some p

/-- No row at an endpoint tells another serial, and some row tells the confirmed one. -/
structure SerialBack (before : Device) (now : List Device) : Prop where
  noOther : ∀ d ∈ now, sharesEndpoint before d = true → d.serial = [] ∨ d.serial = before.serial
  told : ∃ d ∈ now, sharesEndpoint before d = true ∧ d.serial = before.serial

/-- What the check can tell of a look: a key without a serial is told by its endpoints. With a
serial, the row there has to tell that one and no row another. -/
structure Confirmed (before : Device) (now : List Device) : Prop where
  endpoints : EndpointsBack before now
  serial : before.serial ≠ [] → SerialBack before now

/-- A row of a scan: not a stand-in, and with an endpoint. -/
structure Detected (d : Device) : Prop where
  listed : typedValue d = none
  endpoint : d.reader ≠ none ∨ d.hidPath ≠ none

section Verdict

variable {before : Device} {now : List Device}

theorem endpointsBack_iff : EndpointsBack before now ↔
    (before.reader.all fun r => now.any fun d => decide (d.reader = some r)) = true ∧
      (before.hidPath.all fun p => now.any fun d => decide (d.hidPath = some p)) = true := by
  constructor
  · rintro ⟨hreader, hpath⟩
    refine ⟨?_, ?_⟩
    · rcases hr : before.reader with _ | r
      · rfl
      · obtain ⟨d, hd, hdr⟩ := hreader r hr
        exact List.any_eq_true.mpr ⟨d, hd, decide_eq_true hdr⟩
    · rcases hp : before.hidPath with _ | p
      · rfl
      · obtain ⟨d, hd, hdp⟩ := hpath p hp
        exact List.any_eq_true.mpr ⟨d, hd, decide_eq_true hdp⟩
  · rintro ⟨hreader, hpath⟩
    refine ⟨fun r hr => ?_, fun p hp => ?_⟩
    · rw [hr, Option.all_some, List.any_eq_true] at hreader
      obtain ⟨d, hd, hdr⟩ := hreader
      exact ⟨d, hd, of_decide_eq_true hdr⟩
    · rw [hp, Option.all_some, List.any_eq_true] at hpath
      obtain ⟨d, hd, hdp⟩ := hpath
      exact ⟨d, hd, of_decide_eq_true hdp⟩

theorem mem_endpointSerials {s : RustStr} : s ∈ endpointSerials before now ↔
    s ≠ [] ∧ ∃ d ∈ now, sharesEndpoint before d = true ∧ d.serial = s := by
  rw [endpointSerials, List.mem_filter, List.mem_map]
  constructor
  · rintro ⟨⟨d, hd, rfl⟩, hne⟩
    obtain ⟨hmem, hshares⟩ := List.mem_filter.mp hd
    refine ⟨?_, d, hmem, hshares, rfl⟩
    intro hnil
    rw [hnil] at hne
    exact Bool.noConfusion hne
  · rintro ⟨hne, d, hmem, hshares, rfl⟩
    refine ⟨⟨d, List.mem_filter.mpr ⟨hmem, hshares⟩, rfl⟩, ?_⟩
    rw [Bool.not_eq_true', List.isEmpty_eq_false_iff]
    exact hne

theorem not_skipped (hb : Detected before) :
    ((typedValue before).isSome || (before.reader.isNone && before.hidPath.isNone)) = false := by
  rw [hb.listed]
  rcases hb.endpoint with hr | hp
  · rw [Option.isNone_eq_false_iff.mpr (Option.isSome_iff_ne_none.mpr hr)]
    rfl
  · rw [Option.isNone_eq_false_iff.mpr (Option.isSome_iff_ne_none.mpr hp), Bool.and_false]
    rfl

theorem recheck_gone (hb : Detected before) (h : ¬ EndpointsBack before now) :
    recheck before now = .gone := by
  rw [endpointsBack_iff, ← Bool.and_eq_true, Bool.not_eq_true, Bool.and_eq_false_iff] at h
  rw [recheck, not_skipped hb, if_neg Bool.false_ne_true]
  refine if_pos ?_
  rcases h with h | h
  · rw [h]
    rfl
  · rw [h, Bool.or_comm]
    rfl

/-- With its endpoints back, the verdict is the serials'. -/
theorem recheck_back (hb : Detected before) (h : EndpointsBack before now) :
    recheck before now =
      if before.serial.isEmpty then .same
      else if (endpointSerials before now).any fun s => decide (s ≠ before.serial) then .changed
      else if (endpointSerials before now).isEmpty then .unconfirmed
      else .same := by
  obtain ⟨hreader, hpath⟩ := endpointsBack_iff.mp h
  rw [recheck, not_skipped hb, if_neg Bool.false_ne_true]
  simp only [hreader, hpath, Bool.not_true, Bool.or_self, Bool.false_eq_true, if_false]

theorem serialBack_iff (hserial : before.serial ≠ []) : SerialBack before now ↔
    ((endpointSerials before now).any fun s => decide (s ≠ before.serial)) = false ∧
      (endpointSerials before now).isEmpty = false := by
  rw [List.any_eq_false, List.isEmpty_eq_false_iff]
  constructor
  · rintro ⟨hother, d, hd, hshares, htold⟩
    refine ⟨fun s hs => ?_, List.ne_nil_of_mem (mem_endpointSerials.mpr
      ⟨hserial, d, hd, hshares, htold⟩)⟩
    obtain ⟨hne, e, he, hshares', rfl⟩ := mem_endpointSerials.mp hs
    rcases hother e he hshares' with hnil | hsame
    · exact absurd hnil hne
    · rw [decide_eq_true_iff]
      exact fun hdiffer => hdiffer hsame
  · rintro ⟨hsame, hne⟩
    have hall : ∀ s ∈ endpointSerials before now, s = before.serial := by
      intro s hs
      have hdecide := hsame s hs
      rw [decide_eq_true_iff, not_not] at hdecide
      exact hdecide
    refine ⟨fun d hd hshares => ?_, ?_⟩
    · by_cases hnil : d.serial = []
      · exact .inl hnil
      · exact .inr (hall _ (mem_endpointSerials.mpr ⟨hnil, d, hd, hshares, rfl⟩))
    · obtain ⟨s, hs⟩ := List.exists_mem_of_ne_nil _ hne
      obtain ⟨-, d, hd, hshares, htold⟩ := mem_endpointSerials.mp hs
      exact ⟨d, hd, hshares, htold.trans (hall s hs)⟩

/-- **A look passes** exactly when it confirms the key. -/
theorem recheck_same_iff (hb : Detected before) :
    recheck before now = .same ↔ Confirmed before now := by
  by_cases hback : EndpointsBack before now
  · rw [recheck_back hb hback]
    by_cases hserial : before.serial = []
    · rw [hserial, List.isEmpty_nil, if_pos rfl]
      exact iff_of_true rfl ⟨hback, fun hne => absurd hserial hne⟩
    · rw [List.isEmpty_eq_false_iff.mpr hserial, if_neg Bool.false_ne_true]
      have hiff : Confirmed before now ↔ SerialBack before now :=
        ⟨fun h => h.serial hserial, fun h => ⟨hback, fun _ => h⟩⟩
      rw [hiff, serialBack_iff hserial]
      cases (endpointSerials before now).any fun s => decide (s ≠ before.serial) <;>
        cases (endpointSerials before now).isEmpty <;> simp
  · rw [recheck_gone hb hback]
    exact iff_of_false Recheck.noConfusion fun h => hback h.endpoints

theorem recheck_ne_skip (hb : Detected before) : recheck before now ≠ .skip := by
  by_cases hback : EndpointsBack before now
  · rw [recheck_back hb hback]
    repeat' split
    all_goals exact Recheck.noConfusion
  · rw [recheck_gone hb hback]
    exact Recheck.noConfusion

theorem recheck_ne_gone (hb : Detected before) (h : EndpointsBack before now) :
    recheck before now ≠ .gone := by
  rw [recheck_back hb h]
  repeat' split
  all_goals exact Recheck.noConfusion

/-! ### The order of rows -/

theorem any_perm {p : Device → Bool} {now' : List Device} (h : now.Perm now') :
    now.any p = now'.any p := by
  rw [Bool.eq_iff_iff, List.any_eq_true, List.any_eq_true]
  exact exists_congr fun d => and_congr_left' h.mem_iff

theorem recheck_perm {now' : List Device} (h : now.Perm now') :
    recheck before now = recheck before now' := by
  have hserials : (endpointSerials before now).Perm (endpointSerials before now') :=
    ((h.filter _).map _).filter _
  have hempty : (endpointSerials before now).isEmpty = (endpointSerials before now').isEmpty := by
    rw [Bool.eq_iff_iff, List.isEmpty_iff, List.isEmpty_iff]
    exact ⟨fun hnil => List.Perm.eq_nil (hnil ▸ hserials.symm),
      fun hnil => List.Perm.eq_nil (hnil ▸ hserials)⟩
  have hany : ∀ p : RustStr → Bool,
      (endpointSerials before now).any p = (endpointSerials before now').any p := by
    intro p
    rw [Bool.eq_iff_iff, List.any_eq_true, List.any_eq_true]
    exact exists_congr fun s => and_congr_left' hserials.mem_iff
  simp only [recheck, hempty, hany, any_perm h]

end Verdict

/-! ### Rows of a scan are detected -/

/-- The scan gave the row its id. -/
structure FromScan (d : Device) : Prop where
  id : ∃ c, d.id.head? = some c ∧ c ≠ 'o'
  endpoint : d.reader ≠ none ∨ d.hidPath ≠ none

theorem listed_of_head {d : Device} {c : Char} (hid : d.id.head? = some c) (hc : c ≠ 'o') :
    typedValue d = none := by
  obtain ⟨rest, hid⟩ := List.head?_eq_some_iff.mp hid
  have hcons : OVERRIDE_PREFIX = 'o' :: OVERRIDE_PREFIX.tail := rfl
  have hprefix : OVERRIDE_PREFIX.isPrefixOf d.id = false := by
    rw [hid, hcons, List.isPrefixOf_cons_cons, beq_eq_false_iff_ne.mpr (Ne.symm hc), Bool.false_and]
  rw [typedValue, hprefix, if_neg Bool.false_ne_true]

theorem FromScan.detected {d : Device} (h : FromScan d) : Detected d := by
  obtain ⟨c, hid, hc⟩ := h.id
  exact ⟨listed_of_head hid hc, h.endpoint⟩

theorem head?_append {front : RustStr} {c : Char} {rest : List Char} (hfront : front = c :: rest)
    (tail : RustStr) : (front ++ tail).head? = some c := by
  rw [hfront]
  rfl

section Scan

variable {h : Hasher} {nodes : List HidDevice} {probes : List ReaderProbe} {d : Device}

theorem fromScan_readerRows (hd : d ∈ readerRows nodes probes) : FromScan d := by
  obtain ⟨p, -, -, rfl | rfl | rfl⟩ := mem_readerRows hd
  · exact ⟨⟨'m', head?_append rfl _, by decide⟩, .inl (Option.some_ne_none _)⟩
  · exact ⟨⟨'p', head?_append rfl _, by decide⟩, .inl (Option.some_ne_none _)⟩
  · refine ⟨?_, .inl (Option.some_ne_none _)⟩
    by_cases hserial : ((p.yubikeySerial.or p.serial).getD []).isEmpty = true
    · refine ⟨'r', ?_, by decide⟩
      rw [cardRow, readerRow, if_pos hserial]
      exact head?_append rfl _
    · refine ⟨'s', ?_, by decide⟩
      rw [cardRow, readerRow, if_neg hserial]
      exact head?_append rfl _

theorem fromScan_merge {row : Row} (hrow : FromScan row.device) (i : Nat) (hid : HidDevice)
    (serial : RustStr) : FromScan (row.merge h i hid serial).device :=
  ⟨hrow.id, .inr (Option.some_ne_none _)⟩

theorem fromScan_ofNode (i : Nat) (hid : HidDevice) (j : Joint) :
    FromScan (Row.ofNode i hid j).device := by
  refine ⟨?_, .inr (Option.some_ne_none _)⟩
  by_cases hserial : j.serial.isEmpty = true
  · refine ⟨'h', ?_, by decide⟩
    rw [Row.ofNode, if_pos hserial]
    exact head?_append rfl _
  · refine ⟨'s', ?_, by decide⟩
    rw [Row.ofNode, if_neg hserial]
    exact head?_append rfl _

theorem fromScan_mergeTurn {joint : Nat → Joint} {rows : List Row}
    (hrows : ∀ row ∈ rows, FromScan row.device) (i : Nat) (hid : HidDevice) :
    ∀ row ∈ mergeTurn h joint rows i hid, FromScan row.device := by
  intro row hrow
  rw [mergeTurn] at hrow
  split at hrow
  · rename_i c _
    obtain ⟨k, hk⟩ := List.getElem?_of_mem hrow
    by_cases hck : c = k
    · subst hck
      rcases hold : rows[c]? with _ | old
      · rw [List.getElem?_modify_eq, hold] at hk
        cases hk
      · rw [getElem?_modify_self hold] at hk
        cases hk
        exact fromScan_merge (hrows old (List.mem_of_getElem? hold)) i hid _
    · rw [getElem?_modify_ne hck] at hk
      exact hrows row (List.mem_of_getElem? hk)
  · rcases List.mem_append.mp hrow with hrow | hrow
    · exact hrows row hrow
    · rw [List.mem_singleton.mp hrow]
      exact fromScan_ofNode i hid _

theorem fromScan_turns (joint : Nat → Joint) (hids : List HidDevice) :
    ∀ row ∈ turns (mergeTurn h joint)
      ((readerRows nodes probes).map fun device => { device, nodes := [] }) hids,
      FromScan row.device := by
  refine turns_rule (fun (_ : Nat) (rows : List Row) => ∀ row ∈ rows, FromScan row.device)
    (fun i hid rows _ hrows => fromScan_mergeTurn hrows i hid) fun row hrow => ?_
  obtain ⟨d, hd, rfl⟩ := List.mem_map.mp hrow
  exact fromScan_readerRows hd

theorem fromScan_tellApart {rows : List Row} (hrows : ∀ row ∈ rows, FromScan row.device) :
    ∀ row ∈ tellApart rows, FromScan row.device := by
  intro row hrow
  rw [tellApart] at hrow
  obtain ⟨old, hold, rfl⟩ := List.mem_map.mp hrow
  obtain ⟨⟨c, hid, hc⟩, hendpoint⟩ := hrows old hold
  split
  · obtain ⟨rest, hcons⟩ := List.head?_eq_some_iff.mp hid
    exact ⟨⟨c, head?_append hcons _, hc⟩, hendpoint⟩
  · exact hrows old hold

end Scan

/-- Every row that a scan lists is detected. -/
theorem correlateRows_detected (h : Hasher) (hids : List HidDevice) (probes : List ReaderProbe)
    (ids : Identities) (opts : MatchOptions) :
    ∀ row ∈ correlateRows h hids probes ids opts, Detected row.device := by
  intro row hrow
  exact (fromScan_tellApart (fromScan_turns _ _) row hrow).detected

/-! ### The check -/

/-- The look that decides: the full one where the first sees another serial or none. -/
def decidingLook (before : Device) (first full : Except RustStr (List Device)) :
    Except RustStr (List Device) := do
  let now ← first
  if recheck before now = .changed ∨ recheck before now = .unconfirmed then full
  else return now

/-- What the check after a confirmation does, for every two looks. -/
structure ReverifyExact (label : RustStr) (before : Device)
    (first full : Except RustStr (List Device)) : Prop where
  goesOn : reverify label before first full = .ok () ↔
    ∃ now, decidingLook before first full = .ok now ∧ Confirmed before now
  /-- The key is still there in both looks, and its serial is told in the full one. -/
  stillThere : ∀ now later, first = .ok now → full = .ok later → EndpointsBack before now →
    Confirmed before later → reverify label before first full = .ok ()
  order : ∀ now now' later later', first = .ok now → full = .ok later → now.Perm now' →
    later.Perm later' →
    reverify label before first full = reverify label before (.ok now') (.ok later')

section Check

variable {label : RustStr} {before : Device} {first full : Except RustStr (List Device)}

theorem verdictResult_ok {verdict : Recheck} :
    verdictResult label verdict = .ok () ↔ verdict = .same ∨ verdict = .skip := by
  cases verdict with
  | same => exact iff_of_true rfl (.inl rfl)
  | skip => exact iff_of_true rfl (.inr rfl)
  | gone => exact iff_of_false nofun nofun
  | changed => exact iff_of_false nofun nofun
  | unconfirmed => exact iff_of_false nofun nofun

theorem verdictResult_recheck (hb : Detected before) (now : List Device) :
    verdictResult label (recheck before now) = .ok () ↔ Confirmed before now := by
  rw [verdictResult_ok, ← recheck_same_iff hb]
  exact or_iff_left (recheck_ne_skip hb)

theorem reverify_first (now : List Device) :
    reverify label before (.ok now) full =
      (reverifyVerdict (recheck before now) (full.map (recheck before))).bind
        (verdictResult label) := rfl

theorem reverify_final {now : List Device}
    (h : ¬ (recheck before now = .changed ∨ recheck before now = .unconfirmed)) :
    reverify label before (.ok now) full = verdictResult label (recheck before now) := by
  rw [reverify_first]
  cases hverdict : recheck before now with
  | same => rfl
  | skip => rfl
  | gone => rfl
  | changed => exact absurd (.inl hverdict) h
  | unconfirmed => exact absurd (.inr hverdict) h

theorem reverify_full {now : List Device}
    (h : recheck before now = .changed ∨ recheck before now = .unconfirmed) :
    reverify label before (.ok now) full =
      full.bind fun later => verdictResult label (recheck before later) := by
  rw [reverify_first]
  rcases h with h | h <;>
    · rw [h]
      cases full <;> rfl

theorem reverify_ok_iff (hb : Detected before) : reverify label before first full = .ok () ↔
    ∃ now, decidingLook before first full = .ok now ∧ Confirmed before now := by
  cases first with
  | error e =>
      constructor
      · intro h
        cases h
      · rintro ⟨now, hnow, -⟩
        cases hnow
  | ok now =>
      by_cases h : recheck before now = .changed ∨ recheck before now = .unconfirmed
      · have hlook : decidingLook before (.ok now) full = full := if_pos h
        rw [reverify_full h, hlook]
        cases full with
        | error e =>
            constructor
            · intro h
              cases h
            · rintro ⟨later, hlater, -⟩
              cases hlater
        | ok later =>
            refine (verdictResult_recheck hb later).trans ⟨fun hc => ⟨later, rfl, hc⟩, ?_⟩
            rintro ⟨_, hlater, hc⟩
            cases hlater
            exact hc
      · have hlook : decidingLook before (.ok now) full = .ok now := if_neg h
        rw [reverify_final h, hlook]
        refine (verdictResult_recheck hb now).trans ⟨fun hc => ⟨now, rfl, hc⟩, ?_⟩
        rintro ⟨_, hnow, hc⟩
        cases hnow
        exact hc

end Check

/-- **The check never passes another key's endpoints or serial**, and passes the key that is
still there, whatever rows the first look and the full one find, and in whatever order they are. -/
theorem reverify_exact (label : RustStr) {before : Device} (hb : Detected before)
    (first full : Except RustStr (List Device)) : ReverifyExact label before first full where
  goesOn := reverify_ok_iff hb
  stillThere := by
    rintro now later rfl rfl hback hconfirmed
    rw [reverify_ok_iff hb]
    by_cases h : recheck before now = .changed ∨ recheck before now = .unconfirmed
    · exact ⟨later, if_pos h, hconfirmed⟩
    · refine ⟨now, if_neg h, (recheck_same_iff hb).mp ?_⟩
      have hskip : recheck before now ≠ .skip := recheck_ne_skip hb
      have hgone := recheck_ne_gone hb hback
      revert h hskip hgone
      cases recheck before now <;> simp
  order := by
    rintro now now' later later' rfl rfl hnow hlater
    rw [reverify_first, reverify_first, recheck_perm hnow]
    simp only [Except.map, recheck_perm hlater]

/-- A row with these endpoints and this serial. -/
def keyAt (reader path : Option RustStr) (serial : RustStr) : Device :=
  { id := "serial:".toList ++ serial, name := none, serial, kind := .key, hidPath := path,
    reader, hidSerial := none, formerSerial := none, naming := .unnamed }

/-- A reader row that keeps its serial passes for a node that tells none, and a key without a
serial for one that tells one. -/
theorem unread_endpoint_passes :
    reverify [] (keyAt (some ['R']) (some ['P']) ['1'])
        (.ok [keyAt (some ['R']) none ['1'], keyAt none (some ['P']) []]) (.ok []) = .ok () ∧
      (∀ d ∈ [keyAt (some ['R']) none ['1'], keyAt none (some ['P']) []],
        d.hidPath = some ['P'] → d.serial ≠ ['1']) ∧
      reverify [] (keyAt (some ['R']) none []) (.ok [keyAt (some ['R']) none ['2']]) (.ok []) =
        .ok () := by
  decide

theorem split_row_checked :
    ReverifyExact [] (keyAt (some ['R']) (some ['P']) ['1'])
      (.ok [keyAt (some ['R']) none ['1'], keyAt none (some ['P']) []]) (.ok []) :=
  reverify_exact [] ⟨by decide, .inl (Option.some_ne_none _)⟩ _ _

end Keyroost.Resolve
