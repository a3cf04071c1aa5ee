import Keyroost.Resolve.Rows

/-!
# Where each FIDO node is merged

The row a node is merged into is decided by the rows of the readers alone: the first row of its
reader, or an earlier row that has its serial, and without either a row that it shares with the
other nodes of its reader. The proof carries through the loop which nodes each row has.

`Goes` says without the loop of `Rows` where a node goes, and `Merged` is the invariant: the nodes
that went by are in the rows that `Goes` says, in their order. A turn keeps it whether it merges the
node into a row or opens a new one (`Merged.turn`), and `merged_turns` is the whole loop.
-/

namespace Keyroost.Resolve

open Hid Transport Keyring Slots

/-! ### Joining by reader and by serial -/

def ReaderFits (j : Joint) (d : Device) : Prop :=
  d.kind = .key ∧ ∃ r, j.reader = some r ∧ d.reader = some r

def SerialFits (j : Joint) (d : Device) : Prop :=
  d.kind = .key ∧ j.bySerial = true ∧ d.serial = j.serial

theorem fits_iff {j : Joint} {d : Device} :
    j.fits d = true ↔ ReaderFits j d ∨ SerialFits j d := by
  rw [Joint.fits, ReaderFits, SerialFits, Bool.and_eq_true, Bool.or_eq_true, Bool.and_eq_true,
    Bool.and_eq_true, decide_eq_true_iff, decide_eq_true_iff, decide_eq_true_iff, ← and_or_left,
    Option.isSome_iff_exists]
  constructor
  · rintro ⟨hkind, ⟨⟨r, hr⟩, hsame⟩ | hserial⟩
    · exact ⟨hkind, .inl ⟨r, hr, hsame.trans hr⟩⟩
    · exact ⟨hkind, .inr hserial⟩
  · rintro ⟨hkind, ⟨r, hr, hd⟩ | hserial⟩
    · exact ⟨hkind, .inl ⟨⟨r, hr⟩, hd.trans hr.symm⟩⟩
    · exact ⟨hkind, .inr hserial⟩

section Places

variable (cards : List Device) (joint : Nat → Joint)

/-- The node is joined to the card row by its serial alone: neither this row nor one before
it is of the node's reader. -/
def Strays (i c : Nat) : Prop :=
  ∃ d, cards[c]? = some d ∧ SerialFits (joint i) d ∧
    ∀ c' ≤ c, ∀ d', cards[c']? = some d' → ¬ ReaderFits (joint i) d'

/-- The first row of the node's reader. -/
def Own (i c : Nat) : Prop :=
  ∃ d, cards[c]? = some d ∧ ReaderFits (joint i) d ∧
    ∀ c' < c, ∀ d', cards[c']? = some d' → ¬ ReaderFits (joint i) d'

/-- The row of a reader that the node is merged into. -/
def Goes (i c : Nat) : Prop :=
  Strays cards joint i c ∨ ((∀ c', ¬ Strays cards joint i c') ∧ Own cards joint i c)

/-- No reader's row takes the node. -/
def Homeless (i : Nat) : Prop :=
  (∀ c, ¬ Strays cards joint i c) ∧
    ∀ (c : Nat) (d : Device), cards[c]? = some d → ¬ ReaderFits (joint i) d

/-- A serial that joins is no other node's, and at most one card row has it. -/
structure SerialsTell (n : Nat) : Prop where
  filled : ∀ i < n, (joint i).bySerial = true → (joint i).serial ≠ []
  nodes : ∀ i < n, ∀ k < n, (joint i).bySerial = true → (joint k).serial = (joint i).serial → k = i
  cards : ∀ i < n, ∀ (c c' : Nat) (d d' : Device), cards[c]? = some d → cards[c']? = some d' →
    SerialFits (joint i) d → SerialFits (joint i) d' → c = c'

theorem goes_or_homeless (i : Nat) :
    (∃ c, Goes cards joint i c) ∨ Homeless cards joint i := by
  by_cases hstray : ∃ c, Strays cards joint i c
  · obtain ⟨c, hc⟩ := hstray
    exact .inl ⟨c, .inl hc⟩
  · rw [not_exists] at hstray
    by_cases hown : ∃ (c : Nat) (d : Device), cards[c]? = some d ∧ ReaderFits (joint i) d
    · classical
      obtain ⟨d, hd, hfits⟩ := Nat.find_spec hown
      refine .inl ⟨Nat.find hown, .inr ⟨hstray, d, hd, hfits, ?_⟩⟩
      intro c' hc' d' hd' hfits'
      exact Nat.find_min hown hc' ⟨d', hd', hfits'⟩
    · refine .inr ⟨hstray, ?_⟩
      intro c d hd hfits
      exact hown ⟨c, d, hd, hfits⟩

variable {cards} {joint}

/-! ### The loop -/

/-- What holds of a reader's row, when the first `n` nodes went by: it is still that of its reader,
it has the nodes that go there, and its serial is its own or, where it had none, that of one of
them. -/
structure CardRow (cards : List Device) (joint : Nat → Joint) (n c : Nat) (d : Device)
    (row : Row) : Prop where
  kind : row.device.kind = d.kind
  reader : row.device.reader = d.reader
  serial : row.device.serial = d.serial ∨
    (d.serial = [] ∧ ∃ k ∈ row.nodes, row.device.serial = (joint k).serial)
  nodes : ∀ k, k ∈ row.nodes ↔ k < n ∧ Goes cards joint k c

/-- What holds of a row made for a node. Nodes share such a row only through the reader they are
bound to, so one without a reader has its row for itself. -/
structure NodeRow (cards : List Device) (joint : Nat → Joint) (n : Nat) (row : Row) : Prop where
  kind : row.device.kind = .key
  serial : ∃ k ∈ row.nodes, row.device.serial = (joint k).serial
  nodes : ∀ k ∈ row.nodes, k < n ∧ Homeless cards joint k ∧ row.device.reader = (joint k).reader
  alone : row.device.reader = none → ∃ k, row.nodes = [k]

/-- The loop after `n` nodes. The rows of readers come first and keep their places; a node goes to
the row of its reader or of its serial, or to a row behind them, and none is lost or doubled
(`perm`). -/
structure Merged (cards : List Device) (joint : Nat → Joint) (n : Nat) (rows : List Row) :
    Prop where
  card : ∀ (c : Nat) (d : Device), cards[c]? = some d →
    ∃ row, rows[c]? = some row ∧ CardRow cards joint n c d row
  node : ∀ (c : Nat) (row : Row), cards.length ≤ c → rows[c]? = some row → NodeRow cards joint n row
  once : ∀ (c c' : Nat) (row row' : Row) (r : RustStr), cards.length ≤ c →
    cards.length ≤ c' → rows[c]? = some row →
    rows[c']? = some row' → row.device.reader = some r → row'.device.reader = some r → c = c'
  homeless : ∀ k < n, Homeless cards joint k → ∃ (c : Nat) (row : Row), cards.length ≤ c ∧
    rows[c]? = some row ∧ k ∈ row.nodes
  perm : (rows.flatMap (·.nodes)).Perm (List.range n)

variable {n m c : Nat} {d : Device} {row : Row} {rows : List Row}

/-- A reader's row still fits a later node as it did before the loop. -/
theorem CardRow.fits (hrow : CardRow cards joint n c d row) (htell : SerialsTell cards joint m)
    (hn : n < m) : (joint n).fits row.device = true ↔
      ReaderFits (joint n) d ∨ SerialFits (joint n) d := by
  rw [fits_iff, ReaderFits, ReaderFits, SerialFits, SerialFits, hrow.kind, hrow.reader]
  refine or_congr_right (and_congr_right fun _ => and_congr_right fun hby => ?_)
  rcases hrow.serial with hsame | ⟨hempty, k, hk, hserial⟩
  · rw [hsame]
  · obtain ⟨hkn, -⟩ := (hrow.nodes k).mp hk
    constructor
    · intro hfits
      have hkeq := htell.nodes n hn k (hkn.trans hn) hby (hserial.symm.trans hfits)
      exact absurd hkeq (Nat.ne_of_lt hkn)
    · intro hfits
      exact absurd (hfits.symm.trans hempty) (htell.filled n hn hby)

/-- A node's row fits only later nodes of its reader. -/
theorem NodeRow.fits (hrow : NodeRow cards joint n row) (htell : SerialsTell cards joint m)
    (hn : n < m) : (joint n).fits row.device = true ↔
      ∃ r, (joint n).reader = some r ∧ row.device.reader = some r := by
  rw [fits_iff, ReaderFits, SerialFits, hrow.kind]
  constructor
  · rintro (⟨-, hreader⟩ | ⟨-, hby, hserial⟩)
    · exact hreader
    · obtain ⟨k, hk, hkserial⟩ := hrow.serial
      have hkn := (hrow.nodes k hk).1
      have hkeq := htell.nodes n hn k (hkn.trans hn) hby (hkserial.symm.trans hserial)
      exact absurd hkeq (Nat.ne_of_lt hkn)
  · exact fun hreader => .inl ⟨rfl, hreader⟩

theorem goes_unique (htell : SerialsTell cards joint m) (hn : n < m) {c c' : Nat}
    (hc : Goes cards joint n c) (hc' : Goes cards joint n c') : c = c' := by
  rcases hc with ⟨d, hd, hfits, hno⟩ | ⟨hstray, hown⟩
  · rcases hc' with ⟨d', hd', hfits', -⟩ | ⟨hstray', -⟩
    · exact htell.cards n hn c c' d d' hd hd' hfits hfits'
    · exact absurd ⟨d, hd, hfits, hno⟩ (hstray' c)
  · rcases hc' with hstray' | ⟨-, hown'⟩
    · exact absurd hstray' (hstray c')
    · obtain ⟨d, hd, hfits, hfirst⟩ := hown
      obtain ⟨d', hd', hfits', hfirst'⟩ := hown'
      rcases Nat.lt_trichotomy c c' with hlt | heq | hgt
      · exact absurd hfits (hfirst' c hlt d hd)
      · exact heq
      · exact absurd hfits' (hfirst c' hgt d' hd')

theorem goes_not_homeless (hc : Goes cards joint n c) : ¬ Homeless cards joint n := by
  rintro ⟨hstray, hreader⟩
  rcases hc with hstray' | ⟨-, d, hd, hfits, -⟩
  · exact hstray c hstray'
  · exact hreader c d hd hfits

theorem goes_lt (hc : Goes cards joint n c) : c < cards.length := by
  rcases hc with ⟨d, hd, -⟩ | ⟨-, d, hd, -⟩
  · exact (List.getElem?_eq_some_iff.mp hd).1
  · exact (List.getElem?_eq_some_iff.mp hd).1

theorem Merged.card_lt (hm : Merged cards joint n rows) (hc : c < cards.length) :
    c < rows.length := by
  obtain ⟨row, hrow, -⟩ := hm.card c cards[c] (List.getElem?_eq_getElem hc)
  exact (List.getElem?_eq_some_iff.mp hrow).1

/-- The row that the loop finds for a node with a place among the readers' rows. -/
theorem Merged.find_goes (hm : Merged cards joint n rows) (htell : SerialsTell cards joint m)
    (hn : n < m) (hgoes : Goes cards joint n c) :
    rows.findIdx? (fun row => (joint n).fits row.device) = some c := by
  have hlt := hm.card_lt (goes_lt hgoes)
  have hrow : ∀ j (hj : j < cards.length) (hj' : j < rows.length),
      (joint n).fits rows[j].device = true ↔
        ReaderFits (joint n) cards[j] ∨ SerialFits (joint n) cards[j] := by
    intro j hj hj'
    obtain ⟨row, hget, hrow⟩ := hm.card j cards[j] (List.getElem?_eq_getElem hj)
    obtain rfl : rows[j] = row :=
      Option.some.inj ((List.getElem?_eq_getElem hj').symm.trans hget)
    exact hrow.fits htell hn
  rw [List.findIdx?_eq_some_iff_getElem]
  refine ⟨hlt, ?_, ?_⟩
  · rw [hrow c (goes_lt hgoes) hlt]
    rcases hgoes with ⟨d, hd, hfits, -⟩ | ⟨-, d, hd, hfits, -⟩
    · obtain ⟨_, rfl⟩ := List.getElem?_eq_some_iff.mp hd
      exact .inr hfits
    · obtain ⟨_, rfl⟩ := List.getElem?_eq_some_iff.mp hd
      exact .inl hfits
  · intro j hjc
    have hj : j < cards.length := hjc.trans (goes_lt hgoes)
    rw [hrow j hj (hjc.trans hlt)]
    have hget := List.getElem?_eq_getElem hj
    rintro (hreader | hserial)
    · rcases hgoes with ⟨-, -, -, hno⟩ | ⟨-, -, -, -, hno⟩
      · exact hno j (Nat.le_of_lt hjc) _ hget hreader
      · exact hno j hjc _ hget hreader
    · rcases hgoes with ⟨d, hd, hfits, -⟩ | ⟨hstray, -, -, -, hno⟩
      · exact absurd (htell.cards n hn j c _ d hget hd hserial hfits) (Nat.ne_of_lt hjc)
      · exact hstray j ⟨_, hget, hserial, fun c' hc' => hno c' (Nat.lt_of_le_of_lt hc' hjc)⟩

/-- The rows that a node without such a place fits are those of its reader, among the rows
made for nodes. -/
theorem Merged.fits_homeless (hm : Merged cards joint n rows) (htell : SerialsTell cards joint m)
    (hn : n < m) (hhome : Homeless cards joint n) (hrow : rows[c]? = some row) :
    (joint n).fits row.device = true ↔ cards.length ≤ c ∧
      ∃ r, (joint n).reader = some r ∧ row.device.reader = some r := by
  rcases Nat.lt_or_ge c cards.length with hlt | hge
  · have hget := List.getElem?_eq_getElem hlt
    obtain ⟨row', hrow', hcard⟩ := hm.card c _ hget
    obtain rfl : row = row' := Option.some.inj (hrow.symm.trans hrow')
    rw [hcard.fits htell hn]
    constructor
    · rintro (hreader | hserial)
      · exact absurd hreader (hhome.2 c _ hget)
      · exact absurd ⟨_, hget, hserial, fun c' _ d' hd' => hhome.2 c' d' hd'⟩ (hhome.1 c)
    · rintro ⟨hge, -⟩
      exact absurd hlt (Nat.not_lt.mpr hge)
  · rw [(hm.node c row hge hrow).fits htell hn]
    exact (and_iff_right hge).symm

/-! ### Rows changed by a turn -/

variable {h : Hasher} {hid : HidDevice}

theorem flatMap_modify {g : Row → Row} (hrow : rows[c]? = some row)
    (hg : (g row).nodes = row.nodes ++ [n]) :
    ((rows.modify c g).flatMap (·.nodes)).Perm (rows.flatMap (·.nodes) ++ [n]) := by
  induction rows generalizing c with
  | nil => cases hrow
  | cons first rows ih =>
      cases c with
      | zero =>
          cases hrow
          rw [List.modify_zero_cons, List.flatMap_cons, List.flatMap_cons, hg, List.append_assoc,
            List.append_assoc]
          exact List.perm_append_comm.append_left _
      | succ c =>
          rw [List.modify_succ_cons, List.flatMap_cons, List.flatMap_cons, List.append_assoc]
          exact (ih hrow).append_left _

theorem CardRow.later (hcard : CardRow cards joint n c d row) (hno : ¬ Goes cards joint n c) :
    CardRow cards joint (n + 1) c d row := by
  refine ⟨hcard.kind, hcard.reader, hcard.serial, ?_⟩
  intro k
  rw [hcard.nodes]
  constructor
  · rintro ⟨hk, hgoes⟩
    exact ⟨Nat.lt_succ_of_lt hk, hgoes⟩
  · rintro ⟨hk, hgoes⟩
    rcases Nat.lt_or_ge k n with hlt | hge
    · exact ⟨hlt, hgoes⟩
    · obtain rfl : k = n := Nat.le_antisymm (Nat.lt_succ_iff.mp hk) hge
      exact absurd hgoes hno

theorem CardRow.merge (hcard : CardRow cards joint n c d row) (hgoes : Goes cards joint n c) :
    CardRow cards joint (n + 1) c d (row.merge h n hid (joint n).serial) := by
  refine ⟨hcard.kind, hcard.reader, ?_, ?_⟩
  · rw [Row.merge]
    dsimp only
    rcases hempty : row.device.serial.isEmpty with _ | _
    · rw [if_neg Bool.false_ne_true]
      refine hcard.serial.imp_right ?_
      rintro ⟨hd, k, hk, hserial⟩
      exact ⟨hd, k, List.mem_append_left _ hk, hserial⟩
    · rw [if_pos rfl]
      have hserial := List.isEmpty_iff.mp hempty
      rcases hcard.serial with hsame | ⟨hd, -⟩
      · exact .inr ⟨hsame.symm.trans hserial, n, List.mem_append_right _ (by simp), rfl⟩
      · exact .inr ⟨hd, n, List.mem_append_right _ (by simp), rfl⟩
  · intro k
    rw [Row.merge, List.mem_append, List.mem_singleton, hcard.nodes]
    constructor
    · rintro (⟨hk, hg⟩ | rfl)
      · exact ⟨Nat.lt_succ_of_lt hk, hg⟩
      · exact ⟨Nat.lt_succ_self k, hgoes⟩
    · rintro ⟨hk, hg⟩
      rcases Nat.lt_or_ge k n with hlt | hge
      · exact .inl ⟨hlt, hg⟩
      · exact .inr (Nat.le_antisymm (Nat.lt_succ_iff.mp hk) hge)

theorem NodeRow.later (hnode : NodeRow cards joint n row) : NodeRow cards joint (n + 1) row :=
  ⟨hnode.kind, hnode.serial, fun k hk => ⟨Nat.lt_succ_of_lt (hnode.nodes k hk).1,
    (hnode.nodes k hk).2⟩, hnode.alone⟩

theorem NodeRow.merge (hnode : NodeRow cards joint n row) (hhome : Homeless cards joint n)
    {r : RustStr} (hr : (joint n).reader = some r) (hrow : row.device.reader = some r) :
    NodeRow cards joint (n + 1) (row.merge h n hid (joint n).serial) := by
  refine ⟨hnode.kind, ?_, ?_, ?_⟩
  · rw [Row.merge]
    dsimp only
    rcases row.device.serial.isEmpty with _ | _
    · rw [if_neg Bool.false_ne_true]
      obtain ⟨k, hk, hserial⟩ := hnode.serial
      exact ⟨k, List.mem_append_left _ hk, hserial⟩
    · rw [if_pos rfl]
      exact ⟨n, List.mem_append_right _ (List.mem_singleton_self n), rfl⟩
  · intro k hk
    rcases List.mem_append.mp hk with hk | hk
    · obtain ⟨hlt, hrest⟩ := hnode.nodes k hk
      exact ⟨Nat.lt_succ_of_lt hlt, hrest⟩
    · obtain rfl := List.mem_singleton.mp hk
      exact ⟨Nat.lt_succ_self k, hhome, hrow.trans hr.symm⟩
  · intro hnone
    exact nomatch hrow.symm.trans hnone

theorem NodeRow.ofNode (hhome : Homeless cards joint n) :
    NodeRow cards joint (n + 1) (Row.ofNode n hid (joint n)) := by
  refine ⟨rfl, ⟨n, List.mem_singleton_self n, rfl⟩, ?_, fun _ => ⟨n, rfl⟩⟩
  intro k hk
  obtain rfl := List.mem_singleton.mp hk
  exact ⟨Nat.lt_succ_self k, hhome, rfl⟩

/-! ### One node -/

theorem getElem?_modify_ne {g : Row → Row} {c c' : Nat} (hne : c ≠ c') :
    (rows.modify c g)[c']? = rows[c']? := by
  rw [List.getElem?_modify, Option.map_eq_map]
  simp [hne]

theorem getElem?_modify_self {g : Row → Row} (hrow : rows[c]? = some row) :
    (rows.modify c g)[c]? = some (g row) := by
  rw [List.getElem?_modify_eq, hrow]
  rfl

theorem Merged.perm_merge (hm : Merged cards joint n rows) (hrow : rows[c]? = some row) :
    ((rows.modify c fun row => row.merge h n hid (joint n).serial).flatMap (·.nodes)).Perm
      (List.range (n + 1)) := by
  refine (flatMap_modify hrow rfl).trans ?_
  rw [List.range_succ]
  exact hm.perm.append_right [n]

/-- A node with a place among the readers' rows. -/
theorem Merged.merge_card (hm : Merged cards joint n rows) (htell : SerialsTell cards joint m)
    (hn : n < m) (hgoes : Goes cards joint n c) :
    Merged cards joint (n + 1) (rows.modify c fun row => row.merge h n hid (joint n).serial) := by
  have hclt := goes_lt hgoes
  obtain ⟨row, hrow, hcard⟩ := hm.card c cards[c] (List.getElem?_eq_getElem hclt)
  have hextra : ∀ c', cards.length ≤ c' →
      (rows.modify c fun row => row.merge h n hid (joint n).serial)[c']? = rows[c']? :=
    fun c' hc' => getElem?_modify_ne (Nat.ne_of_lt (hclt.trans_le hc'))
  refine ⟨?_, ?_, ?_, ?_, hm.perm_merge hrow⟩
  · intro c' d' hd'
    by_cases hcc : c = c'
    · subst hcc
      obtain ⟨_, rfl⟩ := List.getElem?_eq_some_iff.mp hd'
      exact ⟨_, getElem?_modify_self hrow, hcard.merge hgoes⟩
    · obtain ⟨row', hrow', hcard'⟩ := hm.card c' d' hd'
      exact ⟨row', (getElem?_modify_ne hcc).trans hrow',
        hcard'.later fun hgoes' => hcc (goes_unique htell hn hgoes hgoes')⟩
  · intro c' row' hc' hrow'
    rw [hextra c' hc'] at hrow'
    exact (hm.node c' row' hc' hrow').later
  · intro c₁ c₂ row₁ row₂ r hc₁ hc₂ hrow₁ hrow₂
    rw [hextra c₁ hc₁] at hrow₁
    rw [hextra c₂ hc₂] at hrow₂
    exact hm.once c₁ c₂ row₁ row₂ r hc₁ hc₂ hrow₁ hrow₂
  · intro k hk hhome
    have hkn : k < n := by
      refine Nat.lt_of_le_of_ne (Nat.lt_succ_iff.mp hk) ?_
      rintro rfl
      exact goes_not_homeless hgoes hhome
    obtain ⟨c', row', hc', hrow', hmem⟩ := hm.homeless k hkn hhome
    exact ⟨c', row', hc', (hextra c' hc').trans hrow', hmem⟩

/-- A node that joins the row made for its reader's other nodes. -/
theorem Merged.merge_node (hm : Merged cards joint n rows) (hhome : Homeless cards joint n)
    (hc : cards.length ≤ c) (hrow : rows[c]? = some row) {r : RustStr}
    (hr : (joint n).reader = some r) (hreader : row.device.reader = some r) :
    Merged cards joint (n + 1) (rows.modify c fun row => row.merge h n hid (joint n).serial) := by
  have hread : ∀ (c' : Nat) (row' : Row),
      (rows.modify c fun row => row.merge h n hid (joint n).serial)[c']? = some row' →
      ∃ old, rows[c']? = some old ∧ row'.device.reader = old.device.reader ∧
        ∀ k ∈ old.nodes, k ∈ row'.nodes := by
    intro c' row' hrow'
    by_cases hcc : c = c'
    · subst hcc
      rw [getElem?_modify_self hrow] at hrow'
      cases hrow'
      exact ⟨row, hrow, rfl, fun k hk => List.mem_append_left _ hk⟩
    · rw [getElem?_modify_ne hcc] at hrow'
      exact ⟨row', hrow', rfl, fun k hk => hk⟩
  refine ⟨?_, ?_, ?_, ?_, hm.perm_merge hrow⟩
  · intro c' d' hd'
    have hlt : c' < cards.length := (List.getElem?_eq_some_iff.mp hd').1
    obtain ⟨row', hrow', hcard⟩ := hm.card c' d' hd'
    exact ⟨row', (getElem?_modify_ne (Nat.ne_of_gt (hlt.trans_le hc))).trans hrow',
      hcard.later fun hgoes => goes_not_homeless hgoes hhome⟩
  · intro c' row' hc' hrow'
    by_cases hcc : c = c'
    · subst hcc
      rw [getElem?_modify_self hrow] at hrow'
      cases hrow'
      exact (hm.node c row hc hrow).merge hhome hr hreader
    · rw [getElem?_modify_ne hcc] at hrow'
      exact (hm.node c' row' hc' hrow').later
  · intro c₁ c₂ row₁ row₂ r' hc₁ hc₂ hrow₁ hrow₂ hr₁ hr₂
    obtain ⟨old₁, hold₁, hreader₁, -⟩ := hread c₁ row₁ hrow₁
    obtain ⟨old₂, hold₂, hreader₂, -⟩ := hread c₂ row₂ hrow₂
    exact hm.once c₁ c₂ old₁ old₂ r' hc₁ hc₂ hold₁ hold₂ (hreader₁ ▸ hr₁) (hreader₂ ▸ hr₂)
  · intro k hk hkhome
    rcases Nat.lt_or_ge k n with hlt | hge
    · obtain ⟨c', row', hc', hrow', hmem⟩ := hm.homeless k hlt hkhome
      by_cases hcc : c = c'
      · subst hcc
        obtain rfl : row = row' := Option.some.inj (hrow.symm.trans hrow')
        exact ⟨c, _, hc, getElem?_modify_self hrow, List.mem_append_left _ hmem⟩
      · exact ⟨c', row', hc', (getElem?_modify_ne hcc).trans hrow', hmem⟩
    · obtain rfl : k = n := Nat.le_antisymm (Nat.lt_succ_iff.mp hk) hge
      exact ⟨c, _, hc, getElem?_modify_self hrow,
        List.mem_append_right _ (List.mem_singleton_self k)⟩

/-- A node with a row of its own. -/
theorem Merged.append_node (hm : Merged cards joint n rows) (hhome : Homeless cards joint n)
    (hlen : cards.length ≤ rows.length)
    (hnew : ∀ (c : Nat) (row : Row) (r : RustStr), cards.length ≤ c → rows[c]? = some row →
      (joint n).reader = some r → row.device.reader ≠ some r) :
    Merged cards joint (n + 1) (rows ++ [Row.ofNode n hid (joint n)]) := by
  have hcases : ∀ (c : Nat) (row : Row),
      (rows ++ [Row.ofNode n hid (joint n)])[c]? = some row →
      rows[c]? = some row ∨ (c = rows.length ∧ row = Row.ofNode n hid (joint n)) := by
    intro c row hrow
    rcases Nat.lt_trichotomy c rows.length with hlt | heq | hgt
    · rw [List.getElem?_append_left hlt] at hrow
      exact .inl hrow
    · subst heq
      rw [List.getElem?_concat_length] at hrow
      exact .inr ⟨rfl, (Option.some.inj hrow).symm⟩
    · rw [List.getElem?_eq_none (by rw [List.length_append]; exact hgt)] at hrow
      cases hrow
  have hold : ∀ {c : Nat} {row : Row}, rows[c]? = some row →
      (rows ++ [Row.ofNode n hid (joint n)])[c]? = some row := by
    intro c row hrow
    rw [List.getElem?_append_left (List.getElem?_eq_some_iff.mp hrow).1]
    exact hrow
  refine ⟨?_, ?_, ?_, ?_, ?_⟩
  · intro c d hd
    obtain ⟨row, hrow, hcard⟩ := hm.card c d hd
    exact ⟨row, hold hrow, hcard.later fun hgoes => goes_not_homeless hgoes hhome⟩
  · intro c row hc hrow
    rcases hcases c row hrow with hrow | ⟨-, rfl⟩
    · exact (hm.node c row hc hrow).later
    · exact NodeRow.ofNode hhome
  · intro c₁ c₂ row₁ row₂ r hc₁ hc₂ hrow₁ hrow₂ hr₁ hr₂
    rcases hcases c₁ row₁ hrow₁ with hold₁ | ⟨h₁, rfl⟩
    · rcases hcases c₂ row₂ hrow₂ with hold₂ | ⟨h₂, rfl⟩
      · exact hm.once c₁ c₂ row₁ row₂ r hc₁ hc₂ hold₁ hold₂ hr₁ hr₂
      · exact absurd hr₁ (hnew c₁ row₁ r hc₁ hold₁ hr₂)
    · rcases hcases c₂ row₂ hrow₂ with hold₂ | ⟨h₂, rfl⟩
      · exact absurd hr₂ (hnew c₂ row₂ r hc₂ hold₂ hr₁)
      · exact h₁.trans h₂.symm
  · intro k hk hkhome
    rcases Nat.lt_or_ge k n with hlt | hge
    · obtain ⟨c, row, hc, hrow, hmem⟩ := hm.homeless k hlt hkhome
      exact ⟨c, row, hc, hold hrow, hmem⟩
    · obtain rfl : k = n := Nat.le_antisymm (Nat.lt_succ_iff.mp hk) hge
      exact ⟨rows.length, _, hlen, List.getElem?_concat_length, List.mem_singleton_self k⟩
  · rw [List.flatMap_append, List.range_succ]
    exact hm.perm.append_right [n]

theorem Merged.turn (hm : Merged cards joint n rows) (htell : SerialsTell cards joint m)
    (hn : n < m) : Merged cards joint (n + 1) (mergeTurn h joint rows n hid) := by
  rw [mergeTurn]
  rcases goes_or_homeless cards joint n with ⟨c, hgoes⟩ | hhome
  · rw [hm.find_goes htell hn hgoes]
    exact hm.merge_card htell hn hgoes
  · have hlen : cards.length ≤ rows.length := by
      by_contra hlt
      exact absurd (hm.card_lt (Nat.lt_of_not_le hlt)) (Nat.lt_irrefl _)
    rcases hfind : rows.findIdx? fun row => (joint n).fits row.device with _ | c
    · rw [hfind]
      refine hm.append_node hhome hlen ?_
      intro c row r hc hrow hr hreader
      have hno := List.findIdx?_eq_none_iff.mp hfind row (List.mem_of_getElem? hrow)
      rw [(hm.fits_homeless htell hn hhome hrow).mpr ⟨hc, r, hr, hreader⟩] at hno
      cases hno
    · rw [hfind]
      obtain ⟨hlt, hfits, -⟩ := List.findIdx?_eq_some_iff_getElem.mp hfind
      have hrow := List.getElem?_eq_getElem hlt
      obtain ⟨hc, r, hr, hreader⟩ := (hm.fits_homeless htell hn hhome hrow).mp hfits
      exact hm.merge_node hhome hc hrow hr hreader

end Places

end Keyroost.Resolve
