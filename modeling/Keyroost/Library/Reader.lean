import Mathlib.Algebra.Ring.Nat
import Mathlib.Data.List.Forall2
import Keyroost.Library.Checks

/-!
# Readers

A reader takes something off the front of a byte string, or fails. Most readers are local: what they
take and what they make of it does not depend on the bytes after it. The rules below carry locality
through the ways readers are put together.

* `Reads` says that some bytes are read as a value whatever follows them, and composes along
  `andThen`; a round trip is one such statement for a whole format.
* `Inverts` adds that nothing else is read so: the reader accepts exactly what the writer writes.
* `toEnd` reads one item after another to the end of the input. It is given fuel, and `toEnd_fuel`
  says that the length of the input is enough for items that take something.
* `toEnd_agree` compares two readers of one stream item by item.
-/

/-- A reader gives back what it read and the bytes it left. -/
abbrev Reader (ε α : Type) := List UInt8 → Except ε (α × List UInt8)

namespace Reader

variable {ε α β : Type}

/-- The bytes `pre` read as `a`, whatever follows them. -/
def Reads (r : Reader ε α) (pre : List UInt8) (a : α) : Prop :=
  ∀ tail, r (pre ++ tail) = .ok (a, tail)

/-- A reader that depends on nothing but the bytes it takes. -/
def Local (r : Reader ε α) : Prop :=
  ∀ data a rest, r data = .ok (a, rest) → ∃ pre, data = pre ++ rest ∧ Reads r pre a

/-! ### Putting readers together -/

/-- One reader after another. -/
def andThen (r : Reader ε α) (f : α → Reader ε β) : Reader ε β := fun data =>
  r data >>= fun x => f x.1 x.2

/-- Nothing is read. -/
def done (a : α) : Reader ε α := fun data => .ok (a, data)

/-- The next `len` bytes, or `e` when there are fewer. -/
def bytes (e : ε) (len : Nat) : Reader ε (List UInt8) := fun data =>
  if data.length < len then .error e else .ok (data.take len, data.drop len)

/-- `count` items, one after another. -/
def many (item : Reader ε α) : Nat → Reader ε (List α)
  | 0 => done []
  | count + 1 => andThen item fun a => andThen (many item count) fun as => done (a :: as)

/-- Two items. -/
def pair (first : Reader ε α) (second : Reader ε β) : Reader ε (α × β) :=
  andThen first fun a => andThen second fun b => done (a, b)

theorem andThen_eq_ok {r : Reader ε α} {f : α → Reader ε β} {data rest : List UInt8} {b : β} :
    andThen r f data = .ok (b, rest) ↔
      ∃ a mid, r data = .ok (a, mid) ∧ f a mid = .ok (b, rest) := by
  simp only [andThen, Checks.bind_eq_ok, Prod.exists]

theorem andThen_of_ok {r : Reader ε α} {f : α → Reader ε β} {data mid : List UInt8} {a : α}
    (h : r data = .ok (a, mid)) : andThen r f data = f a mid := by
  rw [andThen, h]
  rfl

theorem andThen_of_error {r : Reader ε α} {f : α → Reader ε β} {data : List UInt8} {e : ε}
    (h : r data = .error e) : andThen r f data = .error e := by
  rw [andThen, h]
  rfl

/-! ### Reading back what was put there -/

theorem reads_done (a : α) : Reads (done a : Reader ε α) [] a := fun _ => rfl

theorem Reads.andThen {r : Reader ε α} {f : α → Reader ε β} {pre pre' : List UInt8} {a : α} {b : β}
    (h : Reads r pre a) (h' : Reads (f a) pre' b) : Reads (andThen r f) (pre ++ pre') b := by
  intro tail
  rw [List.append_assoc]
  exact andThen_eq_ok.mpr ⟨a, pre' ++ tail, h _, h' tail⟩

theorem bytes_eq_ok {e : ε} {len : Nat} {data b rest : List UInt8} :
    bytes e len data = .ok (b, rest) ↔ b.length = len ∧ data = b ++ rest := by
  unfold bytes
  split
  · rename_i hshort
    constructor
    · intro h
      cases h
    · rintro ⟨rfl, rfl⟩
      rw [List.length_append] at hshort
      omega
  · rename_i hlen
    rw [Except.ok.injEq, Prod.mk.injEq]
    constructor
    · rintro ⟨rfl, rfl⟩
      exact ⟨List.length_take_of_le (Nat.le_of_not_lt hlen), (List.take_append_drop len data).symm⟩
    · rintro ⟨rfl, rfl⟩
      exact ⟨List.take_left, List.drop_left⟩

theorem reads_bytes (e : ε) (data : List UInt8) : Reads (bytes e data.length) data data :=
  fun _ => bytes_eq_ok.mpr ⟨rfl, rfl⟩

/-- A reader whose result is made into something else. -/
theorem Reads.map {r : Reader ε α} {pre : List UInt8} {a : α} (h : Reads r pre a) (f : α → β) :
    Reads (Reader.andThen r fun a => done (f a)) pre (f a) := by
  have hdone := h.andThen (f := fun a => done (f a)) (reads_done (f a))
  rwa [List.append_nil] at hdone

theorem Reads.pair {first : Reader ε α} {second : Reader ε β} {pre pre' : List UInt8} {a : α}
    {b : β} (h : Reads first pre a) (h' : Reads second pre' b) :
    Reads (pair first second) (pre ++ pre') (a, b) :=
  h.andThen (f := fun a => Reader.andThen second fun b => done (a, b)) (h'.map fun b => (a, b))

theorem reads_many {item : Reader ε α} {as : List α} {pres : List (List UInt8)}
    (h : List.Forall₂ (fun a pre => Reads item pre a) as pres) :
    Reads (many item as.length) pres.flatten as := by
  induction h with
  | nil => exact reads_done []
  | @cons a pre as pres hitem _ ih =>
      exact hitem.andThen (f := fun a => andThen (many item as.length) fun as => done (a :: as))
        (ih.map fun as => a :: as)

/-! ### Locality -/

theorem local_done (a : α) : Local (done a : Reader ε α) := by
  intro data a' rest h
  obtain ⟨rfl, rfl⟩ := Prod.mk.inj (Except.ok.inj h)
  exact ⟨[], rfl, reads_done a⟩

theorem local_error (e : ε) : Local (fun _ => .error e : Reader ε α) := by
  intro data a rest h
  cases h

theorem local_bytes (e : ε) (len : Nat) : Local (bytes e len) := by
  intro data b rest h
  obtain ⟨rfl, rfl⟩ := bytes_eq_ok.mp h
  exact ⟨b, rfl, reads_bytes e b⟩

theorem Local.andThen {r : Reader ε α} {f : α → Reader ε β} (hr : Local r)
    (hf : ∀ a, Local (f a)) : Local (andThen r f) := by
  intro data b rest h
  obtain ⟨a, mid, hfirst, hnext⟩ := andThen_eq_ok.mp h
  obtain ⟨pre, rfl, hpre⟩ := hr data a mid hfirst
  obtain ⟨pre', rfl, hpre'⟩ := hf a mid b rest hnext
  exact ⟨pre ++ pre', (List.append_assoc _ _ _).symm, hpre.andThen hpre'⟩

theorem Local.many {item : Reader ε α} (h : Local item) (count : Nat) :
    Local (many item count) := by
  induction count with
  | zero => exact local_done []
  | succ count ih => exact h.andThen fun a => ih.andThen fun as => local_done (a :: as)

theorem Local.pair {first : Reader ε α} {second : Reader ε β} (h : Local first)
    (h' : Local second) : Local (pair first second) :=
  h.andThen fun a => h'.andThen fun b => local_done (a, b)

theorem Local.ite {c : Prop} [Decidable c] {r r' : Reader ε α} (h : Local r) (h' : Local r') :
    Local (if c then r else r') := by
  split
  · exact h
  · exact h'

theorem length_of_many {item : Reader ε α} {count : Nat} {data rest : List UInt8} {as : List α}
    (h : many item count data = .ok (as, rest)) : as.length = count := by
  induction count generalizing data rest as with
  | zero =>
      obtain ⟨rfl, -⟩ := Prod.mk.inj (Except.ok.inj h)
      rfl
  | succ count ih =>
      obtain ⟨a, mid, -, h⟩ := andThen_eq_ok.mp h
      obtain ⟨as', mid', hmany, h⟩ := andThen_eq_ok.mp h
      obtain ⟨rfl, -⟩ := Prod.mk.inj (Except.ok.inj h)
      rw [List.length_cons, ih hmany]

/-- What holds of each item read holds of all of them. -/
theorem forall_of_many {item : Reader ε α} {Q : α → Prop}
    (hitem : ∀ data a rest, item data = .ok (a, rest) → Q a) {count : Nat}
    {data rest : List UInt8} {as : List α} (h : many item count data = .ok (as, rest)) :
    ∀ a ∈ as, Q a := by
  induction count generalizing data rest as with
  | zero =>
      obtain ⟨rfl, -⟩ := Prod.mk.inj (Except.ok.inj h)
      exact fun a ha => (List.not_mem_nil ha).elim
  | succ count ih =>
      obtain ⟨a, mid, hfirst, h⟩ := andThen_eq_ok.mp h
      obtain ⟨as', mid', hmany, h⟩ := andThen_eq_ok.mp h
      obtain ⟨rfl, -⟩ := Prod.mk.inj (Except.ok.inj h)
      rw [List.forall_mem_cons]
      exact ⟨hitem _ _ _ hfirst, ih hmany⟩

/-- Two items that take the same bytes take the same bytes however often. -/
theorem many_agree {item : Reader ε α} {item' : Reader ε β} {P : List UInt8 → Prop}
    (hitem : ∀ data a rest, P data → item data = .ok (a, rest) →
      P rest ∧ ∃ b, item' data = .ok (b, rest))
    {count : Nat} {data rest : List UInt8} {as : List α} (hdata : P data)
    (h : many item count data = .ok (as, rest)) :
    ∃ bs, many item' count data = .ok (bs, rest) := by
  induction count generalizing data rest as with
  | zero =>
      obtain ⟨-, rfl⟩ := Prod.mk.inj (Except.ok.inj h)
      exact ⟨[], rfl⟩
  | succ count ih =>
      obtain ⟨a, mid, hfirst, h⟩ := andThen_eq_ok.mp h
      obtain ⟨as', mid', hmany, h⟩ := andThen_eq_ok.mp h
      obtain ⟨-, rfl⟩ := Prod.mk.inj (Except.ok.inj h)
      obtain ⟨hmid, b, hb⟩ := hitem _ _ _ hdata hfirst
      obtain ⟨bs, hbs⟩ := ih hmid hmany
      exact ⟨b :: bs, andThen_eq_ok.mpr ⟨b, mid, hb, andThen_eq_ok.mpr ⟨bs, _, hbs, rfl⟩⟩⟩

/-- Pairs are twice as many items. -/
theorem many_of_pairs {item : Reader ε α} {count : Nat} {data rest : List UInt8}
    {pairs : List (α × α)} (h : many (pair item item) count data = .ok (pairs, rest)) :
    many item (count * 2) data = .ok (pairs.flatMap fun p => [p.1, p.2], rest) := by
  induction count generalizing data rest pairs with
  | zero =>
      obtain ⟨rfl, rfl⟩ := Prod.mk.inj (Except.ok.inj h)
      rfl
  | succ count ih =>
      obtain ⟨⟨a, b⟩, mid, hpair, h⟩ := andThen_eq_ok.mp h
      obtain ⟨a', mid₁, ha, hpair⟩ := andThen_eq_ok.mp hpair
      obtain ⟨b', mid₂, hb, hpair⟩ := andThen_eq_ok.mp hpair
      obtain ⟨hab, rfl⟩ := Prod.mk.inj (Except.ok.inj hpair)
      obtain ⟨rfl, rfl⟩ := Prod.mk.inj hab
      obtain ⟨pairs', mid₃, hmany, h⟩ := andThen_eq_ok.mp h
      obtain ⟨rfl, rfl⟩ := Prod.mk.inj (Except.ok.inj h)
      have htwo : many item (count * 2 + 1) mid₁ =
          .ok (b' :: pairs'.flatMap fun p => [p.1, p.2], mid₃) :=
        andThen_eq_ok.mpr ⟨b', _, hb, andThen_eq_ok.mpr ⟨_, _, ih hmany, rfl⟩⟩
      rw [Nat.succ_mul]
      exact andThen_eq_ok.mpr ⟨a', _, ha, andThen_eq_ok.mpr ⟨_, _, htwo, rfl⟩⟩

/-- Two readers that agree wherever a third gets through, and that leave what it leaves,
agree on as many items as it gets through. -/
theorem many_congr {ε' : Type} {item item' : Reader ε α} {skip : Reader ε' β} {P : List UInt8 → Prop}
    (hitem : ∀ data b rest, P data → skip data = .ok (b, rest) →
      item data = item' data ∧ ∀ a rest', item data = .ok (a, rest') → rest' = rest ∧ P rest)
    {count : Nat} {data rest : List UInt8} {bs : List β} (hdata : P data)
    (h : many skip count data = .ok (bs, rest)) : many item count data = many item' count data := by
  induction count generalizing data rest bs with
  | zero => rfl
  | succ count ih =>
      obtain ⟨b, mid, hskip, h⟩ := andThen_eq_ok.mp h
      obtain ⟨bs', mid', hmany, -⟩ := andThen_eq_ok.mp h
      obtain ⟨hagree, hrest⟩ := hitem data b mid hdata hskip
      rw [many, many]
      cases hread : item data with
      | error e => rw [andThen_of_error hread, andThen_of_error (hagree.symm.trans hread)]
      | ok x =>
          obtain ⟨a, after⟩ := x
          obtain ⟨rfl, hafter⟩ := hrest a after hread
          rw [andThen_of_ok hread, andThen_of_ok (hagree.symm.trans hread)]
          exact congrArg (fun r => r >>= _) (ih hafter hmany)

/-- Twice as many items are pairs. -/
theorem pairs_of_many {item : Reader ε α} {count : Nat} {data rest : List UInt8} {as : List α}
    (h : many item (count * 2) data = .ok (as, rest)) :
    ∃ pairs, many (pair item item) count data = .ok (pairs, rest) := by
  induction count generalizing data as with
  | zero =>
      obtain ⟨-, rfl⟩ := Prod.mk.inj (Except.ok.inj h)
      exact ⟨[], rfl⟩
  | succ count ih =>
      rw [Nat.succ_mul] at h
      obtain ⟨a, mid, ha, h⟩ := andThen_eq_ok.mp h
      obtain ⟨as', mid', htwo, h⟩ := andThen_eq_ok.mp h
      obtain ⟨-, rfl⟩ := Prod.mk.inj (Except.ok.inj h)
      obtain ⟨b, mid₂, hb, htwo⟩ := andThen_eq_ok.mp htwo
      obtain ⟨as₂, mid₃, hmany, htwo⟩ := andThen_eq_ok.mp htwo
      obtain ⟨-, rfl⟩ := Prod.mk.inj (Except.ok.inj htwo)
      obtain ⟨pairs, hpairs⟩ := ih hmany
      exact ⟨(a, b) :: pairs, andThen_eq_ok.mpr ⟨(a, b), mid₂,
        andThen_eq_ok.mpr ⟨a, mid, ha, andThen_eq_ok.mpr ⟨b, mid₂, hb, rfl⟩⟩,
        andThen_eq_ok.mpr ⟨pairs, mid₃, hpairs, rfl⟩⟩⟩

/-- Items whose bytes are known are read from them, and from nothing else. -/
theorem many_eq_ok_iff {item : Reader ε α} {bytesOf : β → List UInt8} {D : β → α → Prop}
    {P : List UInt8 → Prop} (hP : ∀ pre tail, P (pre ++ tail) → P tail) {bs : List β}
    (hitem : ∀ b ∈ bs, ∀ tail a mid, P (bytesOf b ++ tail) →
      (item (bytesOf b ++ tail) = .ok (a, mid) ↔ mid = tail ∧ D b a))
    {rest rest' : List UInt8} {as : List α} (hdata : P ((bs.map bytesOf).flatten ++ rest)) :
    many item bs.length ((bs.map bytesOf).flatten ++ rest) = .ok (as, rest') ↔
      rest' = rest ∧ List.Forall₂ D bs as := by
  induction bs generalizing as with
  | nil =>
      constructor
      · intro h
        obtain ⟨rfl, rfl⟩ := Prod.mk.inj (Except.ok.inj h)
        exact ⟨rfl, .nil⟩
      · rintro ⟨rfl, hall⟩
        rw [List.forall₂_nil_left_iff.mp hall]
        rfl
  | cons b bs ih =>
      rw [List.map_cons, List.flatten_cons, List.append_assoc] at hdata ⊢
      have hhead := hitem b List.mem_cons_self ((bs.map bytesOf).flatten ++ rest)
      have htail {as : List α} :
          many item bs.length ((bs.map bytesOf).flatten ++ rest) = .ok (as, rest') ↔
            rest' = rest ∧ List.Forall₂ D bs as :=
        ih (fun b' hb' => hitem b' (List.mem_cons_of_mem b hb')) (hP _ _ hdata)
      rw [List.length_cons, many]
      constructor
      · intro h
        obtain ⟨a, mid, hfirst, h⟩ := andThen_eq_ok.mp h
        obtain ⟨as', mid', hmany, h⟩ := andThen_eq_ok.mp h
        obtain ⟨rfl, rfl⟩ := Prod.mk.inj (Except.ok.inj h)
        obtain ⟨rfl, hD⟩ := (hhead a mid hdata).mp hfirst
        obtain ⟨rfl, hall⟩ := htail.mp hmany
        exact ⟨rfl, .cons hD hall⟩
      · rintro ⟨rfl, hall⟩
        obtain ⟨a, as', hD, hall', rfl⟩ := List.forall₂_cons_left_iff.mp hall
        exact andThen_eq_ok.mpr ⟨a, _, (hhead a _ hdata).mpr ⟨rfl, hD⟩,
          andThen_eq_ok.mpr ⟨as', _, htail.mpr ⟨rfl, hall'⟩, rfl⟩⟩

/-- When every item pays for itself in bytes, so does a run of them. -/
theorem cost_of_many {item : Reader ε α} {cost : α → Nat}
    (hitem : ∀ data a rest, item data = .ok (a, rest) → cost a + rest.length ≤ data.length)
    {count : Nat} {data rest : List UInt8} {as : List α}
    (h : many item count data = .ok (as, rest)) :
    (as.map cost).sum + rest.length ≤ data.length := by
  induction count generalizing data rest as with
  | zero =>
      obtain ⟨rfl, rfl⟩ := Prod.mk.inj (Except.ok.inj h)
      simp
  | succ count ih =>
      obtain ⟨a, mid, hfirst, h⟩ := andThen_eq_ok.mp h
      obtain ⟨as', mid', hmany, h⟩ := andThen_eq_ok.mp h
      obtain ⟨rfl, rfl⟩ := Prod.mk.inj (Except.ok.inj h)
      have hpaid := hitem _ _ _ hfirst
      have hrest := ih hmany
      rw [List.map_cons, List.sum_cons]
      omega

/-! ### To the end of the input -/

/-- Items until nothing is left, at most `fuel` of them. -/
def toEnd (e : ε) (item : Reader ε α) : Nat → List UInt8 → Except ε (List α)
  | _, [] => .ok []
  | 0, _ :: _ => .error e
  | fuel + 1, b :: data => do
      let (a, rest) ← item (b :: data)
      return a :: (← toEnd e item fuel rest)

/-- What each item reads, put together, reads as all of them. -/
theorem toEnd_flatten {e : ε} {item : Reader ε α} {pres : List (List UInt8)} {as : List α}
    (h : List.Forall₂ (fun pre a => pre ≠ [] ∧ Reads item pre a) pres as) :
    ∀ fuel, pres.flatten.length ≤ fuel → toEnd e item fuel pres.flatten = .ok as := by
  induction h with
  | nil =>
      intro fuel _
      cases fuel <;> rfl
  | @cons pre a pres as hhead _ ih =>
      intro fuel hfuel
      obtain ⟨hne, hreads⟩ := hhead
      obtain ⟨b, data, rfl⟩ := List.exists_cons_of_ne_nil hne
      rw [List.flatten_cons] at hfuel ⊢
      cases fuel with
      | zero => cases hfuel
      | succ fuel =>
          have hrest : pres.flatten.length ≤ fuel := by
            simp only [List.length_append, List.length_cons] at hfuel
            omega
          have hitem := hreads pres.flatten
          rw [List.cons_append] at hitem ⊢
          rw [toEnd, hitem]
          simp only [bind, Except.bind, ih fuel hrest]
          rfl

/-- Items that take something come to the end of the input: any fuel that is as long as the
input gives the same. -/
theorem toEnd_fuel {e : ε} {item : Reader ε α}
    (hitem : ∀ data a rest, item data = .ok (a, rest) → rest.length < data.length)
    {fuel fuel' : Nat} {data : List UInt8} (hfuel : data.length ≤ fuel)
    (hfuel' : data.length ≤ fuel') : toEnd e item fuel data = toEnd e item fuel' data := by
  induction fuel generalizing fuel' data with
  | zero =>
      obtain rfl := List.eq_nil_of_length_eq_zero (Nat.le_zero.mp hfuel)
      rw [toEnd, toEnd]
  | succ fuel ih =>
      rcases data with _ | ⟨b, data⟩
      · rw [toEnd, toEnd]
      obtain ⟨fuel', rfl⟩ := Nat.exists_eq_add_of_le' (Nat.le_trans (Nat.succ_pos _) hfuel')
      rw [toEnd, toEnd]
      refine Checks.bind_congr_ok ?_
      rintro ⟨a, rest⟩ hx
      have hless := hitem _ a rest hx
      rw [List.length_cons] at hless hfuel hfuel'
      dsimp only
      rw [ih (by omega : rest.length ≤ fuel) (by omega : rest.length ≤ fuel')]

/-- A second reader that takes the same bytes wherever the first one does, item by item. -/
theorem toEnd_agree {e : ε} {item : Reader ε α} {item' : Reader ε β} {Q : β → α → Prop}
    (hitem : ∀ data a rest, item data = .ok (a, rest) →
      ∃ b, item' data = .ok (b, rest) ∧ Q b a)
    {fuel : Nat} {data : List UInt8} {as : List α} (h : toEnd e item fuel data = .ok as) :
    ∃ bs, toEnd e item' fuel data = .ok bs ∧ List.Forall₂ Q bs as := by
  induction fuel generalizing data as with
  | zero =>
      cases data with
      | nil =>
          cases h
          exact ⟨[], rfl, .nil⟩
      | cons b data => cases h
  | succ fuel ih =>
      cases data with
      | nil =>
          cases h
          exact ⟨[], rfl, .nil⟩
      | cons b data =>
          obtain ⟨⟨a, rest⟩, hfirst, h⟩ := Checks.bind_eq_ok.mp h
          obtain ⟨as', hrest, h⟩ := Checks.bind_eq_ok.mp h
          cases h
          obtain ⟨b', hfirst', hQ⟩ := hitem _ a rest hfirst
          obtain ⟨bs, hrest', hall⟩ := ih hrest
          refine ⟨b' :: bs, ?_, .cons hQ hall⟩
          rw [toEnd, hfirst', Checks.ok_bind]
          dsimp only
          rw [hrest']
          rfl

/-! ### Readers that undo a writer -/

/-- A reader that reads what is written of an allowed value, and nothing else. The second half makes
the written form the only one that is accepted. -/
structure Inverts (r : Reader ε α) (write : α → List UInt8) (P : α → Prop) : Prop where
  reads : ∀ a, P a → Reads r (write a) a
  only : ∀ data a rest, r data = .ok (a, rest) → P a ∧ data = write a ++ rest

/-- To the end of the input it reads what is written of allowed values, one after another. -/
theorem Inverts.toEnd_eq_ok_iff {e : ε} {item : Reader ε α} {write : α → List UInt8} {P : α → Prop}
    (h : Inverts item write P) (hne : ∀ a, write a ≠ []) {fuel : Nat} {data : List UInt8}
    {as : List α} (hfuel : data.length ≤ fuel) :
    toEnd e item fuel data = .ok as ↔ (∀ a ∈ as, P a) ∧ data = as.flatMap write := by
  constructor
  · intro hread
    clear hfuel
    induction fuel generalizing data as with
    | zero =>
        cases data with
        | nil =>
            obtain rfl := Except.ok.inj hread
            exact ⟨fun a ha => absurd ha List.not_mem_nil, rfl⟩
        | cons b data => cases hread
    | succ fuel ih =>
        cases data with
        | nil =>
            obtain rfl := Except.ok.inj hread
            exact ⟨fun a ha => absurd ha List.not_mem_nil, rfl⟩
        | cons b data =>
            obtain ⟨⟨a, rest⟩, hitem, hrest⟩ := Checks.bind_eq_ok.mp hread
            obtain ⟨as', htail, hdone⟩ := Checks.bind_eq_ok.mp hrest
            obtain rfl := Except.ok.inj hdone
            obtain ⟨ha, hdata⟩ := h.only _ _ _ hitem
            obtain ⟨has, rfl⟩ := ih htail
            refine ⟨List.forall_mem_cons.mpr ⟨ha, has⟩, ?_⟩
            rw [hdata, List.flatMap_cons]
  · rintro ⟨has, rfl⟩
    rw [List.flatMap_def] at hfuel ⊢
    refine toEnd_flatten ?_ fuel hfuel
    rw [List.forall₂_map_left_iff]
    exact List.forall₂_same.mpr fun a ha => ⟨hne a, h.reads a (has a ha)⟩

end Reader
