import Mathlib.Data.List.Forall2

/-!
# One pass with a carried state

`pass step s items` makes one output of each input, from left to right, with a state carried along:
the shape of every loop that fills a result vector beside its own variables.

Two rules derive facts about a whole pass from facts about one turn: `forall₂_pass` relates each
input to its output, `pairwise_pass` relates each output to all the earlier ones through what the
state remembers of them. The rest is about lists that are related element by element, and about
finding an element of one beside its partner in the other.
-/

namespace Pass

variable {α β γ σ : Type*}

/-- One output for each input, from left to right. -/
def pass (step : σ → α → β × σ) : σ → List α → List β
  | _, [] => []
  | s, a :: items => (step s a).1 :: pass step (step s a).2 items

@[simp] theorem pass_nil (step : σ → α → β × σ) (s : σ) : pass step s [] = [] := rfl

@[simp] theorem pass_cons (step : σ → α → β × σ) (s : σ) (a : α) (items : List α) :
    pass step s (a :: items) = (step s a).1 :: pass step (step s a).2 items := rfl

@[simp] theorem length_pass (step : σ → α → β × σ) (s : σ) (items : List α) :
    (pass step s items).length = items.length := by
  induction items generalizing s with
  | nil => rfl
  | cons a items ih => simp [ih]

/-! ### The rules -/

/-- What an invariant of the state gives for each input and its output. -/
theorem forall₂_pass {step : σ → α → β × σ} (Inv : σ → Prop) {R : α → β → Prop}
    (hstep : ∀ s a, Inv s → R a (step s a).1 ∧ Inv (step s a).2) {s : σ} (hinv : Inv s)
    (items : List α) : List.Forall₂ R items (pass step s items) := by
  induction items generalizing s with
  | nil => exact .nil
  | cons a items ih =>
      obtain ⟨hout, hnext⟩ := hstep s a hinv
      exact .cons hout (ih hnext)

/-- What the state remembers of an output holds of it against every later one. -/
theorem rel_pass {step : σ → α → β × σ} {Inv : σ → Prop} {Past : σ → β → Prop}
    {R : β → β → Prop} (hinv : ∀ s a, Inv s → Inv (step s a).2)
    (hkeep : ∀ s a b, Inv s → Past s b → Past (step s a).2 b)
    (hrel : ∀ s a b, Inv s → Past s b → R b (step s a).1) {s : σ} {b : β} (hs : Inv s)
    (hpast : Past s b) (items : List α) : ∀ later ∈ pass step s items, R b later := by
  induction items generalizing s with
  | nil => simp
  | cons a items ih =>
      intro later hlater
      rcases List.mem_cons.mp hlater with rfl | htail
      · exact hrel s a b hs hpast
      · exact ih (hinv s a hs) (hkeep s a b hs hpast) later htail

/-- Every output against every later one, through what the state remembers. -/
theorem pairwise_pass {step : σ → α → β × σ} (Inv : σ → Prop) (Past : σ → β → Prop)
    {R : β → β → Prop} (hinv : ∀ s a, Inv s → Inv (step s a).2)
    (hnew : ∀ s a, Inv s → Past (step s a).2 (step s a).1)
    (hkeep : ∀ s a b, Inv s → Past s b → Past (step s a).2 b)
    (hrel : ∀ s a b, Inv s → Past s b → R b (step s a).1) {s : σ} (hs : Inv s) (items : List α) :
    (pass step s items).Pairwise R := by
  induction items generalizing s with
  | nil => exact .nil
  | cons a items ih =>
      exact .cons (rel_pass hinv hkeep hrel (hinv s a hs) (hnew s a hs) items) (ih (hinv s a hs))

/-- The pass over what comes after some first inputs starts from the state these
leave. -/
def after (step : σ → α → β × σ) (s : σ) (items : List α) : σ :=
  items.foldl (fun s a => (step s a).2) s

@[simp] theorem after_nil (step : σ → α → β × σ) (s : σ) : after step s [] = s := rfl

@[simp] theorem after_cons (step : σ → α → β × σ) (s : σ) (a : α) (items : List α) :
    after step s (a :: items) = after step (step s a).2 items := rfl

theorem pass_append (step : σ → α → β × σ) (s : σ) (items more : List α) :
    pass step s (items ++ more) = pass step s items ++ pass step (after step s items) more := by
  induction items generalizing s with
  | nil => rfl
  | cons a items ih => simp [ih]

theorem after_append (step : σ → α → β × σ) (s : σ) (items more : List α) :
    after step s (items ++ more) = after step (after step s items) more := by
  simp [after]

/-! ### Lists related element by element -/

/-- Elements at the same position are related. -/
theorem rel_at {T : α → β → Prop} {l l' : List α} {m m' : List β} {a : α} {b : β}
    (hlen : l.length = m.length) (h : List.Forall₂ T (l ++ a :: l') (m ++ b :: m')) : T a b := by
  induction l generalizing m with
  | nil =>
      obtain rfl : m = [] := List.eq_nil_of_length_eq_zero hlen.symm
      cases h with
      | cons hab _ => exact hab
  | cons c l ih =>
      cases m with
      | nil => simp at hlen
      | cons d m =>
          cases h with
          | cons _ hrest => exact ih (by simpa using hlen) hrest

/-- What stands opposite an element of the first list. -/
theorem exists_at {T : α → β → Prop} {l l' : List α} {a : α} {n : List β}
    (h : List.Forall₂ T (l ++ a :: l') n) :
    ∃ m b m', n = m ++ b :: m' ∧ l.length = m.length ∧ T a b := by
  induction l generalizing n with
  | nil =>
      cases h with
      | @cons _ b _ m' hab _ => exact ⟨[], b, m', rfl, rfl, hab⟩
  | cons c l ih =>
      cases h with
      | @cons _ d _ n _ hrest =>
          obtain ⟨m, b, m', rfl, hlen, hab⟩ := ih hrest
          exact ⟨d :: m, b, m', rfl, by simpa using hlen, hab⟩

theorem forall₂_imp_mem {T S : α → β → Prop} {l : List α} {m : List β}
    (hrel : ∀ a ∈ l, ∀ b, T a b → S a b) (h : List.Forall₂ T l m) : List.Forall₂ S l m := by
  induction h with
  | nil => exact .nil
  | @cons a b l m hab _ ih =>
      exact .cons (hrel a List.mem_cons_self b hab)
        (ih fun a' ha' => hrel a' (List.mem_cons_of_mem a ha'))

/-- A list is pairwise related if each element is related to what stands before
it. -/
theorem pairwise_of_splits {R : α → α → Prop} {l : List α}
    (h : ∀ before a after, l = before ++ a :: after → ∀ b ∈ before, R b a) : l.Pairwise R := by
  induction l with
  | nil => exact .nil
  | cons b l ih =>
      refine .cons (fun a ha => ?_) (ih fun before a after hl c hc => ?_)
      · obtain ⟨before, after, rfl⟩ := List.append_of_mem ha
        exact h (b :: before) a after rfl b List.mem_cons_self
      · exact h (b :: before) a after (by rw [hl]; rfl) c (List.mem_cons_of_mem b hc)

theorem rel_of_getElem? {R : α → α → Prop} {l : List α} (hl : l.Pairwise R) {i j : Nat}
    {a b : α} (ha : l[i]? = some a) (hb : l[j]? = some b) (hij : i < j) : R a b := by
  obtain ⟨hi, rfl⟩ := List.getElem?_eq_some_iff.mp ha
  obtain ⟨hj, rfl⟩ := List.getElem?_eq_some_iff.mp hb
  exact List.pairwise_iff_getElem.mp hl i j hi hj hij

/-- Two lists of one length, taken apart where their pairs are. -/
theorem zip_split {l : List α} {m : List β} (hlen : l.length = m.length)
    {before after : List (α × β)} {a : α} {b : β} (hzip : l.zip m = before ++ (a, b) :: after) :
    l = before.map (·.1) ++ a :: after.map (·.1) ∧
      m = before.map (·.2) ++ b :: after.map (·.2) := by
  constructor
  · rw [← @List.map_fst_zip _ _ l m (Nat.le_of_eq hlen), hzip, List.map_append, List.map_cons]
  · rw [← @List.map_snd_zip _ _ l m (Nat.le_of_eq hlen.symm), hzip, List.map_append, List.map_cons]

theorem exists_of_mem_right {T : α → β → Prop} {l : List α} {m : List β}
    (hlm : List.Forall₂ T l m) {b : β} (hb : b ∈ m) : ∃ a ∈ l, T a b := by
  induction hlm with
  | nil => simp at hb
  | @cons a c l m hac _ ih =>
      rcases List.mem_cons.mp hb with rfl | htail
      · exact ⟨a, List.mem_cons_self, hac⟩
      · obtain ⟨a', ha', hab'⟩ := ih htail
        exact ⟨a', List.mem_cons_of_mem a ha', hab'⟩

theorem exists_of_mem_left {T : α → β → Prop} {l : List α} {m : List β}
    (hlm : List.Forall₂ T l m) {a : α} (ha : a ∈ l) : ∃ b ∈ m, T a b :=
  exists_of_mem_right hlm.flip ha

theorem forall₂_comp {R : α → β → Prop} {T : β → γ → Prop} {S : α → γ → Prop}
    (hrel : ∀ a b c, R a b → T b c → S a c) {l : List α} {m : List β} {k : List γ}
    (hlm : List.Forall₂ R l m) (hmk : List.Forall₂ T m k) : List.Forall₂ S l k := by
  induction hlm generalizing k with
  | nil =>
      cases hmk
      exact .nil
  | cons hab _ ih =>
      cases hmk with
      | cons hbc hrest => exact .cons (hrel _ _ _ hab hbc) (ih hrest)

/-- A pairwise relation carries over to outputs that are related one by one. -/
theorem pairwise_of_forall₂ {T : α → β → Prop} {R : α → α → Prop} {S : β → β → Prop}
    (hrel : ∀ a a' b b', R a a' → T a b → T a' b' → S b b') {l : List α} {m : List β}
    (hl : l.Pairwise R) (hlm : List.Forall₂ T l m) : m.Pairwise S := by
  induction hlm with
  | nil => exact .nil
  | @cons a b l m hab hlm ih =>
      rw [List.pairwise_cons] at hl
      refine .cons (fun b' hb' => ?_) (ih hl.2)
      obtain ⟨a', ha', hab'⟩ := exists_of_mem_right hlm hb'
      exact hrel a a' b b' (hl.1 a' ha') hab hab'

end Pass
