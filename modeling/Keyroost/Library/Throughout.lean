import Keyroost.Library.Dialogue

/-!
# Programs that may be cut off between questions

What holds of the device at every point of a conversation, also of one that never ends. `Cut` is a
conversation up to some point; `Throughout` says that an invariant holds at each of its points and a
postcondition at its end, and is proved along the program like `Always` of `Dialogue`.

`Throughout.cut` and `Throughout.runs` read the two parts off again.
-/

namespace Dialogue

variable {Q : Type} {A : Q → Type} {R S σ : Type} {D : Device A σ} {J : σ → Prop}

/-- The states a conversation may be cut off in: any that it passes through, its first and its last
ones too. -/
inductive Cut (D : Device A σ) : σ → Dialogue A R → σ → Prop
  | here {s : σ} {p : Dialogue A R} : Cut D s p s
  | ask {s t u : σ} {q : Q} {a : A q} {next : A q → Dialogue A R} (hstep : D s q a t)
      (hrest : Cut D t (next a) u) : Cut D s (.ask q next) u

/-! One question more, of a program that comes to it. -/

theorem Runs.asked {p : Dialogue A R} {s t u : σ} {q : Q} {a : A q} {next : A q → Dialogue A R}
    {log : List (Asked A)} {r : R} (hp : p = .ask q next) (hstep : D s q a t)
    (hrest : Runs D t (next a) log r u) : Runs D s p (⟨q, a⟩ :: log) r u := by
  rw [hp]
  exact .ask hstep hrest

theorem Cut.asked {p : Dialogue A R} {s t u : σ} {q : Q} {a : A q} {next : A q → Dialogue A R}
    (hp : p = .ask q next) (hstep : D s q a t) (hrest : Cut D t (next a) u) : Cut D s p u := by
  rw [hp]
  exact .ask hstep hrest

/-- Every state from this one on satisfies `J`, and every result with its state `Post`. -/
def Throughout (D : Device A σ) (J : σ → Prop) (Post : R → σ → Prop) :
    Dialogue A R → σ → Prop
  | .done r, s => J s ∧ Post r s
  | .ask q next, s => J s ∧ ∀ a t, D s q a t → (next a).Throughout D J Post t

namespace Throughout

variable {Post Post' : R → σ → Prop} {p : Dialogue A R} {s t u : σ}

theorem here (h : p.Throughout D J Post s) : J s := by
  cases p with
  | done r => exact h.1
  | ask q next => exact h.1

theorem cut (h : p.Throughout D J Post s) (hcut : Cut D s p u) : J u := by
  induction hcut with
  | here => exact h.here
  | ask hstep _ ih => exact ih (h.2 _ _ hstep)

theorem runs (h : p.Throughout D J Post s) {log : List (Asked A)} {r : R}
    (hrun : Runs D s p log r t) : Post r t := by
  induction hrun with
  | done => exact h.2
  | ask hstep _ ih => exact ih (h.2 _ _ hstep)

theorem mono (h : p.Throughout D J Post s) (hpost : ∀ r t, J t → Post r t → Post' r t) :
    p.Throughout D J Post' s := by
  induction p generalizing s with
  | done r => exact ⟨h.1, hpost r s h.1 h.2⟩
  | ask q next ih => exact ⟨h.1, fun a t hstep => ih a (h.2 a t hstep)⟩

/-- One program and then another. -/
theorem bind {f : R → Dialogue A S} {Post : S → σ → Prop}
    (h : p.Throughout D J (fun r t => (f r).Throughout D J Post t) s) :
    (p >>= f).Throughout D J Post s := by
  induction p generalizing s with
  | done r => exact h.2
  | ask q next ih => exact ⟨h.1, fun a t hstep => ih a (h.2 a t hstep)⟩

theorem query {q : Q} {Post : A q → σ → Prop} (hs : J s)
    (hstep : ∀ a t, D s q a t → J t ∧ Post a t) : (Dialogue.query q).Throughout D J Post s :=
  ⟨hs, hstep⟩

end Throughout

end Dialogue
