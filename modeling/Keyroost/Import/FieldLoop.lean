import Keyroost.Import.Migration
import Keyroost.Library.Checks
import Keyroost.Library.Sim

/-!
# The field loop

Both readers of an export (`keyroost-import/src/migration.rs`) run over the fields of a protobuf
payload and over those of each of its accounts. `fieldLoop` is that loop, once, with the body as a
parameter; the source writes it out four times as `while let`.

The loop is given fuel, and `fieldLoop_enough` says that the length of the message is always
enough: a field takes at least its key's byte, so the model never stops where the source would go
on. `fieldLoop_keeps` carries an invariant through a message, and `sim_fieldLoop` runs two loops
over one message: if their bodies agree on every field, the loops agree on the whole.
-/

namespace Keyroost.Import.Migration

open Keyroost.Proto

/-! ### What is left shrinks -/

theorem varintLoop_length {left i : Nat} {v w : UInt64} {buf rest : List UInt8}
    (h : varintLoop left i v buf = .ok (w, rest)) : rest.length < buf.length := by
  induction left generalizing i v buf with
  | zero => cases h
  | succ left ih =>
      cases buf with
      | nil => cases h
      | cons b buf =>
          simp only [varintLoop] at h
          split at h
          · obtain ⟨-, rfl⟩ := Prod.mk.inj (Except.ok.inj h)
            exact Nat.lt_succ_self _
          · exact (ih h).trans (Nat.lt_succ_self _)

theorem varint_length {w : UInt64} {buf rest : List UInt8} (h : varint buf = .ok (w, rest)) :
    rest.length < buf.length :=
  varintLoop_length h

theorem key_length {field : UInt64 × UInt8} {buf rest : List UInt8}
    (h : key buf = .ok (some (field, rest))) : rest.length < buf.length := by
  unfold key at h
  split at h
  · cases h
  · obtain ⟨⟨k, rest'⟩, hvarint, h⟩ := Checks.bind_eq_ok.mp h
    obtain ⟨-, rfl⟩ := Prod.mk.inj (Option.some.inj (Except.ok.inj h))
    exact varint_length hvarint

theorem bytes_length {buf val rest : List UInt8} (h : bytes buf = .ok (val, rest)) :
    rest.length ≤ buf.length := by
  obtain ⟨⟨len, rest'⟩, hvarint, h⟩ := Checks.bind_eq_ok.mp h
  have hshort := varint_length hvarint
  simp only at h
  split at h
  · cases h
  · obtain ⟨-, rfl⟩ := Prod.mk.inj (Except.ok.inj h)
    rw [List.length_drop]
    omega

theorem fixed_length {width : Nat} {buf rest : List UInt8} (h : fixed width buf = .ok rest) :
    rest.length ≤ buf.length := by
  unfold fixed at h
  split at h
  · cases h
  · obtain rfl := Except.ok.inj h
    rw [List.length_drop]
    omega

theorem skip_length {wire : UInt8} {buf rest : List UInt8} (h : skip wire buf = .ok rest) :
    rest.length ≤ buf.length := by
  unfold skip at h
  split at h
  · obtain ⟨_, hvarint, rfl⟩ := Checks.map_eq_ok.mp h
    exact (varint_length hvarint).le
  · split at h
    · exact fixed_length h
    · split at h
      · obtain ⟨_, hbytes, rfl⟩ := Checks.map_eq_ok.mp h
        exact bytes_length hbytes
      · split at h
        · exact fixed_length h
        · cases h

/-- A computation whose remaining bytes are no more than it was given. -/
def Shrinks {σ : Type} (x : Except BulkError (σ × List UInt8)) (buf : List UInt8) : Prop :=
  ∀ s rest, x = .ok (s, rest) → rest.length ≤ buf.length

/-- Every loop body ends a branch by returning its variables and what a read left. -/
theorem shrinks_bind_pure {α σ : Type} {x : Except BulkError α} {val : α → σ}
    {left : α → List UInt8} {buf : List UInt8}
    (h : ∀ a, x = .ok a → (left a).length ≤ buf.length) :
    Shrinks (x >>= fun a => pure (val a, left a)) buf := by
  intro s rest hok
  obtain ⟨a, hx, hok⟩ := Checks.bind_eq_ok.mp hok
  obtain ⟨-, rfl⟩ := Prod.mk.inj (Except.ok.inj hok)
  exact h a hx

/-- A loop body that never goes back. -/
def Forward {σ : Type} (body : FieldBody σ) : Prop :=
  ∀ s field buf, Shrinks (body s field buf) buf

theorem forward_payloadBody : Forward payloadBody := by
  intro s field buf
  unfold payloadBody
  split
  · intro s' rest h
    obtain ⟨⟨account, rest'⟩, hbytes, h⟩ := Checks.bind_eq_ok.mp h
    obtain ⟨entry, -, h⟩ := Checks.bind_eq_ok.mp h
    cases entry with
    | ok e =>
        obtain ⟨-, rfl⟩ := Prod.mk.inj (Except.ok.inj h)
        exact bytes_length hbytes
    | error skipped =>
        obtain ⟨-, rfl⟩ := Prod.mk.inj (Except.ok.inj h)
        exact bytes_length hbytes
  split
  · exact shrinks_bind_pure fun _ h => (varint_length h).le
  split
  · exact shrinks_bind_pure fun _ h => (varint_length h).le
  · exact shrinks_bind_pure fun _ => skip_length

/-! ### The fuel is enough -/

/-- One more field than there are bytes makes no difference. -/
theorem fieldLoop_succ {σ : Type} {body : FieldBody σ} (hbody : Forward body) {fuel : Nat} {s : σ}
    {buf : List UInt8} (hfuel : buf.length ≤ fuel) :
    fieldLoop body (fuel + 1) s buf = fieldLoop body fuel s buf := by
  induction fuel generalizing s buf with
  | zero =>
      obtain rfl := List.length_eq_zero_iff.mp (Nat.le_zero.mp hfuel)
      rfl
  | succ fuel ih =>
      rw [fieldLoop, fieldLoop]
      refine Checks.bind_congr_ok fun next hkey => ?_
      cases next with
      | none => rfl
      | some next =>
          have hrest := key_length hkey
          refine Checks.bind_congr_ok fun after hstep => ?_
          have hafter := hbody _ _ _ _ _ hstep
          exact ih (by omega)

theorem fieldLoop_enough {σ : Type} {body : FieldBody σ} (hbody : Forward body) {fuel : Nat} {s : σ}
    {buf : List UInt8} (hfuel : buf.length ≤ fuel) :
    fieldLoop body fuel s buf = readMessage body s buf := by
  induction fuel, hfuel using Nat.le_induction with
  | base => rfl
  | succ fuel hfuel ih => rw [fieldLoop_succ hbody hfuel, ih]

/-- `readMessage` without its fuel: one field after another until none is left. -/
theorem readMessage_eq {σ : Type} {body : FieldBody σ} (hbody : Forward body) (s : σ)
    (buf : List UInt8) :
    readMessage body s buf = (do
      match ← key buf with
      | none => return s
      | some (field, rest) =>
          let (s, rest) ← body s field rest
          readMessage body s rest) := by
  rw [← fieldLoop_enough hbody (Nat.le_succ buf.length), fieldLoop]
  refine Checks.bind_congr_ok fun next hkey => ?_
  cases next with
  | none => rfl
  | some next =>
      have hrest := key_length hkey
      refine Checks.bind_congr_ok fun after hstep => ?_
      have hafter := hbody _ _ _ _ _ hstep
      exact fieldLoop_enough hbody (by omega)

/-! ### Two loops over one message -/

/-- What every turn of a loop keeps, the loop keeps. -/
theorem fieldLoop_keeps {σ : Type} {body : FieldBody σ} {Inv : σ → Prop}
    (hstep : ∀ s field buf s' rest, Inv s → body s field buf = .ok (s', rest) → Inv s')
    {fuel : Nat} {s s' : σ} {buf : List UInt8} (hs : Inv s)
    (hloop : fieldLoop body fuel s buf = .ok s') : Inv s' := by
  induction fuel generalizing s buf with
  | zero =>
      obtain ⟨next, -, hloop⟩ := Checks.bind_eq_ok.mp hloop
      cases next with
      | none => exact Except.ok.inj hloop ▸ hs
      | some _ => cases hloop
  | succ fuel ih =>
      obtain ⟨next, -, hloop⟩ := Checks.bind_eq_ok.mp hloop
      cases next with
      | none => exact Except.ok.inj hloop ▸ hs
      | some next =>
          obtain ⟨⟨s₁, rest⟩, hbody, hloop⟩ := Checks.bind_eq_ok.mp hloop
          exact ih (hstep _ _ _ _ _ hs hbody) hloop

/-- Two loop bodies that agree on each field agree on the message. `Out` is what
the first side keeps once the second has stopped with `e`. -/
theorem sim_fieldLoop {σ τ : Type} {body : FieldBody σ} {body' : FieldBody τ}
    {R : σ → τ → Prop} {Out : σ → Prop} {e : BulkError}
    (hstep : ∀ s t field buf, R s t →
      Sim (fun x y => R x.1 y.1 ∧ x.2 = y.2) (fun x => Out x.1) e (body s field buf)
        (body' t field buf))
    (hout : ∀ s field buf s' rest, Out s → body s field buf = .ok (s', rest) → Out s')
    {fuel : Nat} {s : σ} {t : τ} {buf : List UInt8} (hrel : R s t) :
    Sim R Out e (fieldLoop body fuel s buf) (fieldLoop body' fuel t buf) := by
  induction fuel generalizing s t buf with
  | zero =>
      refine Sim.bind_same fun next => ?_
      cases next with
      | none => exact .ok hrel
      | some _ => exact .error MALFORMED
  | succ fuel ih =>
      refine Sim.bind_same fun next => ?_
      cases next with
      | none => exact .ok hrel
      | some next =>
          obtain ⟨field, rest⟩ := next
          refine (hstep s t field rest hrel).bind ?_ ?_
          · rintro ⟨s', rest'⟩ ⟨t', _⟩ ⟨hrel', rfl⟩
            exact ih hrel'
          · rintro ⟨s', rest'⟩ s'' hs' hloop
            exact fieldLoop_keeps hout hs' hloop

end Keyroost.Import.Migration
