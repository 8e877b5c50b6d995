import Mathlib.Tactic.Common
import ShaderEffect.Shader.Error

/-!
# Results

Computations that can fail, one after the other: when a sequence of them has a value, and when two
sequences have related values or the same error, or related values or any errors.
-/

namespace ShaderEffect

theorem bind_eq_ok {ε α β : Type} {x : Except ε α} {f : α → Except ε β} {b : β} :
    x >>= f = .ok b ↔ ∃ a, x = .ok a ∧ f a = .ok b := by
  cases x with
  | error e => simp [bind, Except.bind]
  | ok a => simp [bind, Except.bind]

theorem bind_eq_error {ε α β : Type} {x : Except ε α} {f : α → Except ε β} {e : ε} :
    x >>= f = .error e ↔ x = .error e ∨ ∃ a, x = .ok a ∧ f a = .error e := by
  cases x with
  | error e => simp [bind, Except.bind]
  | ok a => simp [bind, Except.bind]

theorem mapError_eq_error {ε δ α : Type} {x : Except ε α} {f : ε → δ} {e : δ} :
    x.mapError f = .error e ↔ ∃ cause, x = .error cause ∧ f cause = e := by
  cases x with
  | error cause => simp [Except.mapError]
  | ok a => simp [Except.mapError]

/-! ## Writing without an error -/

/-- A piece of a unit can be written. -/
def Succeeds {α : Type} (result : Except CompileError α) : Prop :=
  ∃ value, result = .ok value

section

variable {α β : Type}

@[simp]
theorem succeeds_ok (value : α) : Succeeds (.ok value) :=
  ⟨value, rfl⟩

@[simp]
theorem succeeds_pure (value : α) : Succeeds (pure value) :=
  ⟨value, rfl⟩

@[simp]
theorem not_succeeds_error (error : CompileError) : ¬ Succeeds (.error error : Except _ α) := by
  rintro ⟨value, h⟩
  cases h

@[simp]
theorem not_succeeds_throw (error : CompileError) : ¬ Succeeds (throw error : Except _ α) :=
  not_succeeds_error error

theorem succeeds_bind {result : Except CompileError α} {next : α → Except CompileError β} :
    Succeeds (result >>= next) ↔ ∃ value, result = .ok value ∧ Succeeds (next value) := by
  cases result with
  | error error => simp [bind, Except.bind]
  | ok value => simp [bind, Except.bind]

/-- Two pieces can be written one after the other if both can, as long as the second does not depend
on how the first is written. -/
theorem succeeds_bind_iff {result : Except CompileError α} {next : α → Except CompileError β}
    {P : Prop} (h : ∀ value, result = .ok value → (Succeeds (next value) ↔ P)) :
    Succeeds (result >>= next) ↔ Succeeds result ∧ P := by
  rw [succeeds_bind]
  constructor
  · rintro ⟨value, hr, hn⟩
    exact ⟨⟨value, hr⟩, (h value hr).mp hn⟩
  · rintro ⟨⟨value, hr⟩, hP⟩
    exact ⟨value, hr, (h value hr).mpr hP⟩

theorem succeeds_bind_pure {result : Except CompileError α} {f : α → β} :
    Succeeds (result >>= fun value => pure (f value)) ↔ Succeeds result := by
  rw [succeeds_bind_iff (P := True) (fun value _ => by simp), and_true]

theorem succeeds_mapM {xs : List α} {f : α → Except CompileError β} :
    Succeeds (xs.mapM f) ↔ ∀ x ∈ xs, Succeeds (f x) := by
  induction xs with
  | nil => simp
  | cons x xs ih =>
      rw [List.mapM_cons, List.forall_mem_cons, ← ih]
      exact succeeds_bind_iff fun value _ => succeeds_bind_pure

end

/-! ## Results in lockstep -/

/-- Both results are values that are related, or both are the same error. -/
inductive Lockstep {α β : Type} (R : α → β → Prop) :
    Except CompileError α → Except CompileError β → Prop where
  | ok {a b} (h : R a b) : Lockstep R (.ok a) (.ok b)
  | error (e : CompileError) : Lockstep R (.error e) (.error e)

section

variable {α β γ δ : Type} {R : α → β → Prop} {S : γ → δ → Prop}

theorem Lockstep.bind {x : Except CompileError α} {y : Except CompileError β}
    {f : α → Except CompileError γ} {g : β → Except CompileError δ} (h : Lockstep R x y)
    (hf : ∀ a b, R a b → Lockstep S (f a) (g b)) : Lockstep S (x >>= f) (y >>= g) := by
  cases h with
  | ok h => exact hf _ _ h
  | error e => exact .error e

theorem Lockstep.pure {a : α} {b : β} (h : R a b) :
    Lockstep R (Pure.pure a) (Pure.pure b) :=
  .ok h

theorem Lockstep.exists_ok {a : α} {y : Except CompileError β} (h : Lockstep R (.ok a) y) :
    ∃ b, y = .ok b ∧ R a b := by
  cases h with
  | ok h => exact ⟨_, rfl, h⟩

/-- The first result is the same on both sides. -/
theorem Lockstep.bind_of_eq {x y : Except CompileError α} {f : α → Except CompileError γ}
    {g : α → Except CompileError δ} (h : x = y) (hf : ∀ a, Lockstep S (f a) (g a)) :
    Lockstep S (x >>= f) (y >>= g) := by
  subst h
  cases x with
  | ok a => exact hf a
  | error e => exact .error e

end

/-! ## Results that are alike -/

/-- Both results are values that are related, or neither is a value. -/
inductive Alike {α β : Type} (R : α → β → Prop) :
    Except CompileError α → Except CompileError β → Prop where
  | ok {a b} (h : R a b) : Alike R (.ok a) (.ok b)
  | error (e e' : CompileError) : Alike R (.error e) (.error e')

section

variable {α β γ δ : Type} {R : α → β → Prop} {S : γ → δ → Prop}

protected theorem Alike.pure {a : α} {b : β} (h : R a b) :
    Alike R (Pure.pure a) (Pure.pure b) :=
  .ok h

protected theorem Alike.refl (result : Except CompileError α) : Alike Eq result result := by
  cases result with
  | ok value => exact .ok rfl
  | error e => exact .error e e

protected theorem Alike.bind {x : Except CompileError α} {y : Except CompileError β}
    {f : α → Except CompileError γ} {g : β → Except CompileError δ} (h : Alike R x y)
    (hf : ∀ a b, R a b → Alike S (f a) (g b)) : Alike S (x >>= f) (y >>= g) := by
  cases h with
  | ok h => exact hf _ _ h
  | error e e' => exact .error e e'

theorem Alike.succeeds_iff {x : Except CompileError α} {y : Except CompileError β}
    (h : Alike R x y) : Succeeds x ↔ Succeeds y := by
  cases h with
  | ok h => simp
  | error e e' => simp

theorem alike_of_succeeds_iff {x : Except CompileError α} {y : Except CompileError β}
    (h : Succeeds x ↔ Succeeds y) : Alike (fun _ _ => True) x y := by
  cases x with
  | ok a =>
      obtain ⟨b, rfl⟩ := h.mp (succeeds_ok a)
      exact .ok trivial
  | error e =>
      cases y with
      | ok b => simp at h
      | error e' => exact .error e e'

end

end ShaderEffect
