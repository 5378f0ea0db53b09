import Mathlib

/-!
# Checks

A check is a value of `Except ε Unit`.  Checks are made of refusals, of checks of parts whose
errors are wrapped, and of loops over parts, one after another in a `do` block.  For each there is a
lemma that says when it passes, so that `simp` turns a check into the condition it is for.
-/

namespace Checks

universe u v

variable {ε : Type u} {α : Type v}

/-- The check that fails with an error if a condition holds. -/
def refuse (c : Prop) [Decidable c] (err : ε) : Except ε Unit := if c then .error err else .ok ()

@[simp]
theorem refuse_eq_ok_iff (c : Prop) [Decidable c] (err : ε) (u : Unit) :
  refuse c err = .ok u ↔ ¬ c
  := by
  rw [refuse]
  split_ifs with h
  · simp [h]
  · simp [h]

@[simp]
theorem mapError_eq_ok_iff {δ : Type*} (f : ε → δ) (result : Except ε α) (a : α) :
  result.mapError f = .ok a ↔ result = .ok a
  := by
  cases result with
  | error err => simp [Except.mapError]
  | ok b => simp [Except.mapError]

theorem mapError_eq_error_iff {δ : Type*} (f : ε → δ) (result : Except ε α) (err : δ) :
  result.mapError f = .error err ↔ ∃ cause, result = .error cause ∧ f cause = err
  := by
  cases result with
  | error cause => simp [Except.mapError]
  | ok a => simp [Except.mapError]

/-- A check whose error is wrapped. -/
def wrap (f : ε → ε) (check : Except ε α) : Except ε α := check.mapError f

@[simp]
theorem wrap_eq_ok_iff (f : ε → ε) (check : Except ε α) (a : α) :
  wrap f check = .ok a ↔ check = .ok a
  := mapError_eq_ok_iff f check a

theorem wrap_eq_error_iff (f : ε → ε) (check : Except ε α) (err : ε) :
  wrap f check = .error err ↔ ∃ cause, check = .error cause ∧ f cause = err
  := mapError_eq_error_iff f check err

/-- What is done after a check. -/
@[simp]
theorem bind_eq_ok_iff {β : Type v} (check : Except ε α) (rest : α → Except ε β) (b : β) :
  (check >>= rest) = .ok b ↔ ∃ a, check = .ok a ∧ rest a = .ok b
  := by
  cases check with
  | error err => simp [bind, Except.bind]
  | ok a => simp [bind, Except.bind]

theorem bind_eq_error_iff {β : Type v} (check : Except ε α) (rest : α → Except ε β) (err : ε) :
  (check >>= rest) = .error err ↔ check = .error err ∨ ∃ a, check = .ok a ∧ rest a = .error err
  := by
  cases check with
  | error cause => simp [bind, Except.bind]
  | ok a => simp [bind, Except.bind]

/-- One check after another. -/
@[simp high]
theorem seq_eq_ok_iff {β : Type} (check : Except ε Unit) (rest : Unit → Except ε β) (b : β) :
  (check >>= rest) = .ok b ↔ check = .ok () ∧ rest () = .ok b
  := by
  rw [bind_eq_ok_iff]
  constructor
  · rintro ⟨⟨⟩, hcheck, hrest⟩
    exact ⟨hcheck, hrest⟩
  · rintro ⟨hcheck, hrest⟩
    exact ⟨(), hcheck, hrest⟩

/-- A check of each part, with its number. -/
def each (check : ℕ → α → Except ε Unit) : ℕ → List α → Except ε Unit
  | _, [] => .ok ()
  | i, a :: as => do
    check i a
    each check (i + 1) as

end Checks
