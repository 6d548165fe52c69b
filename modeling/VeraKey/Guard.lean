/-
Guarded computations in `Except`: a computation stops at its first refused
guard, and a successful one passed them all.
-/
import Mathlib

namespace Guard

universe u v w

variable {ε : Type u} {α : Type v} {β : Type v}

/-- Stop with `error` when `bad` holds. -/
def rejectIf (bad : Prop) [Decidable bad] (error : ε) : Except ε PUnit :=
  if bad then .error error else .ok ⟨⟩

@[simp]
theorem rejectIf_eq_ok {bad : Prop} [Decidable bad] {error : ε} {u : PUnit} :
    rejectIf bad error = .ok u ↔ ¬ bad := by
  unfold rejectIf
  split <;> simp_all

theorem rejectIf_bind_of_not {bad : Prop} [Decidable bad] {error : ε} (hbad : ¬ bad)
    (f : PUnit → Except ε α) : (rejectIf bad error >>= f) = f ⟨⟩ := by
  rw [rejectIf, if_neg hbad]
  rfl

@[simp]
theorem ok_bind (a : α) (f : α → Except ε β) : (.ok a >>= f) = f a := rfl

/-- A sequence succeeds exactly when its parts do, one after the other. -/
@[simp]
theorem bind_eq_ok {x : Except ε α} {f : α → Except ε β} {b : β} :
    x >>= f = .ok b ↔ ∃ a, x = .ok a ∧ f a = .ok b := by
  rcases x with error | value <;> simp [bind, Except.bind]

@[simp]
theorem map_eq_ok {x : Except ε α} {f : α → β} {b : β} :
    f <$> x = .ok b ↔ ∃ a, x = .ok a ∧ f a = b := by
  rcases x with error | value <;> simp [Functor.map, Except.map]

@[simp]
theorem pure_eq_ok {a b : α} : (pure a : Except ε α) = .ok b ↔ a = b := by
  simp [pure, Except.pure]

theorem isOk_iff {x : Except ε α} : x.isOk = true ↔ ∃ a, x = .ok a := by
  cases x <;> simp [Except.isOk, Except.toBool]

/-- A missing value stops the computation with `error`. -/
def orElse (value : Option α) (error : ε) : Except ε α :=
  match value with
  | some a => .ok a
  | none => .error error

@[simp]
theorem orElse_eq_ok {value : Option α} {error : ε} {a : α} :
    orElse value error = .ok a ↔ value = some a := by
  cases value <;> simp [orElse]

@[simp]
theorem mapError_eq_ok {ε' : Type u} {f : ε → ε'} {x : Except ε α} {a : α} :
    x.mapError f = .ok a ↔ x = .ok a := by
  cases x <;> simp [Except.mapError]

/-! ## Failures -/

/-- A sequence fails where one of its parts does. -/
theorem bind_eq_error {x : Except ε α} {f : α → Except ε β} {error : ε} :
    x >>= f = .error error ↔ x = .error error ∨ ∃ a, x = .ok a ∧ f a = .error error := by
  rcases x with other | value <;> simp [bind, Except.bind]

theorem map_eq_error {x : Except ε α} {f : α → β} {error : ε} :
    f <$> x = .error error ↔ x = .error error := by
  rcases x with other | value <;> simp [Functor.map, Except.map]

theorem rejectIf_eq_error {bad : Prop} [Decidable bad] {error error' : ε} :
    rejectIf bad error = .error error' ↔ bad ∧ error = error' := by
  unfold rejectIf
  split <;> simp_all

theorem orElse_eq_error {value : Option α} {error error' : ε} :
    orElse value error = .error error' ↔ value = none ∧ error = error' := by
  cases value <;> simp [orElse]

theorem mapError_eq_error {ε' : Type u} {f : ε → ε'} {x : Except ε α} {error : ε'} :
    x.mapError f = .error error ↔ ∃ inner, x = .error inner ∧ f inner = error := by
  cases x <;> simp [Except.mapError]

theorem pure_ne_error {a : α} {error : ε} : (pure a : Except ε α) ≠ .error error :=
  nofun

end Guard
