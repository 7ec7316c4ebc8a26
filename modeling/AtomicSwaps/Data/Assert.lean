import Mathlib.Tactic.Basic

/-!
# Bodies that check as they go

Functions that fail through `Except`: `assert` stops with a message, and the
lemmas say when a sequence of checks returns and what it returns.
-/

namespace Assert

variable {ε α β : Type}

/-- Continue if `condition` holds, fail with `message` otherwise. -/
def assert (condition : Prop) [Decidable condition] (message : String) : Except String Unit :=
  if condition then .ok () else .error message

@[simp] theorem pure_eq_ok {value result : α} :
    (pure value : Except ε α) = .ok result ↔ value = result := by
  simp [pure, Except.pure]

/-- A sequence returns exactly when both parts do. -/
theorem bind_eq_ok {first : Except ε α} {rest : α → Except ε β} {result : β} :
    (first >>= rest) = .ok result ↔ ∃ value, first = .ok value ∧ rest value = .ok result := by
  cases first with
  | error => simp [bind, Except.bind]
  | ok value => simp [bind, Except.bind]

/-- An assertion passes exactly when its condition holds. -/
@[simp] theorem assert_eq_ok {condition : Prop} [Decidable condition] {message : String}
    {passed : Unit} : assert condition message = .ok passed ↔ condition := by
  by_cases holds : condition
  · simp [assert, holds]
  · simp [assert, holds]

end Assert
