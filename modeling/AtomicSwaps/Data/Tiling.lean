import Mathlib.Data.List.Basic
import Mathlib.Tactic.Cases

/-!
# Tilings

A list of spans, each with its first and its last number, that follow one another without a
gap or an overlap.
-/

namespace Tiling

/-- The spans go from the start to the stop, which they leave out. -/
def Tiles : Nat → List (Nat × Nat) → Nat → Prop
  | start, [], stop => start = stop
  | start, (first, last) :: spans, stop => first = start ∧ start ≤ last ∧ Tiles (last + 1) spans stop

/-- A number lies in a span. -/
def covers (number : Nat) (span : Nat × Nat) : Bool := span.1 ≤ number ∧ number ≤ span.2

variable {start middle stop first last number : Nat} {spans later : List (Nat × Nat)}

theorem Tiles.le (tiles : Tiles start spans stop) : start ≤ stop := by
  induction spans generalizing start with
  | nil => exact Nat.le_of_eq tiles
  | cons span spans ih =>
      obtain ⟨-, forward, rest⟩ := tiles
      have onward := ih rest
      omega

theorem Tiles.append (tiles : Tiles start spans middle) (rest : Tiles middle later stop) :
    Tiles start (spans ++ later) stop := by
  induction spans generalizing start with
  | nil =>
      obtain rfl := tiles
      exact rest
  | cons span spans ih =>
      obtain ⟨same, forward, onward⟩ := tiles
      exact ⟨same, forward, ih onward⟩

/-- One more span. -/
theorem Tiles.concat (tiles : Tiles start spans first) (forward : first ≤ last) :
    Tiles start (spans ++ [(first, last)]) (last + 1) :=
  tiles.append ⟨rfl, forward, rfl⟩

/-- Every number from the start to the stop lies in exactly one span, and no other in any. -/
theorem Tiles.countP (tiles : Tiles start spans stop) :
    spans.countP (covers number) = if start ≤ number ∧ number < stop then 1 else 0 := by
  induction spans generalizing start with
  | nil =>
      obtain rfl := tiles
      rw [List.countP_nil, if_neg (by omega)]
  | cons span spans ih =>
      obtain ⟨first, last⟩ := span
      obtain ⟨rfl, forward, onward⟩ := tiles
      have onwards := onward.le
      rw [List.countP_cons, ih onward]
      simp only [covers, decide_eq_true_eq]
      split_ifs <;> omega

end Tiling
