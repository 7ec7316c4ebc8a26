import Mathlib.Algebra.BigOperators.Group.Finset.Basic
import Mathlib.Algebra.Order.BigOperators.Group.Finset
import Mathlib.Data.Fintype.EquivFin

/-!
# Totals over finitely many keys

The sum of a natural-valued function over a finite key type, and how it changes
when the function is changed at one key or at two. `total_two` is the shape of
every transfer: what two keys hold together decides the total.
-/

namespace Total

variable {Key : Type} [Finite Key]

/-- The sum of `value` over all keys. -/
noncomputable def total (value : Key → Nat) : Nat :=
  letI := Fintype.ofFinite Key
  ∑ key, value key

/-- One key's value is at most the total. -/
theorem le_total (value : Key → Nat) (key : Key) : value key ≤ total value :=
  let _ := Fintype.ofFinite Key
  Finset.single_le_sum (f := value) (fun _ _ => Nat.zero_le _) (Finset.mem_univ key)

/-- Changing one key moves the total by exactly that change. -/
theorem total_one (before after : Key → Nat) (key : Key)
    (others : ∀ other, other ≠ key → after other = before other) :
    total after + before key = total before + after key := by
  classical
  let _ := Fintype.ofFinite Key
  have rest : ∑ other ∈ Finset.univ.erase key, after other =
      ∑ other ∈ Finset.univ.erase key, before other :=
    Finset.sum_congr rfl fun other member => others other (Finset.ne_of_mem_erase member)
  have splitBefore := Finset.add_sum_erase Finset.univ before (Finset.mem_univ key)
  have splitAfter := Finset.add_sum_erase Finset.univ after (Finset.mem_univ key)
  simp only [total]
  omega

/-- Changing two keys moves the total by exactly the two changes. -/
theorem total_two (before after : Key → Nat) {left right : Key} (distinct : left ≠ right)
    (others : ∀ other, other ≠ left → other ≠ right → after other = before other) :
    total after + (before left + before right) =
      total before + (after left + after right) := by
  classical
  let middle : Key → Nat := Function.update before left (after left)
  have first : total middle + before left = total before + middle left :=
    total_one _ _ left fun other apart => by simp [middle, apart]
  have second : total after + middle right = total middle + after right := by
    refine total_one _ _ right fun other apart => ?_
    by_cases same : other = left
    · simp [middle, same]
    · simp [middle, same, others other same apart]
  have atLeft : middle left = after left := by simp [middle]
  have atRight : middle right = before right := by simp [middle, Ne.symm distinct]
  omega

/-- Two distinct keys together hold at most the total. -/
theorem add_le_total (value : Key → Nat) {left right : Key} (distinct : left ≠ right) :
    value left + value right ≤ total value := by
  classical
  let _ := Fintype.ofFinite Key
  have split := Finset.add_sum_erase Finset.univ value (Finset.mem_univ left)
  have member : right ∈ Finset.univ.erase left := by simp [Ne.symm distinct]
  have bound : value right ≤ ∑ other ∈ Finset.univ.erase left, value other :=
    Finset.single_le_sum (f := value) (fun _ _ => Nat.zero_le _) member
  simp only [total]
  omega

@[simp] theorem total_zero : total (fun _ : Key => 0) = 0 := by simp [total]

end Total
