import Mathlib.Data.List.Nodup
import Mathlib.Logic.Function.Basic

/-!
# Numbered items in places

Items are numbered as they come, and each lies in one place. `Placed` says so by a home for
every number; adding an item and moving some items from one place to another keep it.
-/

namespace Semantics

universe u

/-- The items below `next` lie in their homes, each once, and nothing else lies anywhere. -/
def Placed {Place : Type u} [DecidableEq Place] (content : Place → List ℕ) (next : ℕ)
    (home : ℕ → Place) : Prop :=
  ∀ place item, (content place).count item = if item < next ∧ home item = place then 1 else 0

/-- A list without repetitions is a sublist of it and the rest. -/
theorem perm_append_rest {kept items : List ℕ} (sublist : kept.Sublist items)
    (distinct : items.Nodup) : items.Perm (kept ++ items.filter (· ∉ kept)) := by
  have separate : (kept ++ items.filter (· ∉ kept)).Nodup := by
    refine (distinct.sublist sublist).append (distinct.filter _) fun item inKept inRest => ?_
    simpa [inKept] using (List.mem_filter.mp inRest).2
  refine (List.perm_ext_iff_of_nodup distinct separate).mpr fun item => ?_
  have within := sublist.subset (a := item)
  simp only [List.mem_append, List.mem_filter, decide_eq_true_eq]
  tauto

namespace Placed

variable {Place : Type u} [DecidableEq Place] {content : Place → List ℕ} {next : ℕ}
  {home : ℕ → Place}

theorem empty (home : ℕ → Place) : Placed (fun _ => []) 0 home := by
  intro place item
  simp

theorem mem_iff (placed : Placed content next home) {place : Place} {item : ℕ} :
    item ∈ content place ↔ item < next ∧ home item = place := by
  rw [← List.count_pos_iff, placed place item]
  split_ifs with here <;> simp [here]

theorem nodup (placed : Placed content next home) (place : Place) : (content place).Nodup := by
  refine List.nodup_iff_count_le_one.mpr fun item => ?_
  rw [placed place item]
  split_ifs <;> omega

/-- A new item comes. -/
theorem add (placed : Placed content next home) (place : Place) :
    Placed (Function.update content place (content place ++ [next])) (next + 1)
      (Function.update home next place) := by
  intro other item
  have count := placed other item
  by_cases new : item = next
  · subst new
    by_cases here : other = place
    · subst here
      simpa using count
    · simpa [here, Ne.symm here] using count
  · have older : item < next + 1 ↔ item < next := by omega
    by_cases here : other = place
    · subst here
      simpa [new, Ne.symm new, older, List.count_singleton] using count
    · simpa [here, new, older] using count

/-- Items go from one place to another, and the rest of the first stay. -/
theorem move (placed : Placed content next home) {source target : Place} {kept moved : List ℕ}
    (apart : source ≠ target) (parts : (content source).Perm (kept ++ moved)) :
    Placed (Function.update (Function.update content source kept) target (content target ++ moved))
      next (fun item => if item ∈ moved then target else home item) := by
  intro place item
  have total : kept.count item + moved.count item =
      if item < next ∧ home item = source then 1 else 0 := by
    rw [← placed source item, parts.count_eq, List.count_append]
  have count := placed place item
  by_cases gone : item ∈ moved
  · have some : 0 < moved.count item := List.count_pos_iff.mpr gone
    have placedAt : item < next ∧ home item = source := by
      by_contra elsewhere
      rw [if_neg elsewhere] at total
      omega
    rw [if_pos placedAt] at total
    by_cases atTarget : place = target
    · subst atTarget
      have none : (content place).count item = 0 := by
        rw [count, if_neg fun here => apart (placedAt.2.symm.trans here.2)]
      simp only [Function.update_self, List.count_append, gone, if_true, placedAt.1, true_and]
      omega
    · by_cases atSource : place = source
      · subst atSource
        simp only [Function.update_of_ne atTarget, Function.update_self, gone, if_true]
        rw [if_neg fun here => apart here.2.symm]
        omega
      · simp only [Function.update_of_ne atTarget, Function.update_of_ne atSource, gone, if_true]
        rw [count, if_neg fun here => atSource (here.2.symm.trans placedAt.2),
          if_neg fun here => atTarget here.2.symm]
  · have none : moved.count item = 0 := List.count_eq_zero.mpr gone
    simp only [gone, if_false]
    by_cases atTarget : place = target
    · subst atTarget
      simpa only [Function.update_self, List.count_append, none, Nat.add_zero] using count
    · by_cases atSource : place = source
      · subst atSource
        rw [Function.update_of_ne atTarget, Function.update_self]
        omega
      · rw [Function.update_of_ne atTarget, Function.update_of_ne atSource]
        exact count

end Placed

end Semantics
