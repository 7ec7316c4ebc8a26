import Mathlib.Data.Int.Log
import Mathlib.Data.Rat.Floor
import Mathlib.Algebra.Order.Field.Power
import Mathlib.Tactic.Linarith
import Mathlib.Tactic.NormNum
import Mathlib.Tactic.Positivity
import Mathlib.Tactic.FieldSimp

/-!
# Double-precision numbers

The numbers of IEEE 754 binary64 as rationals, with infinities and NaN, rounded to the nearest and
at a tie to the even one. The sign of zero is left out: no comparison sees it.
-/

namespace AtomicSwaps

/-- A double-precision number. -/
inductive Double where
  | nan
  | infinite (negative : Bool)
  | finite (value : ℚ)
deriving DecidableEq

namespace Double

/-- The nearest integer, at a tie the even one. -/
def roundEven (x : ℚ) : ℤ :=
  if x - ⌊x⌋ < 1 / 2 then ⌊x⌋
  else if 1 / 2 < x - ⌊x⌋ then ⌊x⌋ + 1
  else if ⌊x⌋ % 2 = 0 then ⌊x⌋ else ⌊x⌋ + 1

/-- The distance of the doubles of a size: 53 bits, and none below the smallest one. -/
def quantum (size : ℚ) : ℚ := 2 ^ max (Int.log 2 size - 52) (-1074)

/-- From where on a number is rounded to infinity. -/
def limit : ℚ := 2 ^ 1024 - 2 ^ 970

/-- The double next to a number. -/
def round (x : ℚ) : Double :=
  if limit ≤ |x| then .infinite (x < 0)
  else .finite (roundEven (x / quantum |x|) * quantum |x|)

/-- `-x`. -/
def neg : Double → Double
  | .nan => .nan
  | .infinite negative => .infinite !negative
  | .finite value => .finite (-value)

/-- `x * y`. -/
def mul : Double → Double → Double
  | .nan, _ | _, .nan => .nan
  | .infinite left, .infinite right => .infinite (left != right)
  | .infinite negative, .finite value | .finite value, .infinite negative =>
      if value = 0 then .nan else .infinite (negative != (value < 0))
  | .finite left, .finite right => round (left * right)

/-- `x < y`: never true of NaN. -/
def lt : Double → Double → Bool
  | .nan, _ | _, .nan => false
  | .infinite left, .infinite right => left && !right
  | .infinite negative, .finite _ => negative
  | .finite _, .infinite negative => !negative
  | .finite left, .finite right => left < right

/-- `0 < x`. -/
def positive (x : Double) : Bool := lt (.finite 0) x

/-- `x ≤ y`, so both are numbers. -/
def le : Double → Double → Bool
  | .nan, _ | _, .nan => false
  | x, y => !lt y x

/-- The smallest double above zero. -/
def smallest : ℚ := 2 ^ (-1074 : ℤ)

/-- What a double can be: above zero it is no smaller than the smallest one. -/
def Valid (x : Double) : Prop := ∀ value, x = .finite value → 0 < value → smallest ≤ value

theorem quantum_pos (size : ℚ) : 0 < quantum size := by
  unfold quantum
  positivity

theorem smallest_le_quantum (size : ℚ) : smallest ≤ quantum size :=
  zpow_le_zpow_right₀ (by norm_num) (le_max_right _ _)

theorem roundEven_pos {x : ℚ} : 0 < roundEven x ↔ 1 / 2 < x := by
  have below := Int.floor_le x
  have above := Int.lt_floor_add_one x
  unfold roundEven
  constructor
  · intro positive
    by_contra small
    have floor : ⌊x⌋ < 1 := Int.floor_lt.mpr (by push_cast; linarith)
    split at positive
    · omega
    split at positive
    · rename_i past
      have zero : ⌊x⌋ = 0 := by omega
      rw [zero] at past
      push_cast at past
      linarith
    split at positive
    · omega
    · rename_i odd
      omega
  · intro large
    have floor : 0 ≤ ⌊x⌋ := Int.floor_nonneg.mpr (by linarith)
    split
    · rename_i under
      by_contra low
      have zero : ⌊x⌋ = 0 := by omega
      rw [zero] at under
      push_cast at under
      linarith
    split
    · omega
    split
    · rename_i past under even
      by_contra low
      have zero : ⌊x⌋ = 0 := by omega
      rw [zero] at under
      push_cast at under
      linarith
    · omega

theorem roundEven_nonneg {x : ℚ} (nonneg : 0 ≤ x) : 0 ≤ roundEven x := by
  have floor : 0 ≤ ⌊x⌋ := Int.floor_nonneg.mpr nonneg
  unfold roundEven
  split
  · exact floor
  split
  · omega
  split
  · exact floor
  · omega

/-- Half a quantum above zero is where a number stops to round to zero. -/
theorem half_quantum {x : ℚ} (positive : 0 < x) :
    1 / 2 < x / quantum x ↔ 1 / 2 * smallest < x := by
  rw [lt_div_iff₀ (quantum_pos x)]
  constructor
  · intro above
    have small := smallest_le_quantum x
    linarith
  · intro above
    unfold quantum
    rcases le_total (Int.log 2 x - 52) (-1074) with low | high
    · rw [max_eq_right low]
      exact above
    · rw [max_eq_left high]
      have size : (2 : ℚ) ^ Int.log 2 x ≤ x := by
        have := Int.zpow_log_le_self (b := 2) (by norm_num) positive
        exact_mod_cast this
      have less : (2 : ℚ) ^ (Int.log 2 x - 52) ≤ 2 ^ Int.log 2 x :=
        zpow_le_zpow_right₀ (by norm_num) (by omega)
      linarith

theorem one_lt_limit : 1 < limit := by
  have split : (2 : ℚ) ^ 1024 = 2 ^ 970 * 2 ^ 54 := by rw [← pow_add]
  have large : (1 : ℚ) ≤ 2 ^ 970 := one_le_pow₀ (by norm_num)
  have more : (2 : ℚ) < 2 ^ 54 := by norm_num
  unfold limit
  rw [split]
  generalize (2 : ℚ) ^ 970 = a at large
  nlinarith

theorem smallest_pos : 0 < smallest := by
  unfold smallest
  positivity

theorem smallest_le_one : smallest ≤ 1 :=
  zpow_le_one_of_nonpos₀ (by norm_num) (by norm_num)

/-- A number is rounded to one above zero when it is above half the smallest one. -/
theorem round_positive {x : ℚ} : (round x).positive = true ↔ 1 / 2 * smallest < x := by
  have edge := smallest_pos
  have one := smallest_le_one
  have far := one_lt_limit
  unfold round
  split
  · rename_i large
    by_cases below : x < 0
    · rw [abs_of_neg below] at large
      simp only [positive, lt, below, decide_true, Bool.not_true, Bool.false_eq_true, false_iff]
      linarith
    · rw [abs_of_nonneg (not_lt.mp below)] at large
      simp only [positive, lt, below, decide_false, Bool.not_false, true_iff]
      linarith
  · simp only [positive, lt, decide_eq_true_eq]
    rw [mul_pos_iff_of_pos_right (quantum_pos _), Int.cast_pos, roundEven_pos]
    rcases lt_or_ge 0 x with above | below
    · rw [abs_of_pos above, half_quantum above]
    · have quotient : x / quantum |x| ≤ 0 := div_nonpos_of_nonpos_of_nonneg below (quantum_pos _).le
      constructor
      · intro far
        linarith
      · intro far
        linarith

/-- Nothing is rounded across zero. -/
theorem round_nonneg {x : ℚ} (nonneg : 0 ≤ x) : lt (round x) (.finite 0) = false := by
  unfold round
  split
  · simp only [lt, decide_eq_false_iff_not]
    exact not_lt.mpr nonneg
  · have quotient : 0 ≤ roundEven (x / quantum |x|) :=
      roundEven_nonneg (div_nonneg nonneg (quantum_pos _).le)
    simp only [lt, decide_eq_false_iff_not, not_lt]
    exact mul_nonneg (by exact_mod_cast quotient) (quantum_pos _).le

theorem neg_positive (x : Double) : x.neg.positive = lt x (.finite 0) := by
  cases x with
  | nan => rfl
  | infinite negative => cases negative <;> rfl
  | finite value => simp [neg, positive, lt]

/-- What a number is rounded to is a double. -/
theorem round_valid (x : ℚ) : (round x).Valid := by
  intro value same positive
  unfold round at same
  split at same
  · cases same
  · obtain rfl := (Double.finite.inj same).symm
    have whole : 0 < roundEven (x / quantum |x|) := by
      rw [mul_pos_iff_of_pos_right (quantum_pos _)] at positive
      exact_mod_cast positive
    have one : (1 : ℚ) ≤ roundEven (x / quantum |x|) := by exact_mod_cast whole
    calc smallest ≤ quantum |x| := smallest_le_quantum _
      _ = 1 * quantum |x| := (one_mul _).symm
      _ ≤ roundEven (x / quantum |x|) * quantum |x| :=
          mul_le_mul_of_nonneg_right one (quantum_pos _).le

/-- A product with a number from one on has the sign of the double. -/
theorem mul_positive {x : Double} (valid : x.Valid) {factor : ℚ} (large : 1 ≤ factor) :
    (x.mul (.finite factor)).positive = true ↔ x.positive = true := by
  cases x with
  | nan => rfl
  | infinite negative =>
      have some : factor ≠ 0 := by linarith
      have above : ¬ factor < 0 := by linarith
      simp [mul, some, above, positive, lt]
  | finite value =>
      rw [show mul (.finite value) (.finite factor) = round (value * factor) from rfl,
        round_positive]
      simp only [positive, lt, decide_eq_true_eq]
      have edge := smallest_pos
      constructor
      · intro above
        by_contra below
        have product : value * factor ≤ 0 :=
          mul_nonpos_of_nonpos_of_nonneg (not_lt.mp below) (by linarith)
        linarith
      · intro above
        have least := valid value rfl above
        have product : value ≤ value * factor := le_mul_of_one_le_right above.le large
        linarith

/-- Two numbers are compared one way or the other. -/
theorem le_of_not_lt {x y : Double} (number : x ≠ .nan) (other : y ≠ .nan)
    (not : lt x y = false) : le y x = true := by
  cases x <;> cases y <;> simp_all [le]

theorem positive_ne_nan {x : Double} (above : x.positive = true) : x ≠ .nan := by
  rintro rfl
  cases above

end Double

end AtomicSwaps
