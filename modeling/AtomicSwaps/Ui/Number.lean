import AtomicSwaps.Data.Double
import AtomicSwaps.Ui.Text

/-!
# Numbers of JavaScript

`Number(text)` as a double, where `jsPositive` only tells whether it is above zero.
-/

namespace AtomicSwaps.Ui

open Trimming (trim)

/-- The value of a digit in any of the bases. -/
def digitValue (digit : Char) : Nat :=
  if digit.isDigit then digit.toNat - 48
  else if 'a' ≤ digit then digit.toNat - 87
  else digit.toNat - 55

/-- A literal of another base. -/
def jsRadix (base : Nat) (digit : Char → Bool) (text : List Char) : Double :=
  if text ≠ [] ∧ text.all digit then
    .round (text.foldl (fun value digit => base * value + digitValue digit) 0 : Nat)
  else .nan

/-- An unsigned literal. -/
def jsUnsigned (text : List Char) : Double :=
  if text = "Infinity".toList then .infinite false
  else
    match splitAtFirst (fun char => char == 'e' || char == 'E') text with
    | (decimal, none) =>
        match jsDecimal? decimal with
        | some (mantissa, places) => .round (mantissa / 10 ^ places)
        | none => .nan
    | (decimal, some exponent) =>
        match jsDecimal? decimal, integer? exponent with
        | some (mantissa, places), some exponent =>
            .round ((mantissa * 10 ^ exponent.toNat : Nat) /
              10 ^ (places + (-exponent).toNat))
        | _, _ => .nan

/-- `Number(text)`. -/
def jsNumber (text : String) : Double :=
  match trim jsSpace text.toList with
  | [] => .finite 0
  | '0' :: 'x' :: rest | '0' :: 'X' :: rest => jsRadix 16 isHexDigit rest
  | '0' :: 'o' :: rest | '0' :: 'O' :: rest =>
      jsRadix 8 (fun char => '0' ≤ char ∧ char ≤ '7') rest
  | '0' :: 'b' :: rest | '0' :: 'B' :: rest =>
      jsRadix 2 (fun char => char == '0' || char == '1') rest
  | '-' :: rest => (jsUnsigned rest).neg
  | '+' :: rest | rest => jsUnsigned rest

example : jsNumber "abc" = .nan ∧ jsNumber " " = .finite 0 ∧ jsNumber "-Infinity" = .infinite true ∧
    jsNumber "8" = .finite 8 := by
  decide +kernel

open Double (smallest smallest_pos smallest_le_one round_positive round_nonneg round_valid
  neg_positive)

/-- A decimal is rounded to a number above zero when it says so. -/
theorem round_decimal (mantissa places : Nat) :
    (Double.round ((mantissa : ℚ) / 10 ^ places)).positive = roundsAboveZero mantissa places := by
  have half : (1 : ℚ) / 2 * smallest = 1 / 2 ^ 1075 := by
    unfold smallest
    rw [zpow_neg, zpow_ofNat, pow_succ (2 : ℚ) 1074]
    generalize (2 : ℚ) ^ 1074 = a
    field_simp
  rw [Bool.eq_iff_iff, round_positive, half]
  unfold roundsAboveZero
  rw [decide_eq_true_eq, div_lt_div_iff₀ (by positivity) (by positivity), one_mul]
  exact_mod_cast Iff.rfl

/-- No unsigned literal denotes a number below zero. -/
theorem jsUnsigned_nonneg (text : List Char) :
    (jsUnsigned text).lt (.finite 0) = false := by
  unfold jsUnsigned
  split
  · rfl
  split
  · split
    · exact round_nonneg (by positivity)
    · rfl
  · split
    · exact round_nonneg (by positivity)
    · rfl

theorem jsUnsigned_positive (text : List Char) :
    (jsUnsigned text).positive = jsUnsignedPositive text := by
  unfold jsUnsigned jsUnsignedPositive
  split
  · rename_i infinity
    simp [infinity, Double.positive, Double.lt]
  · rename_i finite
    rw [beq_eq_false_iff_ne.mpr finite, Bool.false_or]
    cases splitAtFirst (fun char => char == 'e' || char == 'E') text with
    | mk decimal rest =>
        cases rest with
        | none =>
            dsimp only
            cases read : jsDecimal? decimal with
            | none => rfl
            | some parts =>
                obtain ⟨mantissa, places⟩ := parts
                rw [Option.any_some]
                exact round_decimal mantissa places
        | some exponent =>
            dsimp only
            cases read : jsDecimal? decimal with
            | none => rfl
            | some parts =>
                cases power : integer? exponent with
                | none => rfl
                | some power => simpa only [read] using round_decimal _ _

/-- The value of a literal is above zero when one of its digits is not zero. -/
theorem radix_positive {base : Nat} (some : 0 < base) (text : List Char) (value : Nat) :
    0 < text.foldl (fun value digit => base * value + digitValue digit) value ↔
      0 < value ∨ ∃ digit ∈ text, digitValue digit ≠ 0 := by
  induction text generalizing value with
  | nil => simp
  | cons digit text ih =>
      rw [List.foldl_cons, ih, List.exists_mem_cons_iff, ← or_assoc]
      refine or_congr_left ?_
      rw [Nat.add_pos_iff_pos_or_pos, Nat.mul_pos_iff_of_pos_left some, Nat.pos_iff_ne_zero]
      rw [Nat.pos_iff_ne_zero]

theorem digitValue_eq_zero {digit : Char} (hex : isHexDigit digit = true) :
    digitValue digit = 0 ↔ digit = '0' := by
  have small : digit.toNat < 103 := by
    simp only [isHexDigit, Char.isDigit, Char.le_def, UInt32.le_iff_toNat_le, Bool.and_eq_true,
      decide_eq_true_eq, Bool.decide_or, Bool.or_eq_true, Bool.decide_and] at hex
    have size : digit.toNat = digit.val.toNat := rfl
    have f : 'f'.val.toNat = 102 := rfl
    have capital : 'F'.val.toNat = 70 := rfl
    have nine : (57 : UInt32).toNat = 57 := rfl
    grind
  have every : ∀ number < 103, isHexDigit (Char.ofNat number) = true →
      (digitValue (Char.ofNat number) = 0 ↔ Char.ofNat number = '0') := by
    decide +kernel
  have here := every digit.toNat small
  rw [Char.ofNat_toNat] at here
  exact here hex

theorem jsRadix_positive {base : Nat} (some : 0 < base) {digit : Char → Bool}
    (hex : ∀ c, digit c = true → isHexDigit c = true) (text : List Char) :
    (jsRadix base digit text).positive = jsRadixPositive digit text := by
  unfold jsRadix jsRadixPositive
  split
  · rename_i digits
    obtain ⟨-, all⟩ := digits
    rw [Bool.eq_iff_iff, round_positive, all, Bool.true_and]
    have whole (value : Nat) : 1 / 2 * smallest < value ↔ 0 < value := by
      have edge := smallest_pos
      have one := smallest_le_one
      constructor
      · intro above
        have : (0 : ℚ) < value := by linarith
        exact_mod_cast this
      · intro above
        have : (1 : ℚ) ≤ value := by exact_mod_cast above
        linarith
    rw [whole, radix_positive some]
    simp only [lt_irrefl, false_or, List.any_eq_true, bne_iff_ne]
    refine exists_congr fun c => and_congr_right fun here => not_congr ?_
    exact digitValue_eq_zero (hex c (List.all_eq_true.mp all c here))
  · rename_i other
    cases text with
    | nil => simp [Double.positive, Double.lt]
    | cons c text =>
        have foreign : (c :: text).all digit = false := by simpa using other
        rw [foreign, Bool.false_and]
        rfl

/-- The two readings of a number agree. -/
theorem jsNumber_positive (text : String) : (jsNumber text).positive = jsPositive text := by
  have octal (c : Char) (digit : decide ('0' ≤ c ∧ c ≤ '7') = true) : isHexDigit c = true := by
    simp only [decide_eq_true_eq] at digit
    have decimal : c.isDigit = true := by
      rw [Char.isDigit_iff_toNat]
      exact ⟨digit.1, le_trans (show c.toNat ≤ '7'.toNat from digit.2) (by decide)⟩
    simp [isHexDigit, decimal]
  have binary (c : Char) (digit : (c == '0' || c == '1') = true) : isHexDigit c = true := by
    simp only [Bool.or_eq_true, beq_iff_eq] at digit
    rcases digit with rfl | rfl <;> decide
  unfold jsNumber jsPositive
  split
  · rename_i empty
    rw [empty]
    decide
  · rename_i shape
    rw [shape]
    exact jsRadix_positive (by decide) (fun c => id) _
  · rename_i shape
    rw [shape]
    exact jsRadix_positive (by decide) (fun c => id) _
  · rename_i shape
    rw [shape]
    exact jsRadix_positive (by decide) octal _
  · rename_i shape
    rw [shape]
    exact jsRadix_positive (by decide) octal _
  · rename_i shape
    rw [shape]
    exact jsRadix_positive (by decide) binary _
  · rename_i shape
    rw [shape]
    exact jsRadix_positive (by decide) binary _
  · rename_i shape
    rw [shape, neg_positive, jsUnsigned_nonneg]
    rfl
  · rename_i shape
    rw [shape]
    exact jsUnsigned_positive _
  · rename_i hex capitalHex octal capitalOctal binary capitalBinary minus plus
    split
    · rename_i shape
      exact (hex _ shape).elim
    · rename_i shape
      exact (capitalHex _ shape).elim
    · rename_i shape
      exact (octal _ shape).elim
    · rename_i shape
      exact (capitalOctal _ shape).elim
    · rename_i shape
      exact (binary _ shape).elim
    · rename_i shape
      exact (capitalBinary _ shape).elim
    · rename_i shape
      exact (minus _ shape).elim
    · rename_i shape
      exact (plus _ shape).elim
    · exact jsUnsigned_positive _

/-- What a text denotes is a double. -/
theorem jsNumber_valid (text : String) : (jsNumber text).Valid := by
  have radix (base : Nat) (digit : Char → Bool) (text : List Char) :
      (jsRadix base digit text).Valid := by
    unfold jsRadix
    split
    · exact round_valid _
    · exact fun value same => by cases same
  have unsigned (text : List Char) : (jsUnsigned text).Valid := by
    unfold jsUnsigned
    split
    · exact fun value same => by cases same
    split
    · split
      · exact round_valid _
      · exact fun value same => by cases same
    · split
      · exact round_valid _
      · exact fun value same => by cases same
  unfold jsNumber
  split
  · intro value same above
    cases same
    exact absurd above (lt_irrefl _)
  · exact radix _ _ _
  · exact radix _ _ _
  · exact radix _ _ _
  · exact radix _ _ _
  · exact radix _ _ _
  · exact radix _ _ _
  · rename_i rest _
    intro value same above
    -- the number behind the sign is not below zero
    have below := jsUnsigned_nonneg rest
    rw [← neg_positive, same] at below
    simp [Double.positive, Double.lt, above] at below
  · exact unsigned _
  · exact unsigned _

end AtomicSwaps.Ui
