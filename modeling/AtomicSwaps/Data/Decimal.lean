import Mathlib.Data.List.DropRight
import Mathlib.Data.List.Induction
import Mathlib.Data.List.TakeWhile
import Mathlib.Tactic.Linarith
import Mathlib.Tactic.Positivity
import Mathlib.Tactic.Ring

/-!
# Decimal text

Digit strings and the numbers they denote: padding and stripping zeros, the numeral of a
number, and the integer parsers of Rust's standard library, which read the digits from left
to right and stop at the first that is not one or does not fit.
-/

namespace Decimal

/-- The number a sequence of digits denotes. -/
def value (digits : List Char) : Nat := Nat.ofDigitChars 10 digits 0

/-- The numeral of a number. -/
def numeral (number : Nat) : List Char := Nat.toDigits 10 number

/-- All characters are digits. -/
def isDigits (text : List Char) : Bool := text.all Char.isDigit

@[simp] theorem isDigits_nil : isDigits [] = true := rfl

@[simp] theorem isDigits_cons {char : Char} {text : List Char} :
    isDigits (char :: text) = true ↔ char.isDigit = true ∧ isDigits text = true := by
  simp [isDigits]

@[simp] theorem isDigits_append {first second : List Char} :
    isDigits (first ++ second) = true ↔ isDigits first = true ∧ isDigits second = true := by
  simp [isDigits]

@[simp] theorem isDigits_replicate_zero {count : Nat} :
    isDigits (List.replicate count '0') = true := by
  simp [isDigits]

theorem isDigits_of_subset {part whole : List Char} (digits : isDigits whole = true)
    (within : ∀ char ∈ part, char ∈ whole) : isDigits part = true := by
  simp only [isDigits, List.all_eq_true] at digits ⊢
  exact fun char member => digits char (within char member)

@[simp] theorem isDigits_numeral (number : Nat) : isDigits (numeral number) = true := by
  rw [isDigits, List.all_eq_true]
  exact fun char member => Nat.isDigit_of_mem_toDigits (by decide) (by decide) member

@[simp] theorem value_nil : value [] = 0 := rfl

@[simp] theorem value_numeral (number : Nat) : value (numeral number) = number :=
  Nat.ofDigitChars_ten_toDigits

@[simp] theorem numeral_ne_nil (number : Nat) : numeral number ≠ [] := Nat.toDigits_ne_nil

theorem value_append (first second : List Char) :
    value (first ++ second) = value first * 10 ^ second.length + value second := by
  rw [value, Nat.ofDigitChars_append, Nat.ofDigitChars_eq_ofDigitChars_zero, value, value]
  ring

@[simp] theorem value_replicate_zero (count : Nat) : value (List.replicate count '0') = 0 := by
  simp [value]

theorem value_zero_cons (text : List Char) : value ('0' :: text) = value text := by
  rw [← List.singleton_append, value_append]
  simp [value, Nat.ofDigitChars]

theorem digit_lt {char : Char} (digit : char.isDigit = true) : char.toNat - 48 < 10 := by
  have bounds := Char.isDigit_iff_toNat.mp digit
  have nine : '9'.toNat = 57 := rfl
  omega

theorem value_singleton {char : Char} : value [char] = char.toNat - 48 := by
  simp [value, Nat.ofDigitChars]

/-- A number has fewer digits than the power of ten above it. -/
theorem value_lt {digits : List Char} (valid : isDigits digits = true) :
    value digits < 10 ^ digits.length := by
  induction digits with
  | nil => simp
  | cons char digits ih =>
      obtain ⟨digit, valid⟩ := isDigits_cons.mp valid
      have small := digit_lt digit
      have rest := ih valid
      rw [← List.singleton_append, value_append, value_singleton, List.length_append,
        List.length_singleton, Nat.pow_add]
      nlinarith

/-- A digit is the numeral of its value. -/
theorem digitChar_value {char : Char} (digit : char.isDigit = true) :
    Nat.digitChar (char.toNat - 48) = char := by
  have bounds := Char.isDigit_iff_toNat.mp digit
  have nine : '9'.toNat = 57 := rfl
  have zero : '0'.toNat = 48 := rfl
  have all : ∀ value : Fin 10, Nat.digitChar value.val = Char.ofNat (48 + value.val) := by decide
  rw [all ⟨char.toNat - 48, digit_lt digit⟩]
  have restored : 48 + (char.toNat - 48) = char.toNat := by omega
  simp only [restored, Char.ofNat_toNat]

/-- Digits that do not start with a zero are the numeral of what they denote. -/
theorem numeral_value {char : Char} {digits : List Char} (valid : isDigits (char :: digits) = true)
    (leading : char ≠ '0') : numeral (value (char :: digits)) = char :: digits := by
  induction digits using List.reverseRecOn with
  | nil =>
      obtain ⟨digit, -⟩ := isDigits_cons.mp valid
      rw [value_singleton, numeral, Nat.toDigits_of_lt_base (digit_lt digit),
        digitChar_value digit]
  | append_singleton digits last ih =>
      rw [← List.cons_append] at valid ⊢
      obtain ⟨front, lastDigit⟩ := isDigits_append.mp valid
      obtain ⟨lastDigit, -⟩ := isDigits_cons.mp lastDigit
      have known := ih front
      have positive : 0 < value (char :: digits) := by
        by_contra zero
        have zero : value (char :: digits) = 0 := by omega
        rw [zero] at known
        exact leading (List.cons.inj known).1.symm
      have appended := Nat.toDigits_append_toDigits (by decide : 1 < 10) positive (digit_lt lastDigit)
      rw [value_append, value_singleton, List.length_singleton, pow_one, mul_comm, numeral,
        ← appended, ← numeral, known, Nat.toDigits_of_lt_base (digit_lt lastDigit),
        digitChar_value lastDigit]

/-- Digits without their leading zeros, of which the last stays when nothing else does. -/
def withoutLeadingZeros : List Char → List Char
  | [] => []
  | [char] => [char]
  | char :: next :: rest =>
      if char = '0' then withoutLeadingZeros (next :: rest) else char :: next :: rest

/-- Stripped of its zeros, a sequence of digits is the numeral of what it denotes. -/
theorem withoutLeadingZeros_eq_numeral {digits : List Char} (valid : isDigits digits = true)
    (some : digits ≠ []) : withoutLeadingZeros digits = numeral (value digits) := by
  fun_induction withoutLeadingZeros digits with
  | case1 => exact absurd rfl some
  | case2 char =>
      obtain ⟨digit, -⟩ := isDigits_cons.mp valid
      rw [value_singleton, numeral, Nat.toDigits_of_lt_base (digit_lt digit), digitChar_value digit]
  | case3 next rest ih =>
      rw [value_zero_cons]
      exact ih (isDigits_cons.mp valid).2 (by simp)
  | case4 char next rest leading => exact (numeral_value valid leading).symm

/-- Stripping zeros is dropping them, unless there is nothing else. -/
theorem withoutLeadingZeros_eq {text : List Char} (some : text ≠ []) :
    withoutLeadingZeros text =
      if text.dropWhile (· = '0') = [] then ['0'] else text.dropWhile (· = '0') := by
  fun_induction withoutLeadingZeros text with
  | case1 => exact absurd rfl some
  | case2 char =>
      by_cases zero : char = '0'
      · subst zero
        rfl
      · simp [zero]
  | case3 next rest ih => simpa using ih (by simp)
  | case4 char next rest leading => simp [leading]

/-- Digits in front of `width` places that follow them. -/
theorem value_take_drop (digits : List Char) (width : Nat) :
    value digits = value (digits.take width) * 10 ^ (digits.length - width) +
      value (digits.drop width) := by
  rw [← List.length_drop, ← value_append, List.take_append_drop]

/-- The first digits of a number. -/
theorem value_take {digits : List Char} (valid : isDigits digits = true) (width : Nat) :
    value (digits.take width) = value digits / 10 ^ (digits.length - width) := by
  have tail : isDigits (digits.drop width) = true :=
    isDigits_of_subset valid fun char member => List.mem_of_mem_drop member
  have small := value_lt tail
  rw [List.length_drop] at small
  rw [value_take_drop digits width, Nat.mul_comm, Nat.mul_add_div (by positivity),
    Nat.div_eq_of_lt small, Nat.add_zero]

/-- `format!("{:0<width$}")`: zeros behind. -/
def padRight (width : Nat) (text : List Char) : List Char :=
  text ++ List.replicate (width - text.length) '0'

/-- `format!("{:0width$}")`: zeros in front. -/
def padLeft (width : Nat) (text : List Char) : List Char :=
  List.replicate (width - text.length) '0' ++ text

theorem value_padRight (width : Nat) (text : List Char) :
    value (padRight width text) = value text * 10 ^ (width - text.length) := by
  simp [padRight, value_append]

@[simp] theorem value_padLeft (width : Nat) (text : List Char) :
    value (padLeft width text) = value text := by
  simp [padLeft, value_append]

theorem length_padRight {width : Nat} {text : List Char} (short : text.length ≤ width) :
    (padRight width text).length = width := by
  simp only [padRight, List.length_append, List.length_replicate]
  omega

theorem length_padLeft {width : Nat} {text : List Char} (short : text.length ≤ width) :
    (padLeft width text).length = width := by
  simp only [padLeft, List.length_append, List.length_replicate]
  omega

@[simp] theorem isDigits_padRight {width : Nat} {text : List Char} :
    isDigits (padRight width text) = true ↔ isDigits text = true := by
  simp [padRight]

@[simp] theorem isDigits_padLeft {width : Nat} {text : List Char} :
    isDigits (padLeft width text) = true ↔ isDigits text = true := by
  simp [padLeft]

/-- `trim_end_matches('0')`. -/
def withoutTrailingZeros (text : List Char) : List Char := text.rdropWhile (· = '0')

/-- Zeros that are stripped are put back by padding. -/
theorem withoutTrailingZeros_append (text : List Char) :
    ∃ count, text = withoutTrailingZeros text ++ List.replicate count '0' := by
  have zeros : text.reverse.takeWhile (· = '0') =
      List.replicate (text.reverse.takeWhile (· = '0')).length '0' :=
    List.eq_replicate_iff.mpr ⟨rfl, fun char member => by
      simpa using List.mem_takeWhile_imp member⟩
  refine ⟨(text.reverse.takeWhile (· = '0')).length, ?_⟩
  calc text = (text.reverse.takeWhile (· = '0') ++ text.reverse.dropWhile (· = '0')).reverse := by
        rw [List.takeWhile_append_dropWhile, List.reverse_reverse]
    _ = withoutTrailingZeros text ++ (text.reverse.takeWhile (· = '0')).reverse := by
        rw [List.reverse_append, withoutTrailingZeros, List.rdropWhile]
    _ = withoutTrailingZeros text ++
          List.replicate (text.reverse.takeWhile (· = '0')).length '0' := by
        rw [zeros, List.reverse_replicate, List.length_replicate]

/-- What is left of a padded text after stripping is padded to the text again. -/
theorem padRight_withoutTrailingZeros {width : Nat} {text : List Char}
    (full : text.length = width) : padRight width (withoutTrailingZeros text) = text := by
  obtain ⟨count, whole⟩ := withoutTrailingZeros_append text
  have lengths := congrArg List.length whole
  simp only [List.length_append, List.length_replicate] at lengths
  have rest : width - (withoutTrailingZeros text).length = count := by omega
  rw [padRight, rest, ← whole]

theorem length_withoutTrailingZeros_le (text : List Char) :
    (withoutTrailingZeros text).length ≤ text.length := by
  obtain ⟨count, whole⟩ := withoutTrailingZeros_append text
  have lengths := congrArg List.length whole
  rw [List.length_append] at lengths
  omega

theorem isDigits_withoutTrailingZeros {text : List Char} (valid : isDigits text = true) :
    isDigits (withoutTrailingZeros text) = true := by
  obtain ⟨count, whole⟩ := withoutTrailingZeros_append text
  rw [whole] at valid
  exact (isDigits_append.mp valid).1

/-- `ParseIntError`. -/
inductive ParseIntError where
  | Empty
  | InvalidDigit
  | PosOverflow
  | NegOverflow
deriving DecidableEq, Repr

/-- The text of a parse error. -/
def ParseIntError.toString : ParseIntError → String
  | .Empty => "cannot parse integer from empty string"
  | .InvalidDigit => "invalid digit found in string"
  | .PosOverflow => "number too large to fit in target type"
  | .NegOverflow => "number too small to fit in target type"

/-- The digits behind the sign, below a bound. -/
def parseDigits (bound : Nat) (overflow : ParseIntError) : Nat → List Char →
    Except ParseIntError Nat
  | number, [] => .ok number
  | number, char :: rest =>
      if char.isDigit then
        if 10 * number + (char.toNat - 48) < bound then
          parseDigits bound overflow (10 * number + (char.toNat - 48)) rest
        else .error overflow
      else .error .InvalidDigit

/-- `parse` of an unsigned type of this many values. -/
def parseUnsigned (bound : Nat) : List Char → Except ParseIntError Nat
  | [] => .error .Empty
  | ['+'] => .error .InvalidDigit
  | '+' :: digits => parseDigits bound .PosOverflow 0 digits
  | digits => parseDigits bound .PosOverflow 0 digits

/-- `parse` of a signed type with this many values on either side of zero. -/
def parseSigned (bound : Nat) : List Char → Except ParseIntError Int
  | [] => .error .Empty
  | ['+'] | ['-'] => .error .InvalidDigit
  | '+' :: digits => (parseDigits bound .PosOverflow 0 digits).map Int.ofNat
  | '-' :: digits => (parseDigits (bound + 1) .NegOverflow 0 digits).map fun number => -number
  | digits => (parseDigits bound .PosOverflow 0 digits).map Int.ofNat

theorem parseDigits_eq_ok {bound number result : Nat} {overflow : ParseIntError}
    {digits : List Char} (small : number < bound) :
    parseDigits bound overflow number digits = .ok result ↔
      isDigits digits = true ∧ number * 10 ^ digits.length + value digits = result ∧
        result < bound := by
  induction digits generalizing number with
  | nil =>
      simp only [parseDigits, Except.ok.injEq, isDigits_nil, List.length_nil, pow_zero, mul_one,
        value_nil, add_zero, true_and]
      constructor
      · rintro rfl
        exact ⟨rfl, small⟩
      · exact fun both => both.1
  | cons char digits ih =>
      have whole : value (char :: digits) =
          (char.toNat - 48) * 10 ^ digits.length + value digits := by
        rw [← List.singleton_append, value_append, value_singleton]
      have power : 10 ^ (digits.length + 1) = 10 * 10 ^ digits.length := by ring
      have grows : 1 ≤ 10 ^ digits.length := Nat.one_le_pow _ _ (by decide)
      by_cases digit : char.isDigit = true
      · by_cases fits : 10 * number + (char.toNat - 48) < bound
        · rw [parseDigits, if_pos digit, if_pos fits, ih fits, isDigits_cons, whole,
            List.length_cons, power]
          have same : (10 * number + (char.toNat - 48)) * 10 ^ digits.length + value digits =
              number * (10 * 10 ^ digits.length) +
                ((char.toNat - 48) * 10 ^ digits.length + value digits) := by ring
          rw [same]
          simp [digit]
        · rw [parseDigits, if_pos digit, if_neg fits, whole, List.length_cons, power]
          simp only [reduceCtorEq, false_iff, not_and, not_lt]
          rintro - rfl
          nlinarith
      · rw [parseDigits, if_neg digit]
        simp [digit]

/-- Digits are read as what they denote, where it fits. -/
theorem parseUnsigned_digits {bound : Nat} {digits : List Char} (valid : isDigits digits = true)
    (some : digits ≠ []) (fits : value digits < bound) :
    parseUnsigned bound digits = .ok (value digits) := by
  have read : parseDigits bound .PosOverflow 0 digits = .ok (value digits) :=
    (parseDigits_eq_ok (by omega)).mpr ⟨valid, by simp, fits⟩
  unfold parseUnsigned
  split
  · exact absurd rfl some
  · simp [isDigits] at valid
  · simp [isDigits] at valid
  · exact read

/-- What is read is digits, perhaps behind a sign. -/
theorem parseUnsigned_eq_ok {bound number : Nat} {text : List Char} (positive : 0 < bound) :
    parseUnsigned bound text = .ok number ↔ ∃ digits, (text = digits ∨ text = '+' :: digits) ∧
      digits ≠ [] ∧ isDigits digits = true ∧ value digits = number ∧ number < bound := by
  constructor
  · intro read
    unfold parseUnsigned at read
    split at read
    · cases read
    · cases read
    · rename_i digits notEmpty
      obtain ⟨valid, denotes, small⟩ := (parseDigits_eq_ok positive).mp read
      refine ⟨digits, .inr rfl, ?_, valid, by simpa using denotes, small⟩
      rintro rfl
      exact notEmpty rfl
    · rename_i notEmpty _ _
      obtain ⟨valid, denotes, small⟩ := (parseDigits_eq_ok positive).mp read
      exact ⟨text, .inl rfl, fun empty => notEmpty empty, valid, by simpa using denotes, small⟩
  · rintro ⟨digits, rfl | rfl, some, valid, rfl, small⟩
    · exact parseUnsigned_digits valid some small
    · have read : parseDigits bound .PosOverflow 0 digits = .ok (value digits) :=
        (parseDigits_eq_ok positive).mpr ⟨valid, by simp, small⟩
      cases digits with
      | nil => exact absurd rfl some
      | cons char rest => simpa [parseUnsigned] using read

end Decimal
