import AtomicSwaps.Basic
import AtomicSwaps.Data.Decimal
import AtomicSwaps.Data.Trimming
import AtomicSwaps.Data.Utf8
import Mathlib.Algebra.Order.Floor.Semifield
import Mathlib.Data.Rat.Floor

/-!
# Amounts of ETH as text

`eth_to_wei` and `wei_to_eth_string` of `src/config.rs`, and the decimal number that a text
denotes.
-/

namespace AtomicSwaps.Swap

open Decimal
open Trimming (isWhitespace strTrim)

/-- The text before and after the first point; there is no fraction without one. -/
def splitPoint (text : List Char) : List Char × List Char :=
  (text.takeWhile fun char => !(char = '.'), (text.dropWhile fun char => !(char = '.')).tail)

/-- The integer of a part of the amount, which may be empty. -/
def parsePart (text : List Char) : Except ParseIntError Nat :=
  if text = [] then .ok 0 else parseUnsigned (2 ^ 128) text

/-- `frac_padded`: the fraction, cut at 18 bytes; `none` where slicing panics. -/
def fracPadded (fracPart : List Char) : Option (List Char) :=
  if 18 < Utf8.size fracPart then Utf8.slice 18 fracPart else some fracPart

/-- `format!("{:0<18}")` of the cut fraction, which is not padded when it is empty. -/
def padFraction (cut : List Char) : List Char := if cut = [] then [] else padRight 18 cut

/-- `eth_to_wei`; `none` where it panics. -/
def ethToWei (s : String) : Option (Except String U128) :=
  let (intPart, fracPart) := splitPoint (strTrim s.toList)
  match parsePart intPart with
  | .error e => some (.error s!"invalid ETH amount: {e.toString}")
  | .ok intVal =>
      match fracPadded fracPart with
      | none => none
      | some cut =>
          match parsePart (padFraction cut) with
          | .error e => some (.error s!"invalid ETH amount fraction: {e.toString}")
          | .ok fracVal => some (.ok
              (BitVec.ofNat 128 intVal * 1000000000000000000 + BitVec.ofNat 128 fracVal))

/-- `wei_to_eth_string`. -/
def weiToEthString (wei : U128) : String :=
  let whole := wei.toNat / 1000000000000000000
  let frac := wei.toNat % 1000000000000000000
  if frac = 0 then String.ofList (numeral whole)
  else String.ofList (numeral whole ++ '.' :: withoutTrailingZeros (padLeft 18 (numeral frac)))

/-- The parts of a decimal number: digits, then perhaps a point and more digits. -/
def amountParts? (s : String) : Option (List Char × List Char) :=
  let (intPart, fracPart) := splitPoint (strTrim s.toList)
  if isDigits intPart && isDigits fracPart then some (intPart, fracPart) else none

/-- The decimal number of some parts. -/
def amountValue (parts : List Char × List Char) : ℚ :=
  value parts.1 + value parts.2 / 10 ^ parts.2.length

/-- The wei of some parts: eighteen places of the fraction, the others dropped. -/
def partsWei (parts : List Char × List Char) : Nat :=
  value parts.1 * 10 ^ 18 + value (padRight 18 (parts.2.take 18))

theorem isDigit_not_whitespace {char : Char} (digit : char.isDigit = true) :
    isWhitespace char = false := by
  have bounds := Char.isDigit_iff_toNat.mp digit
  have zero : '0'.toNat = 48 := rfl
  have nine : '9'.toNat = 57 := rfl
  simp only [isWhitespace, List.mem_cons, List.not_mem_nil, or_false, decide_eq_false_iff_not]
  omega

theorem isDigit_ne_point {char : Char} (digit : char.isDigit = true) : char ≠ '.' := by
  rintro rfl
  revert digit
  decide

theorem isDigit_isAscii {char : Char} (digit : char.isDigit = true) : Utf8.isAscii char = true := by
  have bounds := Char.isDigit_iff_toNat.mp digit
  have nine : '9'.toNat = 57 := rfl
  rw [Utf8.isAscii, decide_eq_true_eq]
  omega

theorem splitPoint_point {intPart fracPart : List Char} (noPoint : ∀ char ∈ intPart, char ≠ '.') :
    splitPoint (intPart ++ '.' :: fracPart) = (intPart, fracPart) := by
  have passed : ∀ char ∈ intPart, (!decide (char = '.')) = true := by simpa using noPoint
  rw [splitPoint, List.takeWhile_append_of_pos passed, List.dropWhile_append_of_pos passed]
  simp

theorem splitPoint_none {text : List Char} (noPoint : ∀ char ∈ text, char ≠ '.') :
    splitPoint text = (text, []) := by
  have passed : ∀ char ∈ text, (!decide (char = '.')) = true := by simpa using noPoint
  rw [splitPoint, List.takeWhile_eq_self_iff.mpr passed, List.dropWhile_eq_nil_iff.mpr passed]
  rfl

/-- A text is its parts. -/
theorem splitPoint_eq {text intPart fracPart : List Char}
    (split : splitPoint text = (intPart, fracPart)) :
    (∀ char ∈ intPart, char ≠ '.') ∧
      (text = intPart ++ '.' :: fracPart ∨ text = intPart ∧ fracPart = []) := by
  simp only [splitPoint, Prod.mk.injEq] at split
  obtain ⟨rfl, rfl⟩ := split
  refine ⟨fun char member => by simpa using List.mem_takeWhile_imp member, ?_⟩
  have whole : text.takeWhile (fun char => !decide (char = '.')) ++
      text.dropWhile (fun char => !decide (char = '.')) = text := List.takeWhile_append_dropWhile
  cases rest : text.dropWhile (fun char => !decide (char = '.')) with
  | nil =>
      rw [rest, List.append_nil] at whole
      exact .inr ⟨whole.symm, rfl⟩
  | cons char fracPart =>
      left
      have stops := List.head?_dropWhile_not (fun char => !decide (char = '.')) text
      rw [rest] at stops whole
      obtain rfl : char = '.' := by simpa using stops
      exact whole.symm

theorem parsePart_digits {text : List Char} (digits : isDigits text = true)
    (fits : value text < 2 ^ 128) : parsePart text = .ok (value text) := by
  by_cases empty : text = []
  · subst empty
    rfl
  · rw [parsePart, if_neg empty, parseUnsigned_digits digits empty fits]

/-- A fraction of digits is cut without a panic. -/
theorem fracPadded_digits {fracPart : List Char} (digits : isDigits fracPart = true) :
    fracPadded fracPart = some (fracPart.take 18) := by
  have ascii : ∀ char ∈ fracPart, Utf8.isAscii char = true := by
    intro char member
    exact isDigit_isAscii (List.all_eq_true.mp digits char member)
  rw [fracPadded, Utf8.size_ascii ascii]
  split
  · rename_i long
    exact Utf8.slice_ascii ascii (Nat.le_of_lt long)
  · rename_i short
    rw [List.take_of_length_le (by omega)]

theorem value_padFraction (cut : List Char) : value (padFraction cut) = value (padRight 18 cut) := by
  rw [padFraction]
  split
  · rename_i empty
    subst empty
    simp [value_padRight]
  · rfl

/-- Eighteen digits are below `10 ^ 18`. -/
theorem value_fraction_lt {fracPart : List Char} (digits : isDigits fracPart = true) :
    value (padRight 18 (fracPart.take 18)) < 10 ^ 18 := by
  have cut : isDigits (fracPart.take 18) = true :=
    isDigits_of_subset digits fun char member => List.mem_of_mem_take member
  have short : (fracPart.take 18).length ≤ 18 := by
    rw [List.length_take]
    omega
  have small := value_lt (isDigits_padRight.mpr cut : isDigits (padRight 18 _) = true)
  rwa [length_padRight short] at small

/-- The sum of the two parts wraps like the numbers do. -/
theorem weiOfParts (intVal fracVal : Nat) :
    BitVec.ofNat 128 intVal * 1000000000000000000 + BitVec.ofNat 128 fracVal =
      BitVec.ofNat 128 (intVal * 10 ^ 18 + fracVal) := by
  have unit : (10 : Nat) ^ 18 = 1000000000000000000 := by norm_num
  rw [unit, BitVec.ofNat_add, BitVec.ofNat_mul]
  rfl

/-- A text of digits is converted to its wei, which wrap around past `u128`. -/
theorem ethToWei_digits {s : String} {parts : List Char × List Char}
    (split : amountParts? s = some parts) (fits : value parts.1 < 2 ^ 128) :
    ethToWei s = some (.ok (BitVec.ofNat 128 (partsWei parts))) := by
  obtain ⟨intPart, fracPart⟩ := parts
  simp only [amountParts?, Option.ite_none_right_eq_some, Bool.and_eq_true, Option.some.injEq,
    Prod.mk.injEq] at split
  obtain ⟨⟨intDigits, fracDigits⟩, rfl, rfl⟩ := split
  have cut : isDigits ((splitPoint (strTrim s.toList)).2.take 18) = true :=
    isDigits_of_subset fracDigits fun char member => List.mem_of_mem_take member
  have padded : isDigits (padFraction ((splitPoint (strTrim s.toList)).2.take 18)) = true := by
    rw [padFraction]
    split
    · rfl
    · exact isDigits_padRight.mpr cut
  have small := value_fraction_lt fracDigits
  have whole := parsePart_digits intDigits fits
  have fraction := parsePart_digits padded (by rw [value_padFraction]; omega)
  simp only [ethToWei, whole, fracPadded_digits fracDigits, fraction, value_padFraction]
  rw [weiOfParts, partsWei]

/-- A whole part that is read: digits that fit, and in front of some digits perhaps a sign. -/
def ReadableWhole (text : List Char) : Prop :=
  ∃ digits, isDigits digits = true ∧ value digits < 2 ^ 128 ∧
    (text = digits ∨ text = '+' :: digits ∧ digits ≠ [])

/-- A fraction that is read once it is cut: digits, perhaps behind a sign. -/
def ReadableFraction (text : List Char) : Prop :=
  ∃ digits, isDigits digits = true ∧ (text = digits ∨ text = '+' :: digits)

/-- The first characters of a text that fill eighteen bytes, or a text that does not. -/
def CutAt18 (cut text : List Char) : Prop :=
  cut = text ∧ Utf8.size text ≤ 18 ∨ cut <+: text ∧ Utf8.size cut = 18

/-- The whole part is not one that is read, or the fraction is not up to its eighteenth byte. -/
def Rejected (parts : List Char × List Char) : Prop :=
  ¬ ReadableWhole parts.1 ∨ ∃ cut, CutAt18 cut parts.2 ∧ ¬ ReadableFraction cut

/-- A part is read exactly when it is empty or an unsigned integer, signed or not, that fits. -/
theorem parsePart_error_iff {text : List Char} :
    (∃ e, parsePart text = .error e) ↔ ¬ ReadableWhole text := by
  have read : (∃ number, parsePart text = .ok number) ↔ ReadableWhole text := by
    rw [parsePart]
    split
    · rename_i empty
      simp only [Except.ok.injEq, exists_eq', true_iff]
      exact ⟨[], rfl, by decide, .inl empty⟩
    · rename_i some
      simp only [parseUnsigned_eq_ok (show 0 < 2 ^ 128 by decide)]
      constructor
      · rintro ⟨_, digits, shape, notEmpty, valid, rfl, fits⟩
        exact ⟨digits, valid, fits, shape.imp id fun signed => ⟨signed, notEmpty⟩⟩
      · rintro ⟨digits, valid, fits, rfl | ⟨signed, notEmpty⟩⟩
        · exact ⟨_, text, .inl rfl, some, valid, rfl, fits⟩
        · exact ⟨_, digits, .inr signed, notEmpty, valid, rfl, fits⟩
  rw [← read]
  cases parsePart text <;> simp

/-- The zeros behind a cut leave it readable, or not. -/
theorem readableWhole_padFraction {cut : List Char} (short : Utf8.size cut ≤ 18) :
    ReadableWhole (padFraction cut) ↔ ReadableFraction cut := by
  have width : cut.length ≤ 18 := (Utf8.length_le_size cut).trans short
  rw [padFraction]
  split
  · rename_i empty
    subst empty
    exact ⟨fun _ => ⟨[], rfl, .inl rfl⟩, fun _ => ⟨[], rfl, by decide, .inl rfl⟩⟩
  · rename_i some
    constructor
    · rintro ⟨digits, valid, fits, same | ⟨signed, notEmpty⟩⟩
      · subst same
        exact ⟨cut, isDigits_padRight.mp valid, .inl rfl⟩
      · obtain ⟨char, rest, rfl⟩ := List.exists_cons_of_ne_nil some
        obtain ⟨rfl, same⟩ := List.cons.inj signed
        rw [← same, List.append_eq, isDigits_append] at valid
        exact ⟨rest, valid.1, .inr rfl⟩
    · rintro ⟨digits, valid, rfl | rfl⟩
      · have small := value_lt (isDigits_padRight.mpr valid : isDigits (padRight 18 _) = true)
        rw [length_padRight width] at small
        exact ⟨_, isDigits_padRight.mpr valid, small.trans (by decide), .inl rfl⟩
      · have zeros : isDigits (digits ++ List.replicate (17 - digits.length) '0') = true :=
          isDigits_append.mpr ⟨valid, isDigits_replicate_zero⟩
        have places : (digits ++ List.replicate (17 - digits.length) '0').length = 17 := by
          rw [List.length_cons] at width
          rw [List.length_append, List.length_replicate]
          omega
        have small := value_lt zeros
        rw [places] at small
        refine ⟨_, zeros, small.trans (by decide), .inr ⟨?_, ?_⟩⟩
        · simp [padRight]
        · intro none
          rw [none] at places
          cases places

/-- The cut, where slicing does not panic. -/
theorem fracPadded_eq_some {fracPart cut : List Char} :
    fracPadded fracPart = some cut ↔ CutAt18 cut fracPart := by
  rw [fracPadded, CutAt18]
  split
  · rename_i long
    rw [Utf8.slice_eq_some]
    constructor
    · exact .inr
    · rintro (⟨-, short⟩ | sliced)
      · exact absurd short (Nat.not_le.mpr long)
      · exact sliced
  · rename_i short
    constructor
    · intro same
      exact .inl ⟨(Option.some.inj same).symm, Nat.not_lt.mp short⟩
    · rintro (⟨rfl, -⟩ | ⟨front, full⟩)
      · rfl
      · obtain ⟨rest, rfl⟩ := front
        rw [Utf8.size_append, full] at short
        have none := Utf8.size_eq_zero.mp (show Utf8.size rest = 0 by omega)
        rw [none, List.append_nil]

theorem CutAt18.short {cut text : List Char} (cuts : CutAt18 cut text) : Utf8.size cut ≤ 18 := by
  rcases cuts with ⟨rfl, short⟩ | ⟨-, full⟩
  · exact short
  · exact Nat.le_of_eq full

/-- An error is for a rejected part. -/
theorem ethToWei_error_iff {s : String} :
    (∃ message, ethToWei s = some (.error message)) ↔ Rejected (splitPoint (strTrim s.toList)) := by
  have failed : (∃ message, ethToWei s = some (.error message)) ↔
      (∃ e, parsePart (splitPoint (strTrim s.toList)).1 = .error e) ∨
        ∃ cut e, fracPadded (splitPoint (strTrim s.toList)).2 = some cut ∧
          parsePart (padFraction cut) = .error e := by
    simp only [ethToWei]
    cases parsePart (splitPoint (strTrim s.toList)).1 with
    | error e => simp
    | ok intVal =>
        cases fracPadded (splitPoint (strTrim s.toList)).2 with
        | none => simp
        | some cut => cases read : parsePart (padFraction cut) <;> simp [read]
  rw [failed, Rejected, parsePart_error_iff]
  simp only [exists_and_left, parsePart_error_iff, fracPadded_eq_some]
  refine or_congr_right (exists_congr fun cut => and_congr_right fun cuts => ?_)
  rw [readableWhole_padFraction cuts.short]

theorem amountParts?_eq_some {s : String} {parts : List Char × List Char} :
    amountParts? s = some parts ↔ splitPoint (strTrim s.toList) = parts ∧
      isDigits parts.1 = true ∧ isDigits parts.2 = true := by
  simp only [amountParts?, Option.ite_none_right_eq_some, Bool.and_eq_true, Option.some.injEq]
  constructor
  · rintro ⟨digits, rfl⟩
    exact ⟨rfl, digits⟩
  · rintro ⟨rfl, digits⟩
    exact ⟨digits, rfl⟩

/-- The wei of an amount are its value in wei, rounded down. -/
theorem floor_amountValue {parts : List Char × List Char} (digits : isDigits parts.2 = true) :
    ⌊amountValue parts * 10 ^ 18⌋₊ = partsWei parts := by
  obtain ⟨intPart, fracPart⟩ := parts
  have scaled : amountValue (intPart, fracPart) * 10 ^ 18 =
      ((value intPart * 10 ^ 18 : ℕ) : ℚ) + ((value fracPart * 10 ^ 18 : ℕ) : ℚ) /
        ((10 ^ fracPart.length : ℕ) : ℚ) := by
    simp only [amountValue]
    push_cast
    ring
  have fraction : value (padRight 18 (fracPart.take 18)) =
      value fracPart * 10 ^ 18 / 10 ^ fracPart.length := by
    rw [value_padRight, List.length_take, value_take digits]
    by_cases short : fracPart.length ≤ 18
    · have shift : (10 : ℕ) ^ 18 = 10 ^ (18 - fracPart.length) * 10 ^ fracPart.length := by
        rw [← pow_add]
        congr 1
        omega
      rw [min_eq_right short, Nat.sub_eq_zero_of_le short, pow_zero, Nat.div_one, shift,
        ← mul_assoc, Nat.mul_div_cancel _ (by positivity)]
    · have shift : 10 ^ fracPart.length = 10 ^ (fracPart.length - 18) * 10 ^ 18 := by
        rw [← pow_add]
        congr 1
        omega
      rw [min_eq_left (by omega), Nat.sub_self, pow_zero, mul_one, shift,
        Nat.mul_div_mul_right _ _ (by positivity)]
  rw [scaled, add_comm, Nat.floor_add_natCast (by positivity), Nat.floor_div_eq_div, add_comm,
    partsWei, fraction]

/-- An amount written with a whole part and eighteen places, stripped of the zeros behind, is
converted to what it was written for. -/
theorem ethToWei_written {whole places : List Char} (wholeDigits : isDigits whole = true)
    (placesDigits : isDigits places = true) (width : places.length = 18)
    (fits : value whole < 2 ^ 128) :
    ethToWei (String.ofList (if withoutTrailingZeros places = [] then whole
        else whole ++ '.' :: withoutTrailingZeros places)) =
      some (.ok (BitVec.ofNat 128 (value whole * 10 ^ 18 + value places))) := by
  have stripped := isDigits_withoutTrailingZeros placesDigits
  have short := length_withoutTrailingZeros_le places
  have restored := padRight_withoutTrailingZeros width
  have noPoint : ∀ char ∈ whole, char ≠ '.' := fun char member =>
    isDigit_ne_point (List.all_eq_true.mp wholeDigits char member)
  have split : amountParts? (String.ofList (if withoutTrailingZeros places = [] then whole
      else whole ++ '.' :: withoutTrailingZeros places)) =
      some (whole, withoutTrailingZeros places) := by
    have solid : ∀ char ∈ (if withoutTrailingZeros places = [] then whole
        else whole ++ '.' :: withoutTrailingZeros places), isWhitespace char = false := by
      intro char member
      split at member
      · exact isDigit_not_whitespace (List.all_eq_true.mp wholeDigits char member)
      · rcases List.mem_append.mp member with before | after
        · exact isDigit_not_whitespace (List.all_eq_true.mp wholeDigits char before)
        · rcases List.mem_cons.mp after with rfl | behind
          · decide
          · exact isDigit_not_whitespace (List.all_eq_true.mp stripped char behind)
    rw [amountParts?_eq_some, String.toList_ofList, strTrim, Trimming.trim_solid solid]
    refine ⟨?_, wholeDigits, stripped⟩
    split
    · rename_i empty
      rw [splitPoint_none noPoint, empty]
    · exact splitPoint_point noPoint
  have cut : (withoutTrailingZeros places).take 18 = withoutTrailingZeros places :=
    List.take_of_length_le (by omega)
  rw [ethToWei_digits split fits]
  simp only [partsWei, cut, restored]

/-- What is written for some wei is converted back to them. -/
theorem ethToWei_weiToEthString (wei : U128) : ethToWei (weiToEthString wei) = some (.ok wei) := by
  have unit : (10 : ℕ) ^ 18 = 1000000000000000000 := by norm_num
  have bound : wei.toNat % 1000000000000000000 < 10 ^ 18 := by
    rw [unit]
    exact Nat.mod_lt _ (by decide)
  have short : (numeral (wei.toNat % 1000000000000000000)).length ≤ 18 :=
    (Nat.length_toDigits_le_iff (by decide) (by decide)).mpr bound
  have small := wei.isLt
  have whole : wei.toNat / 1000000000000000000 * 10 ^ 18 + wei.toNat % 1000000000000000000 =
      wei.toNat := by
    rw [unit]
    omega
  have fits : value (numeral (wei.toNat / 1000000000000000000)) < 2 ^ 128 := by
    rw [value_numeral]
    omega
  have written := ethToWei_written (isDigits_numeral _) (isDigits_padLeft.mpr (isDigits_numeral _))
    (length_padLeft short) fits
  rw [value_numeral, value_padLeft, value_numeral, whole, BitVec.ofNat_toNat,
    BitVec.setWidth_eq] at written
  have same : weiToEthString wei = String.ofList
      (if withoutTrailingZeros (padLeft 18 (numeral (wei.toNat % 1000000000000000000))) = [] then
        numeral (wei.toNat / 1000000000000000000)
      else numeral (wei.toNat / 1000000000000000000) ++
        '.' :: withoutTrailingZeros (padLeft 18 (numeral (wei.toNat % 1000000000000000000)))) := by
    rw [weiToEthString]
    by_cases none : wei.toNat % 1000000000000000000 = 0
    · have empty : withoutTrailingZeros (padLeft 18 (numeral 0)) = [] := by decide
      rw [if_pos none, none, if_pos empty]
    · have some : withoutTrailingZeros
          (padLeft 18 (numeral (wei.toNat % 1000000000000000000))) ≠ [] := by
        intro empty
        have restored := padRight_withoutTrailingZeros (length_padLeft short)
        rw [empty] at restored
        have denotes := congrArg value restored
        rw [value_padLeft, value_numeral, value_padRight, value_nil, Nat.zero_mul] at denotes
        exact none denotes.symm
      rw [if_neg none, if_neg some]
  rw [same]
  exact written

end AtomicSwaps.Swap
