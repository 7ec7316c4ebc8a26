import AtomicSwaps.Basic
import AtomicSwaps.Data.Trimming

/-!
# Text and numbers of the app

White space, hexadecimal text and decimal numbers as Qt, JavaScript and the header
`offer_venue.h` read them. They differ in what counts as white space; letters are folded
in the ASCII range, beyond which no hexadecimal text goes.
-/

namespace AtomicSwaps.Ui

open Trimming (trim)

/-- The separators of Unicode. -/
def isSeparator (char : Char) : Bool :=
  char.toNat ∈ [0x20, 0xA0, 0x1680, 0x2028, 0x2029, 0x202F, 0x205F, 0x3000] ∨
    (0x2000 ≤ char.toNat ∧ char.toNat ≤ 0x200A)

/-- The white space of C. -/
def cSpace (char : Char) : Bool :=
  char.toNat = 0x20 ∨ (0x09 ≤ char.toNat ∧ char.toNat ≤ 0x0D)

/-- `QChar::isSpace`. -/
def qtSpace (char : Char) : Bool := isSeparator char || cSpace char || char.toNat = 0x85

/-- What `String.prototype.trim` removes. -/
def jsSpace (char : Char) : Bool := isSeparator char || cSpace char || char.toNat = 0xFEFF

/-- A text without one leading `0x`. -/
def withoutHexPrefix : List Char → List Char
  | '0' :: 'x' :: rest => rest
  | '0' :: 'X' :: rest => rest
  | text => text

/-- Trimmed, without prefix, in lower case. -/
def normalHex (space : Char → Bool) (text : String) : List Char :=
  (withoutHexPrefix (trim space text.toList)).map Char.toLower

/-- A digit of either case. -/
def isHexDigit (char : Char) : Bool :=
  char.isDigit ∨ ('a' ≤ char ∧ char ≤ 'f') ∨ ('A' ≤ char ∧ char ≤ 'F')

/-- `isHexBytes`: exactly that many bytes of hexadecimal text. -/
def isHexBytes (space : Char → Bool) (text : String) (bytes : Nat) : Bool :=
  (normalHex space text).length = 2 * bytes ∧ (normalHex space text).all isHexDigit

/-- The number a sequence of decimal digits denotes. -/
def decimalValue (digits : List Char) : Nat :=
  digits.foldl (fun value digit => 10 * value + (digit.toNat - 48)) 0

/-- Decimal digits, at least one. -/
def natural? (text : List Char) : Option Nat :=
  if text ≠ [] ∧ text.all Char.isDigit then some (decimalValue text) else none

/-- A number with its sign in front, if it has one. -/
def integer? : List Char → Option Int
  | '-' :: rest => (natural? rest).map fun value => -value
  | '+' :: rest => (natural? rest).map Int.ofNat
  | text => (natural? text).map Int.ofNat

/-- `QString::toLongLong` with its check. -/
def toLongLong? (text : String) : Option Int :=
  (integer? (trim qtSpace text.toList)).filter fun value => -2 ^ 63 ≤ value ∧ value < 2 ^ 63

/-- `isPositiveInteger`. -/
def isPositiveInteger (text : String) : Bool := (toLongLong? text).any (0 < ·)

/-- Whether `mantissa / 10 ^ places` rounds to a double above zero. -/
def roundsAboveZero (mantissa places : Nat) : Bool := 10 ^ places < mantissa * 2 ^ 1075

/-- Whether `mantissa / 10 ^ places` rounds to a finite double. -/
def roundsToFinite (mantissa places : Nat) : Bool :=
  mantissa < 10 ^ places * (2 ^ 1024 - 2 ^ 970)

/-- The two sides of the first character that is asked for, if there is one. -/
def splitAtFirst (here : Char → Bool) (text : List Char) : List Char × Option (List Char) :=
  match text.dropWhile (fun char => !here char) with
  | [] => (text, none)
  | _ :: rest => (text.takeWhile (fun char => !here char), some rest)

/-- `isPositiveDecimal`. -/
def isPositiveDecimal (text : String) : Bool :=
  match splitAtFirst (· == '.') (trim qtSpace text.toList) with
  | (whole, none) => (natural? whole).any fun value =>
      roundsAboveZero value 0 && roundsToFinite value 0
  | (whole, some fraction) =>
      match natural? whole, natural? fraction with
      | some _, some _ =>
          let mantissa := decimalValue (whole ++ fraction)
          roundsAboveZero mantissa fraction.length && roundsToFinite mantissa fraction.length
      | _, _ => false

/-- `StrUnsignedDecimalLiteral` without exponent: the digits, and how many of them follow the
point. -/
def jsDecimal? (text : List Char) : Option (Nat × Nat) :=
  match splitAtFirst (· == '.') text with
  | (whole, none) => (natural? whole).map fun value => (value, 0)
  | (whole, some fraction) => (natural? (whole ++ fraction)).map fun value => (value, fraction.length)

/-- Whether an unsigned literal of JavaScript denotes a number above zero. -/
def jsUnsignedPositive (text : List Char) : Bool :=
  text == "Infinity".toList ||
    match splitAtFirst (fun char => char == 'e' || char == 'E') text with
    | (decimal, none) => (jsDecimal? decimal).any fun (mantissa, places) =>
        roundsAboveZero mantissa places
    | (decimal, some exponent) =>
        match jsDecimal? decimal, integer? exponent with
        | some (mantissa, places), some exponent =>
            roundsAboveZero (mantissa * 10 ^ exponent.toNat) (places + (-exponent).toNat)
        | _, _ => false

/-- A literal of another base denotes a number above zero. -/
def jsRadixPositive (digit : Char → Bool) (text : List Char) : Bool :=
  text.all digit && text.any (· != '0')

/-- `Number(text) > 0`. -/
def jsPositive (text : String) : Bool :=
  match trim jsSpace text.toList with
  | '0' :: 'x' :: rest | '0' :: 'X' :: rest => jsRadixPositive isHexDigit rest
  | '0' :: 'o' :: rest | '0' :: 'O' :: rest =>
      jsRadixPositive (fun char => '0' ≤ char ∧ char ≤ '7') rest
  | '0' :: 'b' :: rest | '0' :: 'B' :: rest =>
      jsRadixPositive (fun char => char == '0' || char == '1') rest
  | '-' :: _ => false
  | '+' :: rest | rest => jsUnsignedPositive rest

example : jsPositive " 150 " ∧ jsPositive "2e3" ∧ ¬ jsPositive "1e-400" ∧ ¬ jsPositive "" ∧
    ¬ jsPositive "0x00" := by
  decide +kernel

end AtomicSwaps.Ui
