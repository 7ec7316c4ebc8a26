import AtomicSwaps.Module.DeliveryCache
import AtomicSwaps.Ui.Number

/-!
# The gates of an offer

An offer passes three checks on its way to a taker, each written on its own: the adapter's
`swapDeliveryOfferIsWellFormed`, the board's `offerWellFormed` and `offerVenueOk`, and the
`checkOfferVenue` of `offer_venue.h` when it is accepted. The first two look at a JSON object with
values of any kind; here they are side by side on one object, as Qt and as JavaScript see it.
-/

namespace AtomicSwaps.Ui

open Module (JsonValue JsonObject strOf isHexText positiveNumber positiveInteger
  swapDeliveryOfferIsWellFormed)
open Trimming (trim Solid)

/-- A JSON number, as `QVariant` and as JavaScript write it: shorter than any address, and both
above zero or neither. -/
structure JsonNumber where
  qtText : String
  jsText : String
  qtShort : qtText.length ≤ 24
  jsShort : jsText.length ≤ 25
  qtPlain : ∀ c ∈ qtText.toList, c.isDigit = true ∨ c ∈ ['+', '-', '.', 'e']
  sign : (jsNumber qtText).positive = (jsNumber jsText).positive

/-- The value of a field. Objects are those without a `toString` of their own; with one, `String`
throws before a gate has an answer. -/
inductive FieldValue where
  | null
  | bool (value : Bool)
  | number (value : JsonNumber)
  | string (text : String)
  | array (items : List FieldValue)
  | object

/-- An offer as a JSON object. -/
abbrev OfferObject := String → Option FieldValue

mutual

/-- `String(value)`. -/
def FieldValue.jsString : FieldValue → String
  | .null => "null"
  | .bool value => if value then "true" else "false"
  | .number value => value.jsText
  | .string text => text
  | .array items => joined items
  | .object => "[object Object]"

/-- `Array.prototype.join`: an item that is null is left empty. -/
def joined : List FieldValue → String
  | [] => ""
  | [.null] => ""
  | [item] => item.jsString
  | .null :: rest => "," ++ joined rest
  | item :: rest => item.jsString ++ "," ++ joined rest

end

/-- `Number(value) > 0`. -/
def FieldValue.aboveZero : FieldValue → Bool
  | .null | .object => false
  | .bool value => value
  | .number value => (jsNumber value.jsText).positive
  | .string text => (jsNumber text).positive
  | .array items => (jsNumber (joined items)).positive

/-- The value as a `QJsonValue`. -/
def FieldValue.toQt : FieldValue → JsonValue
  | .bool value => .bool value
  | .number value => .number value.qtText value.qtShort
  | .string text => .string text
  | .null | .array _ | .object => .other

namespace OfferObject

/-- The object as a `QJsonObject`. -/
def toQt (o : OfferObject) : JsonObject := fun key => (o key).map (·.toQt)

/-- The text that `normHex` goes by. -/
def text (o : OfferObject) (key : String) : String :=
  match o key with
  | none | some .null => ""
  | some value => value.jsString

/-- `Number(o[key]) > 0`. -/
def aboveZero (o : OfferObject) (key : String) : Bool := (o key).any (·.aboveZero)

/-- `offerWellFormed`. -/
def offerWellFormed (o : OfferObject) : Bool :=
  isHexBytes jsSpace (o.text "maker_eth_address") 20 &&
    isHexBytes jsSpace (o.text "eth_htlc_address") 20 &&
    isHexBytes jsSpace (o.text "lez_htlc_program_id") 32 &&
    o.aboveZero "lez_amount" && o.aboveZero "eth_amount" &&
    o.aboveZero "lez_timelock" && o.aboveZero "eth_timelock"

/-- `offerVenueOk`. -/
def offerVenueOk (o : OfferObject) (canonicalEth canonicalLez : String) : Bool :=
  (normalHex jsSpace canonicalEth = [] ||
      normalHex jsSpace (o.text "eth_htlc_address") = normalHex jsSpace canonicalEth) &&
    (normalHex jsSpace canonicalLez = [] ||
      normalHex jsSpace (o.text "lez_htlc_program_id") = normalHex jsSpace canonicalLez)

end OfferObject

/-! ## The check when an offer is accepted -/

/-- `normalizeHex`. -/
def normalizeHex (value : String) : List Char := normalHex cSpace value

/-- `hexEquals`. -/
def hexEquals (a b : String) : Bool := normalizeHex a = normalizeHex b

/-- `VenueField`. -/
inductive VenueField where
  | None
  | EthContract
  | LezProgram
deriving DecidableEq

/-- `VenueCheck`. -/
structure VenueCheck where
  ok : Bool
  mismatch : VenueField
  offered : String
  expected : String
deriving DecidableEq

/-- `checkOfferVenue`: a field that the offer omits is no mismatch. -/
def checkOfferVenue (offerEthHtlc canonicalEthHtlc offerLezProgram canonicalLezProgram : String) :
    VenueCheck :=
  if normalizeHex offerEthHtlc ≠ [] ∧ !hexEquals offerEthHtlc canonicalEthHtlc then
    ⟨false, .EthContract, offerEthHtlc, canonicalEthHtlc⟩
  else if normalizeHex offerLezProgram ≠ [] ∧ !hexEquals offerLezProgram canonicalLezProgram then
    ⟨false, .LezProgram, offerLezProgram, canonicalLezProgram⟩
  else ⟨true, .None, "", ""⟩

theorem checkOfferVenue_ok (eth canonicalEth lez canonicalLez : String) :
    (checkOfferVenue eth canonicalEth lez canonicalLez).ok = true ↔
      (normalizeHex eth = [] ∨ normalizeHex eth = normalizeHex canonicalEth) ∧
        (normalizeHex lez = [] ∨ normalizeHex lez = normalizeHex canonicalLez) := by
  unfold checkOfferVenue hexEquals
  split
  · rename_i differs
    simp_all
  split
  · rename_i differs
    simp_all
  · rename_i first second
    simp only [not_and, Bool.not_eq_true', decide_eq_false_iff_not, not_not] at first second
    simp only [or_iff_not_imp_left, true_iff]
    exact ⟨first, second⟩

/-- A canonical value: hexadecimal text that is not empty, with or without its prefix. -/
structure Pin where
  text : String
  some : withoutHexPrefix text.toList ≠ []
  digits : (withoutHexPrefix text.toList).all isHexDigit = true

/-! ## White space -/

/-- A character that leaves a mark, of the ASCII range. -/
def Printable (c : Char) : Prop := 0x21 ≤ c.toNat ∧ c.toNat < 0x7F

theorem Printable.not_js {c : Char} (plain : Printable c) : jsSpace c = false := by
  obtain ⟨low, high⟩ := plain
  simp only [jsSpace, isSeparator, cSpace, List.mem_cons, List.not_mem_nil, or_false,
    Bool.or_eq_false_iff, decide_eq_false_iff_not]
  omega

theorem Printable.not_c {c : Char} (plain : Printable c) : cSpace c = false := by
  obtain ⟨low, high⟩ := plain
  simp only [cSpace, decide_eq_false_iff_not]
  omega

/-- Of the blanks of Qt, JavaScript misses the next line. -/
theorem js_of_qt {c : Char} (blank : qtSpace c = true) (other : c ≠ '\x85') :
    jsSpace c = true := by
  have apart : c.toNat ≠ 0x85 := by
    intro same
    exact other (Char.toNat_inj.mp same)
  simp only [jsSpace, qtSpace, isSeparator, cSpace, List.mem_cons, List.not_mem_nil, or_false,
    Bool.or_eq_true, decide_eq_true_eq] at blank ⊢
  omega

/-- In the ASCII range the blanks of JavaScript are those of C. -/
theorem c_of_js {c : Char} (blank : jsSpace c = true) (ascii : c.toNat < 0x80) :
    cSpace c = true := by
  simp only [jsSpace, isSeparator, cSpace, List.mem_cons, List.not_mem_nil, or_false,
    Bool.or_eq_true, decide_eq_true_eq] at blank ⊢
  omega

theorem cSpace_ascii {c : Char} (blank : cSpace c = true) : c.toNat < 0x80 := by
  simp only [cSpace, decide_eq_true_eq] at blank
  omega

theorem isDigit_printable {c : Char} (digit : c.isDigit = true) : Printable c := by
  have range := Char.isDigit_iff_toNat.mp digit
  have zero : '0'.toNat = 48 := by decide
  have nine : '9'.toNat = 57 := by decide
  unfold Printable
  omega

theorem isHexDigit_printable {c : Char} (digit : isHexDigit c = true) : Printable c := by
  simp only [isHexDigit, decide_eq_true_eq] at digit
  rcases digit with decimal | ⟨low, high⟩ | ⟨low, high⟩
  · exact isDigit_printable decimal
  · exact ⟨le_trans (by decide) (show 'a'.toNat ≤ c.toNat from low),
      lt_of_le_of_lt (show c.toNat ≤ 'f'.toNat from high) (by decide)⟩
  · exact ⟨le_trans (by decide) (show 'A'.toNat ≤ c.toNat from low),
      lt_of_le_of_lt (show c.toNat ≤ 'F'.toNat from high) (by decide)⟩

theorem printable_of_toLower {c : Char} (lower : Printable c.toLower) : Printable c := by
  unfold Char.toLower at lower
  split at lower
  · rename_i upper
    exact ⟨le_trans (by decide) (show 'A'.toNat ≤ c.toNat from upper.1),
      lt_of_le_of_lt (show c.toNat ≤ 'Z'.toNat from upper.2) (by decide)⟩
  · exact lower

theorem withoutHexPrefix_printable {text : List Char}
    (plain : ∀ c ∈ withoutHexPrefix text, Printable c) : ∀ c ∈ text, Printable c := by
  have zero : Printable '0' := by unfold Printable; decide
  have small : Printable 'x' := by unfold Printable; decide
  have big : Printable 'X' := by unfold Printable; decide
  unfold withoutHexPrefix at plain
  split at plain <;> simp_all

/-! ## Numbers -/

/-- A character of a decimal number. -/
def Numeric (c : Char) : Prop := c.isDigit = true ∨ c ∈ ['+', '-', '.', 'e', 'E']

theorem Numeric.printable {c : Char} (numeric : Numeric c) : Printable c := by
  rcases numeric with digit | sign
  · exact isDigit_printable digit
  · simp only [List.mem_cons, List.not_mem_nil, or_false] at sign
    rcases sign with rfl | rfl | rfl | rfl | rfl <;> (unfold Printable; decide)

theorem splitAtFirst_none {here : Char → Bool} {text front : List Char}
    (split : splitAtFirst here text = (front, none)) : front = text := by
  unfold splitAtFirst at split
  split at split <;> simp_all

theorem splitAtFirst_some {here : Char → Bool} {text front rest : List Char}
    (split : splitAtFirst here text = (front, some rest)) :
    ∃ c, here c = true ∧ text = front ++ c :: rest := by
  unfold splitAtFirst at split
  split at split
  · simp at split
  · rename_i c behind dropped
    simp only [Prod.mk.injEq, Option.some.injEq] at split
    obtain ⟨rfl, rfl⟩ := split
    have stop := List.head?_dropWhile_not (fun char => !here char) text
    rw [dropped] at stop
    refine ⟨c, by simpa using stop, ?_⟩
    have whole := List.takeWhile_append_dropWhile (p := fun char => !here char) (l := text)
    rw [dropped] at whole
    exact whole.symm

theorem natural?_digits {text : List Char} {value : Nat} (read : natural? text = some value) :
    ∀ c ∈ text, c.isDigit = true := by
  unfold natural? at read
  split at read
  · rename_i digits
    exact List.all_eq_true.mp digits.2
  · simp at read

theorem jsDecimal?_numeric {text : List Char} {parts : Nat × Nat}
    (read : jsDecimal? text = some parts) : ∀ c ∈ text, c.isDigit = true ∨ c = '.' := by
  unfold jsDecimal? at read
  split at read
  · rename_i whole split
    obtain rfl := splitAtFirst_none split
    obtain ⟨value, digits, -⟩ := Option.map_eq_some_iff.mp read
    exact fun c here => .inl (natural?_digits digits c here)
  · rename_i whole fraction split
    obtain ⟨point, point_eq, rfl⟩ := splitAtFirst_some split
    obtain ⟨value, digits, -⟩ := Option.map_eq_some_iff.mp read
    have digit := natural?_digits digits
    intro c here
    simp only [List.mem_append, List.mem_cons] at here digit
    rcases here with first | rfl | last
    · exact .inl (digit c (.inl first))
    · exact .inr (by simpa using point_eq)
    · exact .inl (digit c (.inr last))

theorem integer?_numeric {text : List Char} {value : Int} (read : integer? text = some value) :
    ∀ c ∈ text, Numeric c := by
  unfold integer? at read
  split at read
  · obtain ⟨value, found, -⟩ := Option.map_eq_some_iff.mp read
    obtain ⟨natural, digits, -⟩ := Option.bind_eq_some_iff.mp found
    rintro c (_ | ⟨_, here⟩)
    · exact .inr (by simp)
    · exact .inl (natural?_digits digits c here)
  · obtain ⟨value, digits, -⟩ := Option.map_eq_some_iff.mp read
    rintro c (_ | ⟨_, here⟩)
    · exact .inr (by simp)
    · exact .inl (natural?_digits digits c here)
  · obtain ⟨value, digits, -⟩ := Option.map_eq_some_iff.mp read
    exact fun c here => .inl (natural?_digits digits c here)

/-- An unsigned decimal number, perhaps with an exponent, that is accepted by its value. -/
def scientific (accept : Nat → Nat → Bool) (text : List Char) : Bool :=
  match splitAtFirst (fun char => char == 'e' || char == 'E') text with
  | (decimal, none) => (jsDecimal? decimal).any fun (mantissa, places) => accept mantissa places
  | (decimal, some exponent) =>
      match jsDecimal? decimal, integer? exponent with
      | some (mantissa, places), some exponent =>
          accept (mantissa * 10 ^ exponent.toNat) (places + (-exponent).toNat)
      | _, _ => false

theorem jsUnsignedPositive_eq (text : List Char) :
    jsUnsignedPositive text =
      (text == "Infinity".toList || scientific roundsAboveZero text) := rfl

theorem jsDecimal?_head {text rest : List Char} {parts : Nat × Nat}
    (read : jsDecimal? text = some parts) {c : Char} (head : (text ++ rest).head? = some c) :
    c.isDigit = true ∨ c = '.' := by
  cases text with
  | nil => simp [jsDecimal?, splitAtFirst, natural?] at read
  | cons d text =>
      obtain rfl : d = c := by simpa using head
      exact jsDecimal?_numeric read d List.mem_cons_self

theorem scientific_numeric {accept : Nat → Nat → Bool} {text : List Char}
    (accepted : scientific accept text = true) :
    (∀ c ∈ text, Numeric c) ∧ ∀ c, text.head? = some c → c.isDigit = true ∨ c = '.' := by
  have decimal_numeric {decimal : List Char} {parts : Nat × Nat}
      (read : jsDecimal? decimal = some parts) : ∀ c ∈ decimal, Numeric c := by
    intro c here
    rcases jsDecimal?_numeric read c here with digit | rfl
    · exact .inl digit
    · exact .inr (by simp)
  unfold scientific at accepted
  split at accepted
  · rename_i decimal split
    obtain rfl := splitAtFirst_none split
    obtain ⟨parts, read, -⟩ := (Option.any_eq_true _ _).mp accepted
    exact ⟨decimal_numeric read, fun c head => jsDecimal?_head read
      (show (decimal ++ []).head? = some c by simpa using head)⟩
  · rename_i decimal exponent split
    obtain ⟨e, e_eq, rfl⟩ := splitAtFirst_some split
    split at accepted
    · rename_i mantissa places value read power
      refine ⟨fun c here => ?_, fun c head => jsDecimal?_head read head⟩
      simp only [List.mem_append, List.mem_cons] at here
      rcases here with first | rfl | last
      · exact decimal_numeric read c first
      · refine .inr ?_
        simp only [Bool.or_eq_true, beq_iff_eq] at e_eq
        rcases e_eq with rfl | rfl <;> simp
      · exact integer?_numeric power c last
    · simp at accepted

theorem scientific_mono {accept more : Nat → Nat → Bool}
    (wider : ∀ mantissa places, accept mantissa places = true → more mantissa places = true)
    {text : List Char} (accepted : scientific accept text = true) :
    scientific more text = true := by
  unfold scientific at accepted ⊢
  split at accepted
  · rename_i decimal split
    cases read : jsDecimal? decimal with
    | none => simp [read] at accepted
    | some parts =>
        simp only [read, Option.any_some] at accepted ⊢
        exact wider _ _ accepted
  · split at accepted
    · exact wider _ _ accepted
    · simp at accepted

/-- `Number(text) > 0` for a text without blanks around it. -/
def positiveCore : List Char → Bool
  | '0' :: 'x' :: rest | '0' :: 'X' :: rest => jsRadixPositive isHexDigit rest
  | '0' :: 'o' :: rest | '0' :: 'O' :: rest =>
      jsRadixPositive (fun char => '0' ≤ char ∧ char ≤ '7') rest
  | '0' :: 'b' :: rest | '0' :: 'B' :: rest =>
      jsRadixPositive (fun char => char == '0' || char == '1') rest
  | '-' :: _ => false
  | '+' :: rest | rest => jsUnsignedPositive rest

theorem jsPositive_eq (text : String) : jsPositive text = positiveCore (trim jsSpace text.toList) :=
  rfl

theorem jsUnsignedPositive_printable {text : List Char} (above : jsUnsignedPositive text = true) :
    ∀ c ∈ text, Printable c := by
  rw [jsUnsignedPositive_eq, Bool.or_eq_true, beq_iff_eq] at above
  rcases above with rfl | decimal
  · intro c here
    have all : "Infinity".toList.all (fun c => 0x21 ≤ c.toNat ∧ c.toNat < 0x7F) = true := by decide
    simpa [Printable] using List.all_eq_true.mp all c here
  · exact fun c here => ((scientific_numeric decimal).1 c here).printable

theorem positiveCore_printable {text : List Char} (above : positiveCore text = true) :
    ∀ c ∈ text, Printable c := by
  have letter {c : Char} (letter : c ∈ "0xXoObB+".toList) : Printable c := by
    have all : "0xXoObB+".toList.all (fun c => 0x21 ≤ c.toNat ∧ c.toNat < 0x7F) = true := by decide
    simpa [Printable] using List.all_eq_true.mp all c letter
  have radix {first second : Char} {digit : Char → Bool} {rest : List Char}
      (first_letter : first ∈ "0xXoObB+".toList) (second_letter : second ∈ "0xXoObB+".toList)
      (digits : ∀ c, digit c = true → Printable c) (above : jsRadixPositive digit rest = true) :
      ∀ c ∈ first :: second :: rest, Printable c := by
    simp only [jsRadixPositive, Bool.and_eq_true, List.all_eq_true] at above
    rintro c (_ | ⟨_, _ | ⟨_, here⟩⟩)
    · exact letter first_letter
    · exact letter second_letter
    · exact digits c (above.1 c here)
  have octal (c : Char) (digit : decide ('0' ≤ c ∧ c ≤ '7') = true) : Printable c := by
    simp only [decide_eq_true_eq] at digit
    exact ⟨le_trans (by decide) (show '0'.toNat ≤ c.toNat from digit.1),
      lt_of_le_of_lt (show c.toNat ≤ '7'.toNat from digit.2) (by decide)⟩
  have binary (c : Char) (digit : (c == '0' || c == '1') = true) : Printable c := by
    simp only [Bool.or_eq_true, beq_iff_eq] at digit
    rcases digit with rfl | rfl <;> (unfold Printable; decide)
  unfold positiveCore at above
  split at above
  · exact radix (by decide) (by decide) (fun c => isHexDigit_printable) above
  · exact radix (by decide) (by decide) (fun c => isHexDigit_printable) above
  · exact radix (by decide) (by decide) octal above
  · exact radix (by decide) (by decide) octal above
  · exact radix (by decide) (by decide) binary above
  · exact radix (by decide) (by decide) binary above
  · simp at above
  · rintro c (_ | ⟨_, here⟩)
    · exact letter (by decide)
    · exact jsUnsignedPositive_printable above c here
  · exact jsUnsignedPositive_printable above

/-- What follows the sign that a number may have. -/
def unsigned : List Char → List Char
  | '+' :: rest => rest
  | text => text

theorem positiveNumber_eq (text : List Char) :
    positiveNumber text = scientific (fun mantissa places =>
      roundsAboveZero mantissa places && roundsToFinite mantissa places) (unsigned text) := by
  rfl

theorem positiveNumber_numeric {text : List Char} (positive : positiveNumber text = true) :
    ∀ c ∈ text, Numeric c := by
  rw [positiveNumber_eq] at positive
  have numeric := (scientific_numeric positive).1
  unfold unsigned at numeric
  split at numeric
  · rintro c (_ | ⟨_, here⟩)
    · exact .inr (by simp)
    · exact numeric c here
  · exact numeric

/-- JavaScript takes every number that Qt takes. -/
theorem positiveCore_of_positiveNumber {text : List Char} (positive : positiveNumber text = true) :
    positiveCore text = true := by
  have numeric := positiveNumber_numeric positive
  have letter {c : Char} (other : c ∈ "xXoObB".toList) : ¬ Numeric c := by
    have all : "xXoObB".toList.all (fun c => !c.isDigit && !(['+', '-', '.', 'e', 'E'].contains c)) =
        true := by decide
    simpa [Numeric] using List.all_eq_true.mp all c other
  rw [positiveNumber_eq] at positive
  have head := (scientific_numeric positive).2
  have value : jsUnsignedPositive (unsigned text) = true := by
    rw [jsUnsignedPositive_eq, Bool.or_eq_true]
    refine .inr (scientific_mono (fun mantissa places both => ?_) positive)
    simp only [Bool.and_eq_true] at both
    exact both.1
  unfold positiveCore
  split
  · exact absurd (numeric 'x' (by simp)) (letter (by decide))
  · exact absurd (numeric 'X' (by simp)) (letter (by decide))
  · exact absurd (numeric 'o' (by simp)) (letter (by decide))
  · exact absurd (numeric 'O' (by simp)) (letter (by decide))
  · exact absurd (numeric 'b' (by simp)) (letter (by decide))
  · exact absurd (numeric 'B' (by simp)) (letter (by decide))
  · exact absurd (head '-' rfl) (by decide)
  · exact value
  · rename_i unsignedText
    unfold unsigned at value
    split at value
    · simp_all
    · exact value

theorem scientific_natural {accept : Nat → Nat → Bool} {text : List Char} {value : Nat}
    (read : natural? text = some value) (accepted : accept value 0 = true) :
    scientific accept text = true := by
  have digits := natural?_digits read
  have whole {here : Char → Bool} (letter : ∀ c, here c = true → c.isDigit = false) :
      splitAtFirst here text = (text, none) := by
    have passed : text.dropWhile (fun char => !here char) = [] := by
      rw [List.dropWhile_eq_nil_iff]
      intro c member
      cases found : here c with
      | false => rfl
      | true => simpa [digits c member] using letter c found
    unfold splitAtFirst
    rw [passed]
  have exponent := @whole (fun char => char == 'e' || char == 'E') (by
    intro c letter
    simp only [Bool.or_eq_true, beq_iff_eq] at letter
    rcases letter with rfl | rfl <;> decide)
  have point := @whole (· == '.') (by
    intro c letter
    obtain rfl := beq_iff_eq.mp letter
    decide)
  have decimal : jsDecimal? text = some (value, 0) := by
    unfold jsDecimal?
    rw [point]
    simp [read]
  unfold scientific
  rw [exponent]
  simp [decimal, accepted]

/-- A positive integer of Qt is a positive number. -/
theorem positiveNumber_of_positiveInteger {text : List Char}
    (trimmed : trim qtSpace text = text) (positive : positiveInteger text = true) :
    positiveNumber text = true := by
  obtain ⟨value, read, above⟩ := (Option.any_eq_true _ _).mp positive
  unfold toLongLong? at read
  rw [Option.filter_eq_some_iff] at read
  obtain ⟨found, range⟩ := read
  have whole : trim qtSpace (String.ofList text).toList = text := by
    rw [String.toList_ofList]
    exact trimmed
  rw [whole] at found
  simp only [decide_eq_true_eq] at above range
  have finite (natural : Nat) (same : (natural : Int) = value) :
      (roundsAboveZero natural 0 && roundsToFinite natural 0) = true := by
    have low : 0 < natural := by omega
    have high : natural < 2 ^ 63 := by omega
    have scaled (n : Nat) (more : 1 < n) : 1 < natural * n :=
      lt_of_lt_of_le more (Nat.le_mul_of_pos_left n low)
    have big : 1 < natural * 2 ^ 1075 := scaled _ (by decide +kernel)
    have fits : natural < 2 ^ 1024 - 2 ^ 970 := lt_of_lt_of_le high (by decide +kernel)
    rw [Bool.and_eq_true]
    exact ⟨by simpa only [roundsAboveZero, Nat.pow_zero, decide_eq_true_eq] using big,
      by simpa only [roundsToFinite, Nat.pow_zero, Nat.one_mul, decide_eq_true_eq] using fits⟩
  rw [positiveNumber_eq]
  unfold integer? at found
  split at found
  · obtain ⟨integer, some, rfl⟩ := Option.map_eq_some_iff.mp found
    obtain ⟨natural, digits, same⟩ := Option.bind_eq_some_iff.mp some
    obtain rfl := Option.some.inj same
    omega
  · obtain ⟨natural, digits, rfl⟩ := Option.map_eq_some_iff.mp found
    exact scientific_natural digits (finite natural rfl)
  · rename_i minus plus
    obtain ⟨natural, digits, rfl⟩ := Option.map_eq_some_iff.mp found
    have bare : unsigned text = text := by
      unfold unsigned
      split <;> simp_all
    rw [bare]
    exact scientific_natural digits (finite natural rfl)

/-! ## One field -/

/-- The line break that Qt trims and JavaScript does not. -/
def nextLine : Char := '\x85'

theorem nextLine_not_printable : ¬ Printable nextLine := by
  unfold Printable nextLine
  decide

/-- What a text is trimmed to by Qt is what JavaScript leaves, unless a next line stands there. -/
theorem jsTrim_eq {text : String} (some : trim qtSpace text.toList ≠ [])
    (plain : ∀ c ∈ trim qtSpace text.toList, Printable c) (absent : nextLine ∉ text.toList) :
    trim jsSpace text.toList = trim qtSpace text.toList := by
  refine Trimming.trim_eq_of_blank some (fun c here => (plain c here).not_js) ?_
  intro c here blank
  have other : c ≠ nextLine := by
    rintro rfl
    exact absent here
  exact js_of_qt blank other

/-- A text of printable characters between the blanks of JavaScript holds no next line. -/
theorem nextLine_absent {text : String}
    (plain : ∀ c ∈ trim jsSpace text.toList, Printable c) : nextLine ∉ text.toList := by
  intro here
  have kept := Trimming.mem_trim here (show jsSpace nextLine = false by decide)
  exact nextLine_not_printable (plain nextLine kept)

theorem isHexText_printable {digits : Nat} {text : List Char}
    (hex : isHexText digits text = true) : ∀ c ∈ text, Printable c := by
  have letter : Printable '0' ∧ Printable 'x' := by
    unfold Printable
    decide
  unfold isHexText at hex
  simp only [Bool.and_eq_true, List.all_eq_true] at hex
  obtain ⟨-, body⟩ := hex
  split at body
  · rintro c (_ | ⟨_, _ | ⟨_, here⟩⟩)
    · exact letter.1
    · exact letter.2
    · exact isHexDigit_printable (body c here)
  · exact fun c here => isHexDigit_printable (body c here)

theorem isHexText_body {digits : Nat} {text : List Char} (hex : isHexText digits text = true) :
    (withoutHexPrefix text).length = digits ∧ ∀ c ∈ withoutHexPrefix text, isHexDigit c = true := by
  unfold isHexText at hex
  simp only [Bool.and_eq_true, decide_eq_true_eq, List.all_eq_true] at hex
  split at hex
  · exact hex
  · rename_i bare
    obtain ⟨length, body⟩ := hex
    have capital : ¬ isHexDigit 'X' = true := by decide
    have same : withoutHexPrefix text = text := by
      unfold withoutHexPrefix
      split
      · exact absurd rfl (bare _)
      · exact absurd (body 'X' (by simp)) capital
      · rfl
    rw [same]
    exact ⟨length, body⟩

theorem isHexBytes_printable {space : Char → Bool} {text : String} {bytes : Nat}
    (hex : isHexBytes space text bytes = true) : ∀ c ∈ trim space text.toList, Printable c := by
  simp only [isHexBytes, decide_eq_true_eq, List.all_eq_true] at hex
  refine withoutHexPrefix_printable fun c here => printable_of_toLower ?_
  exact isHexDigit_printable (hex.2 _ (List.mem_map_of_mem here))

/-- Hexadecimal text for the adapter is hexadecimal text for the board. -/
theorem isHexBytes_iff {text : String} {bytes : Nat} (some : 0 < bytes)
    (hex : isHexText (2 * bytes) (trim qtSpace text.toList) = true) :
    isHexBytes jsSpace text bytes = true ↔ nextLine ∉ text.toList := by
  constructor
  · exact fun same => nextLine_absent (isHexBytes_printable same)
  · intro absent
    have plain := isHexText_printable hex
    have present : trim qtSpace text.toList ≠ [] := by
      intro empty
      rw [empty] at hex
      simp only [isHexText, List.length_nil, List.all_nil, Bool.and_true,
        decide_eq_true_eq] at hex
      omega
    have same := jsTrim_eq present plain absent
    obtain ⟨length, digits⟩ := isHexText_body hex
    have normal : normalHex jsSpace text =
        (withoutHexPrefix (trim qtSpace text.toList)).map Char.toLower := by
      rw [← same]
      rfl
    unfold isHexBytes
    rw [normal]
    simp only [List.length_map, length, List.all_map, List.all_eq_true, Function.comp_apply,
      decide_eq_true_eq, true_and]
    exact fun c here => (Module.isHexDigit_toLower (digits c here)).1

/-- A number for the adapter is one for the board. -/
theorem jsNumber_positive_iff {text : String}
    (positive : positiveNumber (trim qtSpace text.toList) = true) :
    (jsNumber text).positive = true ↔ nextLine ∉ text.toList := by
  rw [jsNumber_positive, jsPositive_eq]
  constructor
  · exact fun above => nextLine_absent (positiveCore_printable above)
  · intro absent
    have numeric := positiveNumber_numeric positive
    have present : trim qtSpace text.toList ≠ [] := by
      intro empty
      rw [empty] at positive
      revert positive
      decide
    rw [jsTrim_eq present (fun c here => (numeric c here).printable) absent]
    exact positiveCore_of_positiveNumber positive

theorem length_of_isHexText {digits : Nat} {text : List Char}
    (hex : isHexText digits text = true) : digits ≤ text.length := by
  unfold isHexText at hex
  simp only [Bool.and_eq_true, decide_eq_true_eq] at hex
  obtain ⟨rfl, -⟩ := hex
  split
  · exact Nat.le_add_right _ 2
  · exact le_refl _

namespace OfferObject

variable {o : OfferObject} {key : String}

/-- Nothing but a string is long enough for hexadecimal bytes. -/
theorem strOf_short (short : ∀ text, o key ≠ some (.string text)) :
    (strOf o.toQt key).length ≤ 24 := by
  refine (Trimming.length_trim_le _ _).trans ?_
  rw [String.length_toList]
  unfold toQt
  cases here : o key with
  | none => decide
  | some value =>
      cases value with
      | string text => exact absurd here (short text)
      | number value => exact value.qtShort
      | bool value => cases value <;> decide
      | array items => exact Nat.zero_le 24
      | null => decide
      | object => decide

theorem hex_iff {bytes : Nat} (long : 13 ≤ bytes)
    (hex : isHexText (2 * bytes) (strOf o.toQt key) = true) :
    isHexBytes jsSpace (o.text key) bytes = true ↔ nextLine ∉ (o.text key).toList := by
  by_cases string : ∃ text, o key = some (.string text)
  · obtain ⟨text, value⟩ := string
    have qt : strOf o.toQt key = trim qtSpace text.toList := by simp [strOf, toQt, value]; rfl
    have js : o.text key = text := by simp [OfferObject.text, value]; rfl
    rw [js]
    exact isHexBytes_iff (by omega) (qt ▸ hex)
  · have short := strOf_short fun text value => string ⟨text, value⟩
    have length := length_of_isHexText hex
    omega

theorem number_iff (positive : positiveNumber (strOf o.toQt key) = true) :
    o.aboveZero key = true ↔ nextLine ∉ (o.text key).toList := by
  unfold strOf toQt at positive
  unfold OfferObject.aboveZero OfferObject.text
  cases here : o key with
  | none =>
      rw [here] at positive
      exact absurd positive (by decide)
  | some value =>
      rw [here] at positive
      cases value with
      | string text => exact jsNumber_positive_iff positive
      | number value =>
          have plain : nextLine ∉ value.qtText.toList := by
            intro here
            rcases value.qtPlain nextLine here with digit | sign
            · exact nextLine_not_printable (isDigit_printable digit)
            · revert sign
              decide
          have above : (jsNumber value.jsText).positive = true := by
            rw [← value.sign]
            exact (jsNumber_positive_iff positive).mpr plain
          refine iff_of_true above (nextLine_absent ?_)
          rw [jsNumber_positive, jsPositive_eq] at above
          exact positiveCore_printable above
      | bool value => cases value <;> exact absurd positive (by decide)
      | array items =>
          exact absurd (show positiveNumber (trim qtSpace "".toList) = true from positive)
            (by decide)
      | null => exact absurd positive (by decide)
      | object => exact absurd positive (by decide)

theorem integer_iff (positive : positiveInteger (strOf o.toQt key) = true) :
    o.aboveZero key = true ↔ nextLine ∉ (o.text key).toList :=
  number_iff (positiveNumber_of_positiveInteger (Trimming.trim_trim _ _) positive)

end OfferObject

/-! ## The venue -/

/-- A pin has no blanks of any kind. -/
theorem Pin.printable (pin : Pin) : ∀ c ∈ pin.text.toList, Printable c :=
  withoutHexPrefix_printable fun c here => isHexDigit_printable (List.all_eq_true.mp pin.digits c here)

theorem Pin.normalHex_eq (pin : Pin) {space : Char → Bool}
    (solid : ∀ c, Printable c → space c = false) :
    normalHex space pin.text = (withoutHexPrefix pin.text.toList).map Char.toLower := by
  have some : pin.text.toList ≠ [] := by
    intro empty
    exact pin.some (by rw [empty]; rfl)
  have whole := Trimming.trim_solid fun c here => solid c (pin.printable c here)
  rw [← congrArg (fun text => (withoutHexPrefix text).map Char.toLower) whole]
  rfl

theorem Pin.normalHex_ne_nil (pin : Pin) {space : Char → Bool}
    (solid : ∀ c, Printable c → space c = false) : normalHex space pin.text ≠ [] := by
  rw [pin.normalHex_eq solid]
  simpa using pin.some

theorem Pin.normalHex_printable (pin : Pin) {space : Char → Bool}
    (solid : ∀ c, Printable c → space c = false) :
    ∀ c ∈ normalHex space pin.text, Printable c := by
  rw [pin.normalHex_eq solid]
  intro c here
  obtain ⟨digit, member, rfl⟩ := List.mem_map.mp here
  exact isHexDigit_printable
    (Module.isHexDigit_toLower (List.all_eq_true.mp pin.digits digit member)).1

/-- A text without a character beyond the ASCII range. -/
def Ascii (text : String) : Prop := ∀ c ∈ text.toList, c.toNat < 0x80

/-- In ASCII the two normal forms of hexadecimal bytes are one. -/
theorem normalizeHex_eq {text : String} {bytes : Nat} (some : 0 < bytes)
    (hex : isHexBytes jsSpace text bytes = true) (ascii : Ascii text) :
    normalizeHex text = normalHex jsSpace text ∧ normalizeHex text ≠ [] := by
  have plain := isHexBytes_printable hex
  have length : (normalHex jsSpace text).length = 2 * bytes := by
    simp only [isHexBytes, decide_eq_true_eq] at hex
    exact hex.1
  have body : normalHex jsSpace text ≠ [] := by
    intro empty
    rw [empty] at length
    simp at length
    omega
  have present : trim jsSpace text.toList ≠ [] := by
    intro empty
    apply body
    show (withoutHexPrefix (trim jsSpace text.toList)).map Char.toLower = []
    rw [empty]
    rfl
  have same : trim cSpace text.toList = trim jsSpace text.toList :=
    Trimming.trim_eq_of_blank present (fun c here => (plain c here).not_c)
      fun c here blank => c_of_js blank (ascii c here)
  have equal : normalizeHex text = normalHex jsSpace text := by
    show (withoutHexPrefix (trim cSpace text.toList)).map Char.toLower = _
    rw [same]
    rfl
  exact ⟨equal, equal ▸ body⟩

/-- A character beyond the ASCII range stays in the normal form of the accept check. -/
theorem normalizeHex_foreign {text : String} (foreign : ¬ Ascii text) (pin : Pin) :
    normalizeHex text ≠ [] ∧ normalizeHex text ≠ normalizeHex pin.text := by
  obtain ⟨c, here, beyond⟩ : ∃ c ∈ text.toList, ¬ c.toNat < 0x80 := by
    simpa only [Ascii, not_forall, exists_prop] using foreign
  have kept : c ∈ trim cSpace text.toList := by
    refine Trimming.mem_trim here ?_
    cases blank : cSpace c with
    | false => rfl
    | true => exact absurd (cSpace_ascii blank) beyond
  have letter (d : Char) (low : d.toNat < 0x80) : c ≠ d := by
    rintro rfl
    exact beyond low
  have behind : c ∈ withoutHexPrefix (trim cSpace text.toList) := by
    unfold withoutHexPrefix
    split
    · rename_i rest shape
      rw [shape] at kept
      simpa [letter '0' (by decide), letter 'x' (by decide)] using kept
    · rename_i rest shape
      rw [shape] at kept
      simpa [letter '0' (by decide), letter 'X' (by decide)] using kept
    · exact kept
  have lower : c.toLower = c := by
    unfold Char.toLower
    split
    · rename_i upper
      have low : c.toNat ≤ 'Z'.toNat := upper.2
      exact absurd (lt_of_le_of_lt low (by decide)) beyond
    · rfl
  have member : c ∈ normalizeHex text := by
    have mapped := List.mem_map_of_mem (f := Char.toLower) behind
    rwa [lower] at mapped
  refine ⟨List.ne_nil_of_mem member, fun same => beyond ?_⟩
  rw [same] at member
  have plain := pin.normalHex_printable (fun c => Printable.not_c) c member
  exact lt_trans plain.2 (by decide)

/-- A venue field of an offer for the board: the accept check agrees with the board on it, unless
JavaScript trims to the pin what is not ASCII. -/
theorem venueField_iff {text : String} {bytes : Nat} (some : 0 < bytes)
    (hex : isHexBytes jsSpace text bytes = true) (pin : Pin) :
    (normalizeHex text = [] ∨ normalizeHex text = normalizeHex pin.text) ↔
      normalHex jsSpace text = normalHex jsSpace pin.text ∧ Ascii text := by
  by_cases ascii : Ascii text
  · obtain ⟨same, present⟩ := normalizeHex_eq some hex ascii
    have pinned : normalizeHex pin.text = normalHex jsSpace pin.text :=
      (pin.normalHex_eq fun c => Printable.not_c).trans
        (pin.normalHex_eq fun c => Printable.not_js).symm
    simp [ascii, ← same, present, pinned]
  · obtain ⟨present, differs⟩ := normalizeHex_foreign ascii pin
    simp [ascii, present, differs]

namespace OfferObject

variable {o : OfferObject}

/-- The fields that the gates look at. -/
def gateKeys : List String :=
  ["maker_eth_address", "eth_htlc_address", "lez_htlc_program_id", "lez_amount", "eth_amount",
    "lez_timelock", "eth_timelock"]

/-- Both timelocks are later than now. -/
def InFuture (o : OfferObject) (now : Int) : Prop :=
  ∀ key ∈ ["lez_timelock", "eth_timelock"], ∃ timelock,
    toLongLong? (String.ofList (strOf o.toQt key)) = some timelock ∧ now < timelock

/-- The offer names the pinned venue, once JavaScript has trimmed it. -/
def Names (o : OfferObject) (eth lez : Pin) : Prop :=
  normalHex jsSpace (o.text "eth_htlc_address") = normalHex jsSpace eth.text ∧
    normalHex jsSpace (o.text "lez_htlc_program_id") = normalHex jsSpace lez.text

/-- The gates agree on an offer: what the adapter lets through before it expires is listed, and
what is listed is shown as acceptable exactly when it would be accepted. -/
structure GatesAgree (o : OfferObject) (now : Int) (eth lez : Pin) : Prop where
  listed : swapDeliveryOfferIsWellFormed o.toQt = true → o.InFuture now →
    o.offerWellFormed = true
  pinned : o.offerWellFormed = true → (o.offerVenueOk eth.text lez.text = true ↔
    (checkOfferVenue (o.text "eth_htlc_address") eth.text (o.text "lez_htlc_program_id")
      lez.text).ok = true)

/-- Of what the adapter lets through, the board takes what holds no next line. -/
theorem offerWellFormed_iff (delivered : swapDeliveryOfferIsWellFormed o.toQt = true) :
    o.offerWellFormed = true ↔ ∀ key ∈ gateKeys, nextLine ∉ (o.text key).toList := by
  simp only [swapDeliveryOfferIsWellFormed, Bool.and_eq_true] at delivered
  obtain ⟨⟨⟨⟨maker, eth⟩, lez⟩, lezAmount, ethAmount⟩, lezTimelock, ethTimelock⟩ := delivered
  simp only [offerWellFormed, Bool.and_eq_true, hex_iff (show 13 ≤ 20 by decide) maker,
    hex_iff (show 13 ≤ 20 by decide) eth, hex_iff (show 13 ≤ 32 by decide) lez,
    number_iff lezAmount, number_iff ethAmount, integer_iff lezTimelock, integer_iff ethTimelock,
    gateKeys, List.forall_mem_cons]
  simp [and_assoc]

theorem offerVenueOk_pins (o : OfferObject) (eth lez : Pin) :
    o.offerVenueOk eth.text lez.text = true ↔ o.Names eth lez := by
  have known (pin : Pin) : normalHex jsSpace pin.text ≠ [] :=
    pin.normalHex_ne_nil fun c => Printable.not_js
  simp [offerVenueOk, Names, known]

theorem checkOfferVenue_listed (listed : o.offerWellFormed = true) (eth lez : Pin) :
    (checkOfferVenue (o.text "eth_htlc_address") eth.text (o.text "lez_htlc_program_id")
        lez.text).ok = true ↔
      o.Names eth lez ∧ Ascii (o.text "eth_htlc_address") ∧
        Ascii (o.text "lez_htlc_program_id") := by
  simp only [offerWellFormed, Bool.and_eq_true] at listed
  obtain ⟨⟨⟨⟨⟨⟨-, ethHex⟩, lezHex⟩, -⟩, -⟩, -⟩, -⟩ := listed
  rw [checkOfferVenue_ok, venueField_iff (by decide) ethHex eth,
    venueField_iff (by decide) lezHex lez]
  unfold Names
  tauto

/-- The gates agree on an offer exactly when nothing that the adapter lets through holds a next
line, and the venue of a listed offer that names the pins is written in ASCII. -/
theorem gatesAgree_iff (o : OfferObject) (now : Int) (eth lez : Pin) :
    GatesAgree o now eth lez ↔
      (swapDeliveryOfferIsWellFormed o.toQt = true → o.InFuture now →
        ∀ key ∈ gateKeys, nextLine ∉ (o.text key).toList) ∧
      (o.offerWellFormed = true → o.Names eth lez →
        Ascii (o.text "eth_htlc_address") ∧ Ascii (o.text "lez_htlc_program_id")) := by
  constructor
  · rintro ⟨listed, pinned⟩
    refine ⟨fun delivered future => ?_, fun taken named => ?_⟩
    · exact (offerWellFormed_iff delivered).mp (listed delivered future)
    · have accepted := (pinned taken).mp ((offerVenueOk_pins o eth lez).mpr named)
      exact ((checkOfferVenue_listed taken eth lez).mp accepted).2
  · rintro ⟨clean, ascii⟩
    refine ⟨fun delivered future => ?_, fun taken => ?_⟩
    · exact (offerWellFormed_iff delivered).mpr (clean delivered future)
    · rw [offerVenueOk_pins, checkOfferVenue_listed taken]
      exact ⟨fun named => ⟨named, ascii taken named⟩, fun accepted => accepted.1⟩

/-- The number of a timelock in the tests. -/
def testTimelock : JsonNumber where
  qtText := "2000000000"
  jsText := "2000000000"
  qtShort := by decide
  jsShort := by decide
  qtPlain := fun c here => .inl (List.all_eq_true.mp
    (show "2000000000".toList.all Char.isDigit = true by decide) c here)
  sign := rfl

/-- An offer whose addresses are `front` and `back` with the same forty digits behind them. -/
def testOffer (front back : String) : OfferObject := fun key =>
  [("maker_eth_address", .string (front ++ String.ofList (List.replicate 40 'a'))),
    ("eth_htlc_address", .string (back ++ String.ofList (List.replicate 40 'a'))),
    ("lez_htlc_program_id", .string (String.ofList (List.replicate 64 'b'))),
    ("lez_amount", .string "150"), ("eth_amount", .string "1000000000000000"),
    ("lez_timelock", .number testTimelock), ("eth_timelock", .number testTimelock)].lookup key

/-- The pins of the tests. -/
def testEthPin : Pin where
  text := String.ofList (List.replicate 40 'a')
  some := by decide +kernel
  digits := by decide +kernel

def testLezPin : Pin where
  text := String.ofList (List.replicate 64 'b')
  some := by decide +kernel
  digits := by decide +kernel

/-- A next line before the maker's address hides an offer that would be taken; a no-break space
before the contract's address shows one as acceptable that would be refused. -/
theorem gates_disagree :
    ¬ GatesAgree (testOffer "\u0085" "") 1700000000 testEthPin testLezPin ∧
      ¬ GatesAgree (testOffer "" "\u00a0") 1700000000 testEthPin testLezPin := by
  constructor
  · intro agree
    have future : (testOffer "\u0085" "").InFuture 1700000000 := by
      intro key here
      refine ⟨2000000000, ?_, by decide⟩
      revert key
      decide +kernel
    have listed := agree.listed (by decide +kernel) future
    revert listed
    decide +kernel
  · intro agree
    have same := agree.pinned (by decide +kernel)
    revert same
    decide +kernel

end OfferObject

end AtomicSwaps.Ui
