import AtomicSwaps.Swap.EthAmount
import AtomicSwaps.Ui.Text

/-!
# Amounts of ETH in offers

The three converters that are not the engine's: `weiToEthValue` of the plugin, and the offer
adapter's `ethAmountToWeiValue` with Qt and `swapDeliveryEthAmountToWei` without. The last
works on bytes. A text of Qt is its characters; one beyond the basic plane, which counts
twice in a `QString`, counts once.
-/

namespace AtomicSwaps.Module

open Decimal Swap
open Trimming (isWhitespace trim strTrim)

/-- `weiToEthValue`. -/
def weiToEthValue (wei : String) : String :=
  let wei := trim Ui.qtSpace wei.toList
  if wei = [] then "0"
  else
    let wei := withoutLeadingZeros wei
    if wei.length ≤ 18 then
      let fraction := withoutTrailingZeros (padLeft 18 wei)
      if fraction = [] then "0" else String.ofList ('0' :: '.' :: fraction)
    else
      let whole := wei.take (wei.length - 18)
      let fraction := withoutTrailingZeros (wei.drop (wei.length - 18))
      if fraction = [] then String.ofList whole else String.ofList (whole ++ '.' :: fraction)

/-- `ethAmountToWeiValue`. -/
def ethAmountToWeiValue (ethAmount : String) : String :=
  let value := trim Ui.qtSpace ethAmount.toList
  if value = [] then "0"
  else
    let (whole, fraction) := splitPoint value
    let fraction := if 18 < fraction.length then fraction.take 18 else fraction
    String.ofList (withoutLeadingZeros (whole ++ padRight 18 fraction))

/-- `" \t\n\r"`. -/
def blanks : Utf8.AsciiSet where
  has byte := byte ∈ [0x20, 0x09, 0x0A, 0x0D]
  ascii byte member := by
    simp only [List.mem_cons, List.not_mem_nil, or_false, decide_eq_true_eq] at member
    rcases member with rfl | rfl | rfl | rfl <;> decide

/-- The point, as a set. -/
def point : Utf8.AsciiSet where
  has byte := byte = 0x2E
  ascii byte member := by
    obtain rfl := of_decide_eq_true member
    decide

/-- Zeros without the leading ones, and one if there is nothing else. -/
def stripZeroBytes (wei : List UInt8) : List UInt8 :=
  if wei.dropWhile (· = 0x30) = [] then [0x30] else wei.dropWhile (· = 0x30)

/-- `swapDeliveryEthAmountToWei` of the build without Qt. -/
def swapDeliveryEthAmountToWei (ethAmount : List UInt8) : List UInt8 :=
  let value := (ethAmount.dropWhile blanks.has).rdropWhile blanks.has
  if value = [] then [0x30]
  else
    let whole := value.takeWhile fun byte => !point.has byte
    let fraction := (value.dropWhile fun byte => !point.has byte).tail
    let fraction := if 18 < fraction.length then fraction.take 18 else fraction
    stripZeroBytes (whole ++ (fraction ++ List.replicate (18 - fraction.length) 0x30))

/-- The white space behind an amount. -/
def spaceBehind (s : String) : List Char := (s.toList.dropWhile isWhitespace).rtakeWhile isWhitespace

/-- What the converters owe a text: `eth_to_wei` returns the wei of a decimal number, rounded
down, or an error where there is none or they do not fit; and where it returns wei, the
adapters return their numeral. -/
structure Converts (s : String) : Prop where
  decimal : ∀ parts, amountParts? s = some parts → ⌊amountValue parts * 10 ^ 18⌋₊ < 2 ^ 128 →
    ethToWei s = some (.ok (BitVec.ofNat 128 ⌊amountValue parts * 10 ^ 18⌋₊))
  tooLarge : ∀ parts, amountParts? s = some parts → 2 ^ 128 ≤ ⌊amountValue parts * 10 ^ 18⌋₊ →
    ∃ message, ethToWei s = some (.error message)
  other : amountParts? s = none → ∃ message, ethToWei s = some (.error message)
  adapters : ∀ wei : U128, ethToWei s = some (.ok wei) →
    ethAmountToWeiValue s = String.ofList (numeral wei.toNat) ∧
      swapDeliveryEthAmountToWei (Utf8.encode s.toList) = Utf8.encode (numeral wei.toNat)

/-- A decimal number whose wei fit, with no white space around it that the adapter without Qt
keeps; behind eighteen places it keeps none. -/
def Plain (s : String) : Prop :=
  ∃ parts, amountParts? s = some parts ∧ partsWei parts < 2 ^ 128 ∧
    (s.toList.takeWhile isWhitespace).all blanks.char = true ∧
    ((spaceBehind s).all blanks.char = true ∨ 18 ≤ parts.2.length)

section White

theorem qtSpace_eq : Ui.qtSpace = isWhitespace := by
  ext char
  rw [Bool.eq_iff_iff]
  simp only [Ui.qtSpace, Ui.isSeparator, Ui.cSpace, isWhitespace, Bool.or_eq_true,
    decide_eq_true_eq, List.mem_cons, List.not_mem_nil, or_false]
  omega

/-- Qt, and Rust, trim the same white space. -/
theorem trimmed_eq (text : List Char) : trim Ui.qtSpace text = strTrim text := by
  rw [qtSpace_eq]
  rfl

theorem blanks_iff {char : Char} : blanks.char char = true ↔
    char.toNat = 0x20 ∨ char.toNat = 0x09 ∨ char.toNat = 0x0A ∨ char.toNat = 0x0D := by
  simp only [Utf8.AsciiSet.char, Utf8.isAscii, blanks, Bool.and_eq_true, decide_eq_true_eq,
    List.mem_cons, List.not_mem_nil, or_false, ← UInt8.toNat_inj, UInt8.toNat_ofNat',
    UInt8.reduceToNat]
  omega

theorem blanks_whitespace (char : Char) (blank : blanks.char char = true) :
    isWhitespace char = true := by
  rw [blanks_iff] at blank
  simp only [isWhitespace, decide_eq_true_eq, List.mem_cons, List.not_mem_nil, or_false]
  omega

theorem point_char : point.char = fun char => decide (char = '.') := by
  ext char
  rw [Bool.eq_iff_iff]
  simp only [Utf8.AsciiSet.char, Utf8.isAscii, point, Bool.and_eq_true, decide_eq_true_eq,
    ← UInt8.toNat_inj, UInt8.toNat_ofNat', UInt8.reduceToNat]
  rw [← Char.toNat_inj]
  have dot : '.'.toNat = 0x2E := rfl
  omega

/-- The byte of zero. -/
def zero : Utf8.AsciiSet where
  has byte := byte = 0x30
  ascii byte member := by
    obtain rfl := of_decide_eq_true member
    decide

theorem zero_char : zero.char = fun char => decide (char = '0') := by
  ext char
  rw [Bool.eq_iff_iff]
  simp only [Utf8.AsciiSet.char, Utf8.isAscii, zero, Bool.and_eq_true, decide_eq_true_eq,
    ← UInt8.toNat_inj, UInt8.toNat_ofNat', UInt8.reduceToNat]
  rw [← Char.toNat_inj]
  have shown : '0'.toNat = 0x30 := rfl
  omega

/-- The bytes of digits. -/
def digitBytes : Utf8.AsciiSet where
  has byte := 0x30 ≤ byte.toNat ∧ byte.toNat ≤ 0x39
  ascii byte member := by
    have bounds := of_decide_eq_true member
    omega

theorem digitBytes_char (char : Char) : digitBytes.char char = char.isDigit := by
  rw [Bool.eq_iff_iff, Char.isDigit_iff_toNat]
  simp only [Utf8.AsciiSet.char, Utf8.isAscii, digitBytes, Bool.and_eq_true, decide_eq_true_eq,
    UInt8.toNat_ofNat']
  have first : '0'.toNat = 48 := rfl
  have last : '9'.toNat = 57 := rfl
  omega

end White

/-- What the adapter without Qt keeps of a text. -/
def kept (text : List Char) : List Char := (text.dropWhile blanks.char).rdropWhile blanks.char

/-- The adapter without Qt, by characters. -/
theorem swapDeliveryEthAmountToWei_encode (text : List Char) :
    swapDeliveryEthAmountToWei (Utf8.encode text) =
      if kept text = [] then [0x30]
      else stripZeroBytes (Utf8.encode (splitPoint (kept text)).1 ++
        ((Utf8.encode (splitPoint (kept text)).2).take 18 ++
          List.replicate (18 - (Utf8.encode (splitPoint (kept text)).2).length) 0x30)) := by
  have value : ((Utf8.encode text).dropWhile blanks.has).rdropWhile blanks.has =
      Utf8.encode (kept text) := by
    rw [blanks.dropWhile_encode, blanks.rdropWhile_encode, kept]
  have whole : (Utf8.encode (kept text)).takeWhile (fun byte => !point.has byte) =
      Utf8.encode (splitPoint (kept text)).1 := by
    rw [point.takeWhile_not_encode, point_char, splitPoint]
  have fraction : ((Utf8.encode (kept text)).dropWhile fun byte => !point.has byte).tail =
      Utf8.encode (splitPoint (kept text)).2 := by
    rw [point.dropWhile_not_encode, point_char, splitPoint]
    cases rest : (kept text).dropWhile (fun char => !decide (char = '.')) with
    | nil => rfl
    | cons char behind =>
        have stops := List.head?_dropWhile_not (fun char => !decide (char = '.')) (kept text)
        rw [rest] at stops
        obtain rfl : char = '.' := by simpa using stops
        rfl
  have cut : ∀ bytes : List UInt8,
      (if 18 < bytes.length then bytes.take 18 else bytes) = bytes.take 18 := by
    intro bytes
    split
    · rfl
    · rw [List.take_of_length_le (by omega)]
  have missing : ∀ bytes : List UInt8, 18 - (bytes.take 18).length = 18 - bytes.length := by
    intro bytes
    rw [List.length_take]
    omega
  simp only [swapDeliveryEthAmountToWei, value, whole, fraction, cut, missing, Utf8.encode_eq_nil]

/-- The bytes of digits without leading zeros. -/
theorem stripZeroBytes_encode {digits : List Char} (some : digits ≠ []) :
    stripZeroBytes (Utf8.encode digits) = Utf8.encode (withoutLeadingZeros digits) := by
  have dropped : (Utf8.encode digits).dropWhile (fun byte => decide (byte = 0x30)) =
      Utf8.encode (digits.dropWhile fun char => decide (char = '0')) := by
    have both : (Utf8.encode digits).dropWhile zero.has =
        Utf8.encode (digits.dropWhile zero.char) := zero.dropWhile_encode
    rwa [zero_char] at both
  rw [stripZeroBytes, dropped, withoutLeadingZeros_eq some]
  simp only [Utf8.encode_eq_nil]
  split
  · rfl
  · rfl

/-- Where stripping zeros leaves digits, there were only digits. -/
theorem all_of_stripZeroBytes {bytes : List UInt8}
    (digits : (stripZeroBytes bytes).all digitBytes.has = true) :
    bytes.all digitBytes.has = true := by
  have split : bytes.takeWhile (fun byte => decide (byte = 0x30)) ++
      bytes.dropWhile (fun byte => decide (byte = 0x30)) = bytes := List.takeWhile_append_dropWhile
  have zeros : (bytes.takeWhile fun byte => decide (byte = 0x30)).all digitBytes.has = true := by
    rw [List.all_eq_true]
    intro byte member
    have zero : byte = 0x30 := by simpa using List.mem_takeWhile_imp member
    subst zero
    decide
  rw [← split, List.all_append, zeros, Bool.true_and]
  rw [stripZeroBytes] at digits
  split at digits
  · rename_i empty
    rw [empty]
    rfl
  · exact digits

theorem whitespace_ne_point {char : Char} (white : isWhitespace char = true) : char ≠ '.' := by
  rintro rfl
  revert white
  decide

theorem whitespace_not_digit {char : Char} (white : isWhitespace char = true) :
    ¬ char.isDigit = true := by
  intro digit
  rw [isDigit_not_whitespace digit] at white
  cases white

/-- With nothing else in front, the amount is kept, and what follows it up to the blanks. -/
theorem kept_eq {s : String} (front : (s.toList.takeWhile isWhitespace).all blanks.char = true) :
    kept s.toList = strTrim s.toList ++ (spaceBehind s).rdropWhile blanks.char := by
  have none : (s.toList.takeWhile isWhitespace).dropWhile blanks.char = [] := by
    rw [List.dropWhile_eq_nil_iff]
    exact fun char member => List.all_eq_true.mp front char member
  rw [kept, Utf8.dropWhile_narrow blanks_whitespace, none, List.nil_append,
    Utf8.rdropWhile_narrow blanks_whitespace, strTrim, trim, spaceBehind]

/-- What follows the amount joins its fraction, if it has one. -/
theorem splitPoint_append {text behind intPart fracPart : List Char}
    (split : splitPoint text = (intPart, fracPart)) (some : fracPart ≠ []) :
    splitPoint (text ++ behind) = (intPart, fracPart ++ behind) := by
  obtain ⟨noPoint, rfl | ⟨_, none⟩⟩ := splitPoint_eq split
  · rw [List.append_assoc, List.cons_append, splitPoint_point noPoint]
  · exact absurd none some

/-- The adapter without Qt returns the numeral of the wei when what it keeps does not matter. -/
theorem delivered_plain {s : String} {parts : List Char × List Char}
    (split : amountParts? s = some parts)
    (front : (s.toList.takeWhile isWhitespace).all blanks.char = true)
    (behind : (spaceBehind s).all blanks.char = true ∨ 18 ≤ parts.2.length) :
    swapDeliveryEthAmountToWei (Utf8.encode s.toList) = Utf8.encode (numeral (partsWei parts)) := by
  obtain ⟨intPart, fracPart⟩ := parts
  obtain ⟨split, intDigits, fracDigits⟩ := amountParts?_eq_some.mp split
  have ascii : ∀ char ∈ fracPart, Utf8.isAscii char = true := fun char member =>
    isDigit_isAscii (List.all_eq_true.mp fracDigits char member)
  have cutDigits : isDigits (fracPart.take 18) = true :=
    isDigits_of_subset fracDigits fun char member => List.mem_of_mem_take member
  have size : (Utf8.encode fracPart).length = fracPart.length := Utf8.size_ascii ascii
  obtain ⟨rest, whole, padded⟩ : ∃ rest, splitPoint (kept s.toList) = (intPart, fracPart ++ rest) ∧
      (rest = [] ∨ 18 ≤ fracPart.length) := by
    rw [kept_eq front]
    rcases behind with blank | long
    · have none : (spaceBehind s).rdropWhile blanks.char = [] := by
        rw [List.rdropWhile_eq_nil_iff]
        exact fun char member => List.all_eq_true.mp blank char member
      exact ⟨[], by rw [none, List.append_nil, List.append_nil, split], .inl rfl⟩
    · have some : fracPart ≠ [] := by
        rintro rfl
        simp at long
      exact ⟨_, splitPoint_append split some, .inr long⟩
  have places : (Utf8.encode (fracPart ++ rest)).take 18 ++
      List.replicate (18 - (Utf8.encode (fracPart ++ rest)).length) 0x30 =
      Utf8.encode (padRight 18 (fracPart.take 18)) := by
    have zeros : ∀ count, Utf8.encode (List.replicate count '0') = List.replicate count 0x30 := by
      intro count
      induction count with
      | zero => rfl
      | succ count ih => rw [List.replicate_succ, Utf8.encode_cons, ih]; rfl
    have shown : 18 - (fracPart.take 18).length = 18 - fracPart.length := by
      rw [List.length_take]
      omega
    rw [padRight, Utf8.encode_append (fracPart.take 18), zeros, shown,
      ← Utf8.take_encode_ascii ascii]
    rcases padded with rfl | long
    · rw [List.append_nil, size]
    · have none : 18 - (Utf8.encode (fracPart ++ rest)).length = 0 := by
        rw [Utf8.encode_append, List.length_append, size]
        omega
      rw [none, Nat.sub_eq_zero_of_le long, Utf8.encode_append,
        List.take_append_of_le_length (by omega)]
  rw [swapDeliveryEthAmountToWei_encode]
  split
  · rename_i empty
    rw [empty] at whole
    simp only [splitPoint, List.takeWhile_nil, List.dropWhile_nil, List.tail_nil, Prod.mk.injEq,
      List.nil_eq, List.append_eq_nil_iff] at whole
    obtain ⟨rfl, rfl, rfl⟩ := whole
    decide
  · have digits : isDigits (intPart ++ padRight 18 (fracPart.take 18)) = true :=
      isDigits_append.mpr ⟨intDigits, isDigits_padRight.mpr cutDigits⟩
    have width : (padRight 18 (fracPart.take 18)).length = 18 :=
      length_padRight (by rw [List.length_take]; omega)
    have some : intPart ++ padRight 18 (fracPart.take 18) ≠ [] := by
      intro none
      rw [(List.append_eq_nil_iff.mp none).2] at width
      cases width
    rw [whole, places, ← Utf8.encode_append, stripZeroBytes_encode some,
      withoutLeadingZeros_eq_numeral digits some, value_append, width, partsWei]

/-- Where the adapter without Qt returns digits, what it kept did not matter. -/
theorem blank_of_delivered {s : String} {parts : List Char × List Char}
    (split : amountParts? s = some parts)
    (digits : (swapDeliveryEthAmountToWei (Utf8.encode s.toList)).all digitBytes.has = true) :
    (s.toList.takeWhile isWhitespace).all blanks.char = true ∧
      ((spaceBehind s).all blanks.char = true ∨ 18 ≤ parts.2.length) := by
  obtain ⟨intPart, fracPart⟩ := parts
  obtain ⟨split, intDigits, fracDigits⟩ := amountParts?_eq_some.mp split
  have size : (Utf8.encode fracPart).length = fracPart.length := Utf8.size_ascii
    fun char member => isDigit_isAscii (List.all_eq_true.mp fracDigits char member)
  rw [swapDeliveryEthAmountToWei_encode] at digits
  -- what is kept has digits up to the point, and for eighteen bytes behind it
  have kept : kept s.toList ≠ [] →
      (splitPoint (kept s.toList)).1.all Char.isDigit = true ∧
        ((Utf8.encode (splitPoint (kept s.toList)).2).take 18).all digitBytes.has = true := by
    intro some
    rw [if_neg some] at digits
    have all := all_of_stripZeroBytes digits
    rw [List.all_append, List.all_append, Bool.and_eq_true, Bool.and_eq_true,
      digitBytes.all_encode] at all
    have same : digitBytes.char = Char.isDigit := funext digitBytes_char
    rw [same] at all
    exact ⟨all.1, all.2.1⟩
  have front : (s.toList.takeWhile isWhitespace).all blanks.char = true := by
    by_contra other
    have dropped : (s.toList.takeWhile isWhitespace).dropWhile blanks.char ≠ [] := by
      intro none
      rw [List.dropWhile_eq_nil_iff] at none
      exact other (List.all_eq_true.mpr none)
    obtain ⟨char, more, whole⟩ := List.exists_cons_of_ne_nil dropped
    have white : isWhitespace char = true := by
      have member : char ∈ (s.toList.takeWhile isWhitespace).dropWhile blanks.char := by
        simp [whole]
      exact List.mem_takeWhile_imp ((List.dropWhile_sublist _).mem member)
    have stays : ¬ blanks.char char = true := by
      have first := List.head?_dropWhile_not blanks.char (s.toList.takeWhile isWhitespace)
      rw [whole] at first
      simpa using first
    have shape : Module.kept s.toList = char :: (more ++ s.toList.dropWhile isWhitespace).rdropWhile
        blanks.char := by
      rw [Module.kept, Utf8.dropWhile_narrow blanks_whitespace, whole, List.cons_append,
        Utf8.rdropWhile_cons stays]
    have first := (kept (by simp [shape])).1
    rw [shape, splitPoint, List.takeWhile_cons, if_pos (by simp [whitespace_ne_point white]),
      List.all_cons, Bool.and_eq_true] at first
    exact whitespace_not_digit white first.1
  refine ⟨front, ?_⟩
  by_contra other
  obtain ⟨dark, short⟩ := not_or.mp other
  have rest : (spaceBehind s).rdropWhile blanks.char ≠ [] := by
    intro none
    rw [List.rdropWhile_eq_nil_iff] at none
    exact dark (List.all_eq_true.mpr none)
  have whites : ∀ char ∈ (spaceBehind s).rdropWhile blanks.char, isWhitespace char = true :=
    fun char member => List.mem_rtakeWhile_imp ((List.rdropWhile_prefix _ _).subset member)
  have shape := kept_eq front
  have facts := kept (by
    rw [shape]
    exact List.append_ne_nil_of_right_ne_nil _ rest)
  obtain ⟨char, more, whole⟩ := List.exists_cons_of_ne_nil rest
  have white : isWhitespace char = true := whites char (by simp [whole])
  rw [shape] at facts
  obtain ⟨noPoint, same | ⟨same, none⟩⟩ := splitPoint_eq split
  · -- the white space is among the eighteen bytes of the fraction
    rw [same, List.append_assoc, List.cons_append, splitPoint_point noPoint, whole,
      Utf8.encode_append, Utf8.encode_cons] at facts
    rcases digitBytes.encodeChar_cases char with ⟨digit, -⟩ | ⟨-, some, foreign⟩
    · rw [digitBytes_char] at digit
      exact whitespace_not_digit white digit
    · obtain ⟨byte, bytes, encoded⟩ := List.exists_cons_of_ne_nil some
      have outside : digitBytes.has byte = false := foreign byte (by simp [encoded])
      have room : ∃ left, 18 - (Utf8.encode fracPart).length = left + 1 :=
        ⟨17 - fracPart.length, by simp only at short; omega⟩
      obtain ⟨left, room⟩ := room
      have bad := facts.2
      rw [List.take_append, room, encoded, List.cons_append, List.take_succ_cons] at bad
      simp [outside] at bad
  · -- the white space is in the whole part
    have solid : ∀ other ∈ intPart ++ (spaceBehind s).rdropWhile blanks.char, other ≠ '.' := by
      intro other member
      rcases List.mem_append.mp member with before | after
      · exact noPoint other before
      · exact whitespace_ne_point (whites other after)
    rw [same, splitPoint_none solid, whole] at facts
    have digit := List.all_eq_true.mp facts.1 char (by simp)
    exact whitespace_not_digit white digit

/-- The adapter with Qt returns the numeral of the wei of every decimal number. -/
theorem ethAmountToWeiValue_eq {s : String} {parts : List Char × List Char}
    (split : amountParts? s = some parts) :
    ethAmountToWeiValue s = String.ofList (numeral (partsWei parts)) := by
  obtain ⟨intPart, fracPart⟩ := parts
  obtain ⟨split, intDigits, fracDigits⟩ := amountParts?_eq_some.mp split
  have cut : (if 18 < fracPart.length then fracPart.take 18 else fracPart) = fracPart.take 18 := by
    split
    · rfl
    · rw [List.take_of_length_le (by omega)]
  have cutDigits : isDigits (fracPart.take 18) = true :=
    isDigits_of_subset fracDigits fun char member => List.mem_of_mem_take member
  have width : (padRight 18 (fracPart.take 18)).length = 18 :=
    length_padRight (by rw [List.length_take]; omega)
  rw [ethAmountToWeiValue, trimmed_eq]
  by_cases empty : strTrim s.toList = []
  · rw [empty] at split
    simp only [splitPoint, List.takeWhile_nil, List.dropWhile_nil, List.tail_nil, Prod.mk.injEq,
      List.nil_eq] at split
    obtain ⟨rfl, rfl⟩ := split
    rw [if_pos empty]
    decide
  · have digits : isDigits (intPart ++ padRight 18 (fracPart.take 18)) = true :=
      isDigits_append.mpr ⟨intDigits, isDigits_padRight.mpr cutDigits⟩
    have some : intPart ++ padRight 18 (fracPart.take 18) ≠ [] := by
      intro none
      rw [(List.append_eq_nil_iff.mp none).2] at width
      cases width
    rw [if_neg empty, split]
    simp only [cut]
    rw [withoutLeadingZeros_eq_numeral digits some, value_append, width, partsWei]

/-- What the plugin shows for some wei is converted back to them. -/
theorem ethToWei_weiToEthValue (wei : U128) :
    ethToWei (weiToEthValue (String.ofList (numeral wei.toNat))) = some (.ok wei) := by
  have small := wei.isLt
  have digits := isDigits_numeral wei.toNat
  have trimmed : trim Ui.qtSpace (String.ofList (numeral wei.toNat)).toList =
      numeral wei.toNat := by
    rw [trimmed_eq, String.toList_ofList]
    exact Trimming.trim_solid fun char member =>
      isDigit_not_whitespace (List.all_eq_true.mp digits char member)
  have canonical : withoutLeadingZeros (numeral wei.toNat) = numeral wei.toNat := by
    rw [withoutLeadingZeros_eq_numeral digits (numeral_ne_nil _), value_numeral]
  simp only [weiToEthValue, trimmed, canonical, numeral_ne_nil, if_false]
  by_cases short : (numeral wei.toNat).length ≤ 18
  · have written := ethToWei_written (by decide : isDigits ['0'] = true)
      (isDigits_padLeft.mpr digits) (length_padLeft short) (by decide)
    have none : value ['0'] = 0 := by decide
    rw [none, Nat.zero_mul, Nat.zero_add, value_padLeft, value_numeral, BitVec.ofNat_toNat,
      BitVec.setWidth_eq] at written
    rw [if_pos short]
    split at written
    · rename_i empty
      rw [if_pos empty]
      exact written
    · rename_i some
      rw [if_neg some]
      exact written
  · have lengths : ((numeral wei.toNat).drop ((numeral wei.toNat).length - 18)).length = 18 := by
      rw [List.length_drop]
      omega
    have whole := value_append ((numeral wei.toNat).take ((numeral wei.toNat).length - 18))
      ((numeral wei.toNat).drop ((numeral wei.toNat).length - 18))
    rw [List.take_append_drop, value_numeral, lengths] at whole
    have written := ethToWei_written
      (isDigits_of_subset digits fun char member => List.mem_of_mem_take member)
      (isDigits_of_subset digits fun char member => List.mem_of_mem_drop member) lengths
      (by omega : value ((numeral wei.toNat).take ((numeral wei.toNat).length - 18)) < 2 ^ 128)
    rw [← whole, BitVec.ofNat_toNat, BitVec.setWidth_eq] at written
    rw [if_neg short]
    split at written
    · rename_i empty
      rw [if_pos empty]
      exact written
    · rename_i some
      rw [if_neg some]
      exact written

/-- Digits that come to less than `2 ^ 128` wei are converted exactly. -/
theorem ethToWei_small {s : String} {parts : List Char × List Char}
    (split : amountParts? s = some parts) (small : partsWei parts < 2 ^ 128) :
    ethToWei s = some (.ok (BitVec.ofNat 128 (partsWei parts))) := by
  refine ethToWei_digits split ?_
  rw [partsWei] at small
  omega

/-- A text that is neither rejected nor plain is converted wrongly, and no other is. -/
theorem converts_iff {s : String} :
    Converts s ↔ Rejected (splitPoint (strTrim s.toList)) ∨ Plain s := by
  constructor
  · intro converts
    by_cases failed : ∃ message, ethToWei s = some (.error message)
    · exact .inl (ethToWei_error_iff.mp failed)
    right
    cases split : amountParts? s with
    | none => exact absurd (converts.other split) failed
    | some parts =>
        have digits := (amountParts?_eq_some.mp split).2.2
        have floor := floor_amountValue digits
        have fits : partsWei parts < 2 ^ 128 := by
          by_contra large
          exact failed (converts.tooLarge parts split (by rw [floor]; omega))
        have wei := converts.decimal parts split (by rwa [floor])
        rw [floor] at wei
        have delivered := (converts.adapters _ wei).2
        have numerals : (swapDeliveryEthAmountToWei (Utf8.encode s.toList)).all digitBytes.has =
            true := by
          rw [delivered, digitBytes.all_encode, funext digitBytes_char]
          exact isDigits_numeral _
        exact ⟨parts, split, fits, blank_of_delivered split numerals⟩
  · rintro (rejected | ⟨parts, split, fits, front, behind⟩)
    · obtain ⟨message, failed⟩ := ethToWei_error_iff.mpr rejected
      refine ⟨?_, fun _ _ _ => ⟨message, failed⟩, fun _ => ⟨message, failed⟩, ?_⟩
      · intro parts split small
        have digits := (amountParts?_eq_some.mp split).2.2
        rw [floor_amountValue digits] at small
        rw [ethToWei_small split small] at failed
        cases failed
      · intro wei converted
        rw [failed] at converted
        cases converted
    · have digits := (amountParts?_eq_some.mp split).2.2
      have converted := ethToWei_small split fits
      constructor
      · intro other same _
        obtain rfl := Option.some.inj (split.symm.trans same)
        rw [floor_amountValue digits]
        exact converted
      · intro other same large
        obtain rfl := Option.some.inj (split.symm.trans same)
        rw [floor_amountValue digits] at large
        omega
      · intro none
        rw [split] at none
        cases none
      · intro wei returned
        rw [converted] at returned
        have same : BitVec.ofNat 128 (partsWei parts) = wei := by simpa using returned
        have number : wei.toNat = partsWei parts := by
          rw [← same, BitVec.toNat_ofNat, Nat.mod_eq_of_lt fits]
        rw [number]
        exact ⟨ethAmountToWeiValue_eq split, delivered_plain split front behind⟩

/-- Amounts that are written are read back, and a text is converted as it should be exactly
when it is rejected or plain. -/
theorem eth_amounts_convert_iff (wei : U128) (s : String) :
    (ethToWei (weiToEthString wei) = some (.ok wei) ∧
      ethToWei (weiToEthValue (String.ofList (numeral wei.toNat))) = some (.ok wei)) ∧
    (Converts s ↔ Rejected (splitPoint (strTrim s.toList)) ∨ Plain s) :=
  ⟨⟨ethToWei_weiToEthString wei, ethToWei_weiToEthValue wei⟩, converts_iff⟩

/-- A sign in the fraction takes the place of a digit. -/
theorem signed_fraction :
    ethToWei "1.+5" = some (.ok 1050000000000000000) ∧ ¬ Converts "1.+5" := by
  have wei : ethToWei "1.+5" = some (.ok 1050000000000000000) := by decide +kernel
  refine ⟨wei, fun converts => ?_⟩
  obtain ⟨message, failed⟩ := converts.other (by decide +kernel)
  rw [wei] at failed
  cases failed

end AtomicSwaps.Module
