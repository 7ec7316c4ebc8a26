import AtomicSwaps.Basic
import Mathlib.Data.Nat.Digits.Lemmas
import Mathlib.Data.List.TakeWhile

/-!
# The funds guard

`insufficientEthForOffer` of `eth_funds_guard.h`: amounts of wei as byte strings of decimal digits,
added and compared without ever becoming numbers. `Decimals.value` is the number that such a string
denotes.
-/

namespace AtomicSwaps.Ui

/-- `std::string`. -/
abbrev ByteString := List UInt8

/-- `std::isdigit`. -/
def isDigitByte (byte : UInt8) : Bool := 48 ≤ byte ∧ byte ≤ 57

/-- `isDecimalWei`. -/
def isDecimalWei (text : ByteString) : Bool := !text.isEmpty && text.all isDigitByte

/-- `stripLeadingZeros`. -/
def stripLeadingZeros (text : ByteString) : ByteString :=
  match text.dropWhile (· == 48) with
  | [] => [48]
  | digit :: rest => digit :: rest

/-- `std::string::compare`, of which only the sign is specified. -/
def byteCompare : ByteString → ByteString → Int
  | [], [] => 0
  | [], _ :: _ => -1
  | _ :: _, [] => 1
  | a :: as, b :: bs => if a < b then -1 else if b < a then 1 else byteCompare as bs

/-- `compareDecimal`. -/
def compareDecimal (a b : ByteString) : Int :=
  let na := stripLeadingZeros a
  let nb := stripLeadingZeros b
  if na.length ≠ nb.length then
    if na.length < nb.length then -1 else 1
  else byteCompare na nb

/-- What the next byte adds to the digit, if there is one: `*it++ - '0'`. -/
def digitAt : ByteString → Int
  | [] => 0
  | byte :: _ => byte.toInt8.toInt - 48

/-- The loop of `addDecimal`, over the strings from their ends. -/
def addReversed (ia ib : ByteString) (carry : Int) : ByteString :=
  if ia = [] ∧ ib = [] ∧ carry = 0 then []
  else
    let digit := carry + digitAt ia + digitAt ib
    UInt8.ofNat (48 + digit.tmod 10).toNat :: addReversed ia.tail ib.tail (digit.tdiv 10)
termination_by (ia.length + ib.length, carry.natAbs)
decreasing_by
  rename_i going
  cases ia with
  | cons a as => exact .left _ _ (by simp; omega)
  | nil =>
      cases ib with
      | cons b bs => exact .left _ _ (by simp)
      | nil =>
          have some : carry ≠ 0 := by simpa using going
          simp only [digitAt, List.tail_nil, Int.add_zero, Int.natAbs_tdiv]
          exact .right _ (Nat.div_lt_self (Int.natAbs_pos.mpr some) (by decide))

/-- `addDecimal`. -/
def addDecimal (a b : ByteString) : ByteString := (addReversed a.reverse b.reverse 0).reverse

/-- `insufficientEthForOffer`. -/
def insufficientEthForOffer (balanceWei offerWei headroomWei : ByteString) : Bool :=
  if !isDecimalWei balanceWei || !isDecimalWei offerWei || !isDecimalWei headroomWei then false
  else compareDecimal balanceWei (addDecimal offerWei headroomWei) < 0

namespace Decimals

/-- The number that a byte denotes. -/
def digit (byte : UInt8) : Nat := byte.toNat - 48

/-- The number that digits denote, the lowest first. -/
def reversedValue (digits : ByteString) : Nat := Nat.ofDigits 10 (digits.map digit)

/-- The number that a string of digits denotes. -/
def value (text : ByteString) : Nat := reversedValue text.reverse

/-- Every byte is a digit. -/
abbrev Digits (text : ByteString) : Prop := ∀ byte ∈ text, isDigitByte byte = true

theorem isDecimalWei_iff {text : ByteString} :
    isDecimalWei text = true ↔ text ≠ [] ∧ Digits text := by
  simp [isDecimalWei, Digits]

theorem isDigitByte_iff {byte : UInt8} :
    isDigitByte byte = true ↔ 48 ≤ byte.toNat ∧ byte.toNat ≤ 57 := by
  simp [isDigitByte, UInt8.le_iff_toNat_le]

@[simp] theorem reversedValue_nil : reversedValue [] = 0 := rfl

@[simp] theorem reversedValue_cons (byte : UInt8) (rest : ByteString) :
    reversedValue (byte :: rest) = digit byte + 10 * reversedValue rest := by
  simp [reversedValue, Nat.ofDigits_cons]

theorem Digits.tail {text : ByteString} (digits : Digits text) : Digits text.tail :=
  fun byte member => digits byte (List.mem_of_mem_tail member)

/-- A byte that is read as a digit is one. -/
theorem toInt8_digit {byte : UInt8} (is_digit : isDigitByte byte = true) :
    byte.toInt8.toInt - 48 = digit byte := by
  obtain ⟨low, high⟩ := isDigitByte_iff.mp is_digit
  have signed : byte.toInt8.toInt = byte.toNat := by
    apply BitVec.toInt_eq_toNat_of_lt
    change 2 * byte.toNat < 2 ^ 8
    omega
  rw [signed, digit]
  omega

/-- The next digit and the rest of a string that is read from its end. -/
theorem digitAt_spec {text : ByteString} (digits : Digits text) :
    0 ≤ digitAt text ∧ digitAt text ≤ 9 ∧
      (reversedValue text : Int) = digitAt text + 10 * reversedValue text.tail := by
  cases text with
  | nil => simp [digitAt]
  | cons byte rest =>
      have is_digit := digits byte List.mem_cons_self
      obtain ⟨low, high⟩ := isDigitByte_iff.mp is_digit
      rw [digitAt, toInt8_digit is_digit, reversedValue_cons, List.tail_cons]
      refine ⟨by omega, ?_, by push_cast; ring⟩
      rw [digit]
      omega

/-- The byte that is pushed for a digit. -/
theorem pushed_digit (rest : Int) (low : 0 ≤ rest) (high : rest ≤ 9) :
    isDigitByte (UInt8.ofNat (48 + rest).toNat) = true ∧
      (digit (UInt8.ofNat (48 + rest).toNat) : Int) = rest := by
  have small : (UInt8.ofNat (48 + rest).toNat).toNat = (48 + rest).toNat := by
    rw [UInt8.toNat_ofNat']
    omega
  rw [isDigitByte_iff, digit, small]
  omega

/-- Adding from the ends with a carry of at most one: the digits that are pushed denote the sum. -/
theorem addReversed_spec {ia ib : ByteString} {carry : Int} (first : Digits ia) (second : Digits ib)
    (none : 0 ≤ carry) (one : carry ≤ 1) :
    Digits (addReversed ia ib carry) ∧
      (reversedValue (addReversed ia ib carry) : Int) =
        reversedValue ia + reversedValue ib + carry := by
  fun_induction addReversed ia ib carry with
  | case1 ia ib carry done =>
      obtain ⟨rfl, rfl, rfl⟩ := done
      exact ⟨nofun, rfl⟩
  | case2 ia ib carry going sum ih =>
      obtain ⟨lowA, highA, splitA⟩ := digitAt_spec first
      obtain ⟨lowB, highB, splitB⟩ := digitAt_spec second
      have sumIs : sum = carry + digitAt ia + digitAt ib := rfl
      have mod : sum.tmod 10 = sum % 10 := Int.tmod_eq_emod_of_nonneg (by omega)
      have div : sum.tdiv 10 = sum / 10 := Int.tdiv_eq_ediv_of_nonneg (by omega)
      obtain ⟨digits, added⟩ := ih first.tail second.tail (by omega) (by omega)
      obtain ⟨is_digit, pushed⟩ := pushed_digit (sum.tmod 10) (by omega) (by omega)
      refine ⟨List.forall_mem_cons.mpr ⟨is_digit, digits⟩, ?_⟩
      rw [reversedValue_cons]
      push_cast
      rw [pushed, added, splitA, splitB]
      omega

/-- `addDecimal` adds. -/
theorem addDecimal_spec {a b : ByteString} (first : Digits a) (second : Digits b) :
    Digits (addDecimal a b) ∧ value (addDecimal a b) = value a + value b := by
  have reversed : ∀ {text : ByteString}, Digits text → Digits text.reverse :=
    fun digits byte member => digits byte (List.mem_reverse.mp member)
  obtain ⟨digits, added⟩ :=
    addReversed_spec (reversed first) (reversed second) (le_refl 0) (by decide)
  refine ⟨reversed digits, ?_⟩
  rw [value, addDecimal, List.reverse_reverse]
  simp only [value]
  omega

@[simp] theorem value_nil : value [] = 0 := rfl

theorem value_cons (byte : UInt8) (rest : ByteString) :
    value (byte :: rest) = digit byte * 10 ^ rest.length + value rest := by
  simp [value, reversedValue, Nat.ofDigits_append]
  ring

theorem digit_le {byte : UInt8} (is_digit : isDigitByte byte = true) : digit byte ≤ 9 := by
  have high := (isDigitByte_iff.mp is_digit).2
  rw [digit]
  omega

/-- A number has fewer digits than the power of ten above it. -/
theorem value_lt {text : ByteString} (digits : Digits text) : value text < 10 ^ text.length := by
  induction text with
  | nil => simp
  | cons byte rest ih =>
      obtain ⟨is_digit, others⟩ := List.forall_mem_cons.mp digits
      have high := digit_le is_digit
      have below := ih others
      rw [value_cons, List.length_cons, pow_succ]
      have scaled : digit byte * 10 ^ rest.length ≤ 9 * 10 ^ rest.length :=
        Nat.mul_le_mul_right _ high
      omega

/-- Leading zeros denote nothing. -/
theorem value_dropWhile_zero (text : ByteString) :
    value (text.dropWhile (· == 48)) = value text := by
  induction text with
  | nil => rfl
  | cons byte rest ih =>
      by_cases zero : byte = 48
      · subst zero
        rw [List.dropWhile_cons_of_pos (by decide), ih, value_cons]
        simp [digit]
      · rw [List.dropWhile_cons_of_neg (by simpa using zero)]

/-- A string of digits without leading zeros, except for zero itself. -/
structure Stripped (text : ByteString) : Prop where
  digits : Digits text
  some : text ≠ []
  leading : 1 < text.length → 10 ^ (text.length - 1) ≤ value text

theorem stripLeadingZeros_spec {text : ByteString} (digits : Digits text) :
    Stripped (stripLeadingZeros text) ∧ value (stripLeadingZeros text) = value text := by
  have same := value_dropWhile_zero text
  have kept : Digits (text.dropWhile (· == 48)) :=
    fun byte member => digits byte ((List.dropWhile_sublist _).subset member)
  have head := List.head_dropWhile_not (· == (48 : UInt8)) (l := text)
  unfold stripLeadingZeros
  cases rest : text.dropWhile (· == 48) with
  | nil =>
      rw [rest] at same
      refine ⟨⟨List.forall_mem_singleton.mpr rfl, nofun, fun more => ?_⟩, same⟩
      exact absurd more (by decide)
  | cons byte others =>
      rw [rest] at same kept
      refine ⟨⟨kept, nofun, fun _ => ?_⟩, same⟩
      have nonzero : byte ≠ 48 := by
        have leading := head (by rw [rest]; exact List.cons_ne_nil _ _)
        simpa [rest] using leading
      have low := (isDigitByte_iff.mp (kept byte List.mem_cons_self)).1
      have other : byte.toNat ≠ 48 := fun same => nonzero (UInt8.toNat_inj.mp same)
      have positive : 1 ≤ digit byte := by
        rw [digit]
        omega
      rw [value_cons, List.length_cons, Nat.add_sub_cancel]
      calc 10 ^ others.length ≤ digit byte * 10 ^ others.length := Nat.le_mul_of_pos_left _ positive
        _ ≤ _ := Nat.le_add_right _ _

/-- Of two stripped strings the shorter one denotes less. -/
theorem Stripped.lt_of_shorter {a b : ByteString} (first : Stripped a) (second : Stripped b)
    (shorter : a.length < b.length) : value a < value b := by
  have positive := List.length_pos_of_ne_nil first.some
  calc value a < 10 ^ a.length := value_lt first.digits
    _ ≤ 10 ^ (b.length - 1) := Nat.pow_le_pow_right (by decide) (by omega)
    _ ≤ value b := second.leading (by omega)

/-- The sign of a comparison is the order of two numbers. -/
structure Orders (sign : Int) (first second : Nat) : Prop where
  less : sign < 0 ↔ first < second
  same : sign = 0 ↔ first = second

/-- A higher digit in front decides, whatever follows. -/
theorem value_cons_lt {x y : UInt8} {as bs : ByteString} (digitX : isDigitByte x = true)
    (less : x < y) (digits : Digits as) (lengths : as.length = bs.length) :
    value (x :: as) < value (y :: bs) := by
  have low := (isDigitByte_iff.mp digitX).1
  have higher : digit x + 1 ≤ digit y := by
    have less := UInt8.lt_iff_toNat_lt.mp less
    simp only [digit]
    omega
  have scaled : (digit x + 1) * 10 ^ bs.length ≤ digit y * 10 ^ bs.length :=
    Nat.mul_le_mul_right _ higher
  have below := value_lt digits
  rw [value_cons, value_cons, lengths]
  rw [lengths] at below
  rw [Nat.add_mul] at scaled
  omega

/-- Strings of digits of one length compare as their numbers do. -/
theorem byteCompare_spec {a b : ByteString} (first : Digits a) (second : Digits b)
    (long : a.length = b.length) : Orders (byteCompare a b) (value a) (value b) := by
  induction a generalizing b with
  | nil =>
      obtain rfl := List.eq_nil_of_length_eq_zero long.symm
      exact ⟨by simp [byteCompare], by simp [byteCompare]⟩
  | cons x as ih =>
      cases b with
      | nil => cases long
      | cons y bs =>
          obtain ⟨digitX, others⟩ := List.forall_mem_cons.mp first
          obtain ⟨digitY, theirs⟩ := List.forall_mem_cons.mp second
          have lengths : as.length = bs.length := Nat.succ.inj long
          simp only [byteCompare]
          split
          · rename_i less
            have order := value_cons_lt digitX less others lengths
            exact ⟨by simpa using order, by simpa using order.ne⟩
          · rename_i notLess
            split
            · rename_i more
              have order := value_cons_lt digitY more theirs lengths.symm
              exact ⟨by simpa using order.le, by simpa using order.ne'⟩
            · rename_i notMore
              obtain rfl : x = y :=
                UInt8.le_antisymm (UInt8.not_lt.mp notMore) (UInt8.not_lt.mp notLess)
              have rest := ih others theirs lengths
              rw [value_cons, value_cons, lengths]
              exact ⟨by simpa using rest.less, by simpa using rest.same⟩

/-- `compareDecimal` is the order of the numbers. -/
theorem compareDecimal_spec {a b : ByteString} (first : Digits a) (second : Digits b) :
    Orders (compareDecimal a b) (value a) (value b) := by
  obtain ⟨strippedA, sameA⟩ := stripLeadingZeros_spec first
  obtain ⟨strippedB, sameB⟩ := stripLeadingZeros_spec second
  rw [← sameA, ← sameB]
  simp only [compareDecimal]
  split
  · rename_i lengths
    split
    · rename_i shorter
      have order := strippedA.lt_of_shorter strippedB shorter
      exact ⟨by simpa using order, by simpa using order.ne⟩
    · rename_i longer
      have order := strippedB.lt_of_shorter strippedA (by omega)
      exact ⟨by simpa using order.le, by simpa using order.ne'⟩
  · rename_i lengths
    exact byteCompare_spec strippedA.digits strippedB.digits (Decidable.not_not.mp lengths)

end Decimals

open Decimals

/-- The guard blocks exactly the known balances that are below the sum, `compareDecimal` is the
order of the numbers that digits denote, and `addDecimal` their addition. -/
theorem insufficientEthForOffer_iff (balanceWei offerWei headroomWei : ByteString) :
    (insufficientEthForOffer balanceWei offerWei headroomWei = true ↔
      (balanceWei ≠ [] ∧ Digits balanceWei) ∧ (offerWei ≠ [] ∧ Digits offerWei) ∧
        (headroomWei ≠ [] ∧ Digits headroomWei) ∧
          value balanceWei < value offerWei + value headroomWei) ∧
      (Digits balanceWei → Digits offerWei →
        Orders (compareDecimal balanceWei offerWei) (value balanceWei) (value offerWei)) ∧
      (Digits offerWei → Digits headroomWei →
        value (addDecimal offerWei headroomWei) = value offerWei + value headroomWei) := by
  refine ⟨?_, compareDecimal_spec, fun offer headroom => (addDecimal_spec offer headroom).2⟩
  simp only [← isDecimalWei_iff]
  unfold insufficientEthForOffer
  by_cases known : isDecimalWei balanceWei = true ∧ isDecimalWei offerWei = true ∧
      isDecimalWei headroomWei = true
  · obtain ⟨balance, offer, headroom⟩ := known
    obtain ⟨needed, added⟩ :=
      addDecimal_spec (isDecimalWei_iff.mp offer).2 (isDecimalWei_iff.mp headroom).2
    have order := (compareDecimal_spec (isDecimalWei_iff.mp balance).2 needed).less
    rw [added] at order
    simpa [balance, offer, headroom] using order
  · constructor
    · intro blocked
      split at blocked
      · cases blocked
      · rename_i all
        simp only [Bool.or_eq_true, Bool.not_eq_true', not_or, Bool.not_eq_false] at all
        exact absurd ⟨all.1.1, all.1.2, all.2⟩ known
    · rintro ⟨balance, offer, headroom, -⟩
      exact absurd ⟨balance, offer, headroom⟩ known

end AtomicSwaps.Ui
