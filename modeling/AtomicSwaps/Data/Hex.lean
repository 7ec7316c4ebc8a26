import AtomicSwaps.Basic

/-!
# Hexadecimal text

Lowercase hexadecimal of byte strings and reading it back, as `hex::encode` and
`hex::decode` do: two digits a byte, either case accepted.
-/

namespace Hex

/-- The lowercase digit of a value below 16. -/
def digit (value : Nat) : Char :=
  if value < 10 then Char.ofNat (48 + value) else Char.ofNat (87 + value)

/-- The value of a digit of either case. -/
def value? (char : Char) : Option Nat :=
  if 48 ≤ char.toNat ∧ char.toNat ≤ 57 then some (char.toNat - 48)
  else if 97 ≤ char.toNat ∧ char.toNat ≤ 102 then some (char.toNat - 87)
  else if 65 ≤ char.toNat ∧ char.toNat ≤ 70 then some (char.toNat - 55)
  else none

/-- The digits of a byte string. -/
def digits : List UInt8 → List Char
  | [] => []
  | byte :: rest => digit (byte.toNat / 16) :: digit (byte.toNat % 16) :: digits rest

/-- The bytes a digit string denotes. -/
def bytes? : List Char → Option (List UInt8)
  | [] => some []
  | [_] => none
  | high :: low :: rest => do
      let high ← value? high
      let low ← value? low
      let rest ← bytes? rest
      return UInt8.ofNat (16 * high + low) :: rest

/-- `hex::encode`. -/
def encode (bytes : List UInt8) : String := String.ofList (digits bytes)

/-- `hex::decode`. -/
def decode (text : String) : Option (List UInt8) := bytes? text.toList

theorem value?_digit (value : Nat) (small : value < 16) : value? (digit value) = some value := by
  have all : ∀ value : Fin 16, value? (digit value) = some value.val := by decide
  exact all ⟨value, small⟩

theorem bytes?_digits (bytes : List UInt8) : bytes? (digits bytes) = some bytes := by
  induction bytes with
  | nil => rfl
  | cons byte rest ih =>
      have small := byte.toNat_lt
      have whole : 16 * (byte.toNat / 16) + byte.toNat % 16 = byte.toNat := by omega
      simp only [digits, bytes?, value?_digit (byte.toNat / 16) (by omega),
        value?_digit (byte.toNat % 16) (by omega), ih, Option.bind_eq_bind, Option.bind_some,
        Option.pure_def, whole, UInt8.ofNat_toNat]

/-- Reading back what was written. -/
@[simp] theorem decode_encode (bytes : List UInt8) : decode (encode bytes) = some bytes := by
  simp [decode, encode, bytes?_digits]

/-- Different byte strings are written differently. -/
theorem encode_injective : Function.Injective encode := by
  intro left right same
  have read := congrArg decode same
  simpa using read

/-- `text.trim_start_matches("0x")`: every leading `0x` is dropped. -/
def trimPrefix : List Char → List Char
  | '0' :: 'x' :: rest => trimPrefix rest
  | text => text

end Hex

namespace AtomicSwaps

/-- The `0x` form in which fixed-width hashes and ids are displayed. -/
def display {length : Nat} (bytes : Bytes length) : String := "0x" ++ Hex.encode bytes.toList

/-- `parse_hashlock_hex`: the hashlock a journal key denotes. -/
def parseHashlockHex (text : String) : Option Bytes32 := do
  let bytes ← Hex.bytes? (Hex.trimPrefix text.toList)
  Bytes.ofSlice? 32 bytes

/-- `parse_swap_id`: one `0x` is optional, then exactly 32 bytes follow. -/
def parseSwapId (text : String) : Option Bytes32 := do
  let bytes ← Hex.bytes? (match text.toList with
    | '0' :: 'x' :: rest => rest
    | whole => whole)
  Bytes.ofSlice? 32 bytes

/-- A digit is never the `x` of a prefix. -/
theorem trimPrefix_digits (bytes : List UInt8) :
    Hex.trimPrefix (Hex.digits bytes) = Hex.digits bytes := by
  match bytes with
  | [] => rfl
  | byte :: rest =>
      have noX : ∀ value : Fin 16, Hex.digit value ≠ 'x' := by decide
      have notX := noX ⟨byte.toNat % 16, by omega⟩
      simp only [Hex.digits]
      unfold Hex.trimPrefix
      split
      · rename_i same
        injection same with _ tail
        injection tail with second _
        exact absurd second notX
      · rfl

/-- A journal key written for a hashlock denotes it. -/
@[simp] theorem parseHashlockHex_encode (hashlock : Bytes32) :
    parseHashlockHex (Hex.encode hashlock.toList) = some hashlock := by
  simp [parseHashlockHex, Hex.encode, trimPrefix_digits, Hex.bytes?_digits]

/-- A displayed swap id is read back. -/
@[simp] theorem parseSwapId_display (swapId : Bytes32) :
    parseSwapId (display swapId) = some swapId := by
  simp [parseSwapId, display, Hex.encode, Hex.bytes?_digits]

end AtomicSwaps
