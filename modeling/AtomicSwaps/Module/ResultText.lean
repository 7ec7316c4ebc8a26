import AtomicSwaps.Ui.Text

/-!
# The texts of results

What the swap module reads in the JSON text that the FFI returns, character by character:
`extractJsonString` of `swap_impl.cpp` takes the first text that follows a quoted key, and a
result has an error when the key `error` has a text that is not empty.
-/

namespace AtomicSwaps.Module

open Ui (cSpace)

/-- What follows the first occurrence of `needle`. -/
def afterFirst (needle : List Char) : List Char → Option (List Char)
  | [] => if needle.isPrefixOf [] then some [] else none
  | c :: rest =>
      if needle.isPrefixOf (c :: rest) then some ((c :: rest).drop needle.length)
      else afterFirst needle rest

/-- The character an escape stands for. -/
def unescape : Char → Char
  | 'n' => '\n'
  | 'r' => '\r'
  | 't' => '\t'
  | c => c

/-- The rest of a string literal, unescaped, up to its closing quote. -/
def readLiteral : List Char → Option (List Char)
  | [] => none
  | '"' :: _ => some []
  | '\\' :: [] => none
  | '\\' :: c :: rest => (readLiteral rest).map (unescape c :: ·)
  | c :: rest => (readLiteral rest).map (c :: ·)

/-- `extractJsonString`: empty when there is no such text. -/
def extractJsonString (json key : List Char) : List Char :=
  match afterFirst ('"' :: key ++ ['"']) json with
  | none => []
  | some behind =>
      match afterFirst [':'] behind with
      | none => []
      | some value =>
          match value.dropWhile cSpace with
          | '"' :: literal => (readLiteral literal).getD []
          | _ => []

/-- `resultError`. -/
def resultError (resultJson : String) : String :=
  String.ofList (extractJsonString resultJson.toList ['e', 'r', 'r', 'o', 'r'])

/-! ## Text as `serde_json` writes it -/

/-- A character as `serde_json` writes it in a text. -/
def escape (c : Char) : List Char :=
  if c = '"' ∨ c = '\\' then ['\\', c]
  else if c = '\n' then ['\\', 'n']
  else if c = '\r' then ['\\', 'r']
  else if c = '\t' then ['\\', 't']
  else if c.toNat = 0x08 then ['\\', 'b']
  else if c.toNat = 0x0C then ['\\', 'f']
  else if c.toNat < 0x20 then
    ['\\', 'u', '0', '0', Nat.digitChar (c.toNat / 16), Nat.digitChar (c.toNat % 16)]
  else [c]

theorem readLiteral_plain {c : Char} (rest : List Char) (quote : c ≠ '"') (slash : c ≠ '\\') :
    readLiteral (c :: rest) = (readLiteral rest).map (c :: ·) := by
  rw [readLiteral.eq_def]
  split <;> simp_all

theorem digitChar_plain :
    ∀ digit < 16, Nat.digitChar digit ≠ '"' ∧ Nat.digitChar digit ≠ '\\' := by
  decide

end AtomicSwaps.Module
