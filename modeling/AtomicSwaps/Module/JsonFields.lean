import AtomicSwaps.Module.ResultText

/-!
# Fields of JSON text

`extractJsonValue` of `swap_impl.cpp` beside `extractJsonString`, on the text that `serde_json`
writes for an object. Both look for the first place where the key stands in quotes, wherever that
is, and read on from the next colon.
-/

namespace AtomicSwaps.Module

open Ui (cSpace)

/-- A number as `serde_json` writes it. -/
structure Numeral where
  text : List Char
  some : text ≠ []
  plain : ∀ c ∈ text, c.isDigit = true ∨ c ∈ ['-', '+', '.', 'e']

mutual

/-- `serde_json::Value`. -/
inductive Json where
  | null
  | bool (value : Bool)
  | number (value : Numeral)
  | string (text : List Char)
  | array (items : Items)
  | object (fields : Fields)

/-- The items of an array. -/
inductive Items where
  | nil
  | cons (item : Json) (rest : Items)

/-- The fields of an object, in their order. -/
inductive Fields where
  | nil
  | cons (key : List Char) (value : Json) (rest : Fields)

end

/-- What is written between two items. -/
def separator (first : Bool) : List Char := if first then [] else [',']

/-- A text in quotes. -/
def quoted (text : List Char) : List Char := '"' :: (text.flatMap escape ++ ['"'])

mutual

/-- `serde_json::to_string`. -/
def Json.encode : Json → List Char
  | .null => ['n', 'u', 'l', 'l']
  | .bool true => ['t', 'r', 'u', 'e']
  | .bool false => ['f', 'a', 'l', 's', 'e']
  | .number value => value.text
  | .string text => quoted text
  | .array items => '[' :: (items.encode true ++ [']'])
  | .object fields => '\x7b' :: (fields.encode true ++ ['\x7d'])

/-- The items of an array, with commas between them. -/
def Items.encode : Items → Bool → List Char
  | .nil, _ => []
  | .cons item rest, first => separator first ++ (item.encode ++ rest.encode false)

/-- The fields of an object, with commas between them. -/
def Fields.encode : Fields → Bool → List Char
  | .nil, _ => []
  | .cons key value rest, first =>
      separator first ++ (quoted key ++ ':' :: (value.encode ++ rest.encode false))

end

/-- The field with a key. -/
def Fields.find? (key : List Char) : Fields → Option Json
  | .nil => none
  | .cons name value rest => if name = key then some value else rest.find? key

/-- The loop of `extractJsonValue` over a bracket: what it takes, up to the bracket that closes. -/
def scanBrackets (opening closing : Char) : Int → Bool → Bool → List Char → Option (List Char)
  | _, _, _, [] => none
  | depth, true, true, c :: rest =>
      (scanBrackets opening closing depth true false rest).map (c :: ·)
  | depth, true, false, c :: rest =>
      (scanBrackets opening closing depth (c ≠ '"') (c = '\\') rest).map (c :: ·)
  | depth, false, escaped, c :: rest =>
      if c = '"' then (scanBrackets opening closing depth true escaped rest).map (c :: ·)
      else if c = opening then
        (scanBrackets opening closing (depth + 1) false escaped rest).map (c :: ·)
      else if c = closing then
        if depth - 1 = 0 then some [c]
        else (scanBrackets opening closing (depth - 1) false escaped rest).map (c :: ·)
      else (scanBrackets opening closing depth false escaped rest).map (c :: ·)

/-- The loop of `extractJsonValue` over a text in quotes, behind the first one. -/
def scanQuoted : Bool → List Char → Option (List Char)
  | _, [] => none
  | true, c :: rest => (scanQuoted false rest).map (c :: ·)
  | false, c :: rest =>
      if c = '\\' then (scanQuoted true rest).map (c :: ·)
      else if c = '"' then some [c]
      else (scanQuoted false rest).map (c :: ·)

/-- The characters of a value that is neither bracketed nor in quotes. -/
def inScalar (c : Char) : Bool := c ≠ ',' && c ≠ '\x7d' && !cSpace c

/-- What `extractJsonValue` takes at a place. -/
def readValue : List Char → List Char
  | [] => []
  | '\x7b' :: rest => (scanBrackets '\x7b' '\x7d' 0 false false ('\x7b' :: rest)).getD []
  | '[' :: rest => (scanBrackets '[' ']' 0 false false ('[' :: rest)).getD []
  | '"' :: rest => ((scanQuoted false rest).map ('"' :: ·)).getD []
  | text => text.takeWhile inScalar

/-- `extractJsonValue`: empty when there is no such value. -/
def extractJsonValue (json key : List Char) : List Char :=
  match afterFirst ('"' :: key ++ ['"']) json with
  | none => []
  | some behind =>
      match afterFirst [':'] behind with
      | none => []
      | some value => readValue (value.dropWhile cSpace)

/-- Where the value of a key is looked for: behind the key in quotes and the next colon. -/
def valueSite (json key : List Char) : Option (List Char) := do
  let behind ← afterFirst ('"' :: key ++ ['"']) json
  let value ← afterFirst [':'] behind
  return value.dropWhile cSpace

/-- What `extractJsonString` reads at a place. -/
def readString : List Char → List Char
  | '"' :: literal => (readLiteral literal).getD []
  | _ => []

theorem extractJsonValue_eq (json key : List Char) :
    extractJsonValue json key = ((valueSite json key).map readValue).getD [] := by
  unfold extractJsonValue valueSite
  cases afterFirst ('"' :: key ++ ['"']) json with
  | none => rfl
  | some behind =>
      dsimp only [Option.bind_eq_bind, Option.bind_some]
      cases afterFirst [':'] behind <;> rfl

theorem extractJsonString_eq (json key : List Char) :
    extractJsonString json key = ((valueSite json key).map readString).getD [] := by
  unfold extractJsonString valueSite
  cases afterFirst ('"' :: key ++ ['"']) json with
  | none => rfl
  | some behind =>
      dsimp only [Option.bind_eq_bind, Option.bind_some]
      cases afterFirst [':'] behind <;> rfl

/-! ## What is passed over -/

/-- A character in quotes: itself, or a backslash with what it escapes. -/
theorem escape_shape (c : Char) :
    (escape c = [c] ∧ c ≠ '"' ∧ c ≠ '\\') ∨
      ∃ x more, escape c = '\\' :: x :: more ∧ ∀ d ∈ more, d ≠ '"' ∧ d ≠ '\\' := by
  unfold escape
  split
  · exact .inr ⟨c, [], rfl, by simp⟩
  rename_i special
  split
  · exact .inr ⟨'n', [], rfl, by simp⟩
  split
  · exact .inr ⟨'r', [], rfl, by simp⟩
  split
  · exact .inr ⟨'t', [], rfl, by simp⟩
  split
  · exact .inr ⟨'b', [], rfl, by simp⟩
  split
  · exact .inr ⟨'f', [], rfl, by simp⟩
  split
  · have high := digitChar_plain (c.toNat / 16) (by omega)
    have low := digitChar_plain (c.toNat % 16) (by omega)
    refine .inr ⟨'u', _, rfl, ?_⟩
    simp [high, low]
  · simp only [not_or] at special
    exact .inl ⟨rfl, special⟩

theorem scanQuoted_plain {more : List Char} (plain : ∀ d ∈ more, d ≠ '"' ∧ d ≠ '\\')
    (rest : List Char) :
    scanQuoted false (more ++ rest) = (scanQuoted false rest).map (more ++ ·) := by
  induction more with
  | nil => simp
  | cons d more ih =>
      simp only [List.mem_cons, forall_eq_or_imp] at plain
      simp only [List.cons_append, scanQuoted, plain.1, if_false, ih plain.2, Option.map_map]
      rfl

theorem scanQuoted_escape (c : Char) (rest : List Char) :
    scanQuoted false (escape c ++ rest) = (scanQuoted false rest).map (escape c ++ ·) := by
  rcases escape_shape c with ⟨shape, quote, slash⟩ | ⟨x, more, shape, plain⟩
  · simp [shape, scanQuoted, quote, slash]
  · simp only [shape, List.cons_append, scanQuoted, if_true, scanQuoted_plain plain,
      Option.map_map]
    rfl

/-- A text in quotes is taken up to its own closing quote. -/
theorem scanQuoted_text (text rest : List Char) :
    scanQuoted false (text.flatMap escape ++ '"' :: rest) =
      some (text.flatMap escape ++ ['"']) := by
  induction text with
  | nil => simp [scanQuoted]
  | cons c text ih =>
      rw [List.flatMap_cons, List.append_assoc, scanQuoted_escape, ih]
      simp

/-- In quotes, a bracket counts for nothing. -/
theorem scanBrackets_plain {opening closing : Char} {depth : Int} {more : List Char}
    (plain : ∀ d ∈ more, d ≠ '"' ∧ d ≠ '\\') (rest : List Char) :
    scanBrackets opening closing depth true false (more ++ rest) =
      (scanBrackets opening closing depth true false rest).map (more ++ ·) := by
  induction more with
  | nil => simp
  | cons d more ih =>
      simp only [List.mem_cons, forall_eq_or_imp] at plain
      simp only [List.cons_append, scanBrackets, plain.1.1, plain.1.2, ne_eq, not_false_eq_true,
        decide_true, decide_false, ih plain.2, Option.map_map]
      rfl

theorem scanBrackets_escape {opening closing : Char} {depth : Int} (c : Char)
    (rest : List Char) :
    scanBrackets opening closing depth true false (escape c ++ rest) =
      (scanBrackets opening closing depth true false rest).map (escape c ++ ·) := by
  rcases escape_shape c with ⟨shape, quote, slash⟩ | ⟨x, more, shape, plain⟩
  · simp [shape, scanBrackets, quote, slash]
  · have open_slash : ('\\' : Char) ≠ '"' := by decide
    simp only [shape, List.cons_append, scanBrackets, ne_eq, open_slash, not_false_eq_true,
      decide_true, scanBrackets_plain plain, Option.map_map]
    rfl

/-- The scan of a bracket goes over `text` and is as deep behind it as it was before. -/
def Passes (opening closing : Char) (depth : Int) (text : List Char) : Prop :=
  ∀ rest, scanBrackets opening closing depth false false (text ++ rest) =
    (scanBrackets opening closing depth false false rest).map (text ++ ·)

theorem Passes.nil {opening closing : Char} {depth : Int} : Passes opening closing depth [] :=
  fun rest => by simp

theorem Passes.append {opening closing : Char} {depth : Int} {text more : List Char}
    (first : Passes opening closing depth text) (second : Passes opening closing depth more) :
    Passes opening closing depth (text ++ more) := by
  intro rest
  rw [List.append_assoc, first, second, Option.map_map]
  simp [Function.comp_def]

theorem Passes.plain {opening closing : Char} {depth : Int} {text : List Char}
    (plain : ∀ c ∈ text, c ≠ '"' ∧ c ≠ opening ∧ c ≠ closing) :
    Passes opening closing depth text := by
  induction text with
  | nil => exact .nil
  | cons c text ih =>
      simp only [List.mem_cons, forall_eq_or_imp] at plain
      intro rest
      have here := ih plain.2 rest
      simp only [List.cons_append, scanBrackets, plain.1, if_false, here, Option.map_map]
      rfl

/-- A text in quotes is passed over, whatever it holds. -/
theorem Passes.quoted {opening closing : Char} {depth : Int} (text : List Char) :
    Passes opening closing depth (quoted text) := by
  have inside (rest : List Char) :
      scanBrackets opening closing depth true false (text.flatMap escape ++ '"' :: rest) =
        (scanBrackets opening closing depth false false rest).map
          (text.flatMap escape ++ '"' :: ·) := by
    induction text with
    | nil => simp [scanBrackets]
    | cons c text ih =>
        rw [List.flatMap_cons, List.append_assoc, scanBrackets_escape, ih, Option.map_map]
        simp [Function.comp_def]
  intro rest
  have whole := inside rest
  simp only [Module.quoted, List.cons_append, List.append_assoc, List.nil_append, scanBrackets,
    if_true, whole, Option.map_map]
  rfl

/-- The two kinds of brackets. -/
inductive Brackets : Char → Char → Prop where
  | object : Brackets '\x7b' '\x7d'
  | array : Brackets '[' ']'

theorem Brackets.ne_quote {opening closing : Char} (kind : Brackets opening closing) :
    opening ≠ '"' ∧ closing ≠ '"' ∧ closing ≠ opening := by
  cases kind <;> decide

theorem Passes.word {opening closing : Char} (kind : Brackets opening closing) {depth : Int}
    {text : List Char} (word : ∀ c ∈ text, c ∉ ['"', '\x7b', '\x7d', '[', ']']) :
    Passes opening closing depth text := by
  refine .plain fun c here => ?_
  have apart := word c here
  simp only [List.mem_cons, List.not_mem_nil, or_false, not_or] at apart
  cases kind <;> simp [apart]

theorem Numeral.word (value : Numeral) :
    ∀ c ∈ value.text, c ∉ ['"', '\x7b', '\x7d', '[', ']'] := by
  intro c here
  rcases value.plain c here with digit | sign
  · intro bracket
    simp only [List.mem_cons, List.not_mem_nil, or_false] at bracket
    rcases bracket with rfl | rfl | rfl | rfl | rfl <;> simp at digit
  · simp only [List.mem_cons, List.not_mem_nil, or_false] at sign
    rcases sign with rfl | rfl | rfl | rfl <;> decide

/-- What stands inside a bracket of the kind that is scanned goes one deeper. -/
theorem Passes.nested {opening closing : Char} (kind : Brackets opening closing) {depth : Int}
    (inside : 1 ≤ depth) {text : List Char} (body : Passes opening closing (depth + 1) text) :
    Passes opening closing depth (opening :: (text ++ [closing])) := by
  obtain ⟨open_quote, close_quote, apart⟩ := kind.ne_quote
  intro rest
  have here := body (closing :: rest)
  have back : depth + 1 - 1 = depth := by omega
  have deeper : depth ≠ 0 := by omega
  simp only [scanBrackets, close_quote, apart, if_false, if_true, back, deeper] at here
  simp only [List.cons_append, List.append_assoc, List.nil_append, scanBrackets, open_quote,
    if_false, if_true, here, Option.map_map]
  rfl

/-- Brackets of the other kind count for nothing. -/
theorem Passes.around {opening closing : Char} (kind : Brackets opening closing) {depth : Int}
    {left right : Char} (other : Brackets left right) (apart : left ≠ opening)
    {text : List Char} (body : Passes opening closing depth text) :
    Passes opening closing depth (left :: (text ++ [right])) := by
  have first : Passes opening closing depth [left] := by
    refine .plain ?_
    cases kind <;> cases other <;> simp_all
  have last : Passes opening closing depth [right] := by
    refine .plain ?_
    cases kind <;> cases other <;> simp_all
  exact first.append (body.append last)

theorem Passes.separator {opening closing : Char} (kind : Brackets opening closing) {depth : Int}
    (first : Bool) : Passes opening closing depth (separator first) := by
  refine .word kind ?_
  cases first <;> simp [Module.separator]

mutual

/-- Inside a bracket, a whole value is passed over. -/
theorem Json.passes {opening closing : Char} (kind : Brackets opening closing) :
    ∀ (value : Json) {depth : Int}, 1 ≤ depth → Passes opening closing depth value.encode
  | .null, _, _ => .word kind (by simp [Json.encode])
  | .bool true, _, _ => .word kind (by simp [Json.encode])
  | .bool false, _, _ => .word kind (by simp [Json.encode])
  | .number value, _, _ => .word kind value.word
  | .string text, _, _ => .quoted text
  | .array items, depth, inside => by
      cases kind with
      | object => exact .around .object .array (by decide) (items.passes .object true inside)
      | array => exact .nested .array inside (items.passes .array true (by omega))
  | .object fields, depth, inside => by
      cases kind with
      | object => exact .nested .object inside (fields.passes .object true (by omega))
      | array => exact .around .array .object (by decide) (fields.passes .array true inside)

theorem Items.passes {opening closing : Char} (kind : Brackets opening closing) :
    ∀ (items : Items) (first : Bool) {depth : Int}, 1 ≤ depth →
      Passes opening closing depth (items.encode first)
  | .nil, _, _, _ => .nil
  | .cons item rest, first, _, inside =>
      (Passes.separator kind first).append
        ((item.passes kind inside).append (rest.passes kind false inside))

theorem Fields.passes {opening closing : Char} (kind : Brackets opening closing) :
    ∀ (fields : Fields) (first : Bool) {depth : Int}, 1 ≤ depth →
      Passes opening closing depth (fields.encode first)
  | .nil, _, _, _ => .nil
  | .cons key value rest, first, depth, inside => by
      have colon : Passes opening closing depth [':'] := .word kind (by simp)
      exact (Passes.separator kind first).append ((Passes.quoted key).append
        (colon.append ((value.passes kind inside).append (rest.passes kind false inside))))

end

/-! ## What is read at a value -/

/-- A value without brackets and quotes. -/
def Json.scalar : Json → Bool
  | .null | .bool _ | .number _ => true
  | .string _ | .array _ | .object _ => false

/-- What follows a value does not run on from it. -/
def Json.Ends (value : Json) (rest : List Char) : Prop :=
  value.scalar → ∀ c, rest.head? = some c → inScalar c = false

theorem readValue_scalar {text : List Char}
    (word : ∀ c, text.head? = some c → c ∉ ['"', '\x7b', '[']) :
    readValue text = text.takeWhile inScalar := by
  unfold readValue
  split <;> simp_all

theorem takeWhile_inScalar {word rest : List Char} (inside : ∀ c ∈ word, inScalar c = true)
    (ends : ∀ c, rest.head? = some c → inScalar c = false) :
    (word ++ rest).takeWhile inScalar = word := by
  rw [List.takeWhile_append_of_pos inside]
  cases rest with
  | nil => simp
  | cons c rest => simp [ends c rfl]

theorem Numeral.inScalar (value : Numeral) : ∀ c ∈ value.text, Module.inScalar c = true := by
  intro c here
  rcases value.plain c here with digit | sign
  · have range := Char.isDigit_iff_toNat.mp digit
    have comma : c ≠ ',' := by rintro rfl; simp at digit
    have brace : c ≠ '\x7d' := by rintro rfl; simp at digit
    have blank : cSpace c = false := by
      have zero : '0'.toNat = 48 := by decide
      have nine : '9'.toNat = 57 := by decide
      unfold cSpace
      simp
      omega
    simp [Module.inScalar, comma, brace, blank]
  · simp only [List.mem_cons, List.not_mem_nil, or_false] at sign
    rcases sign with rfl | rfl | rfl | rfl <;> decide

theorem scalar_inScalar {value : Json} (scalar : value.scalar) :
    ∀ c ∈ value.encode, inScalar c = true := by
  cases value with
  | null => simp [Json.encode]; decide
  | bool value => cases value <;> simp [Json.encode] <;> decide
  | number value => exact value.inScalar
  | _ => simp [Json.scalar] at scalar

theorem scalar_head {value : Json} (scalar : value.scalar) (rest : List Char) :
    ∀ c, (value.encode ++ rest).head? = some c → c ∉ ['"', '\x7b', '['] := by
  cases value with
  | null => simp [Json.encode]
  | bool value => cases value <;> simp [Json.encode]
  | number value =>
      intro c first
      have here : c ∈ value.text := by
        have := value.some
        cases shape : value.text with
        | nil => exact absurd shape this
        | cons d more => simp_all [Json.encode]
      have := value.word c here
      simp_all
  | _ => simp [Json.scalar] at scalar

/-- At a value the whole value is taken, and nothing more. -/
theorem readValue_encode (value : Json) (rest : List Char) (ends : value.Ends rest) :
    readValue (value.encode ++ rest) = value.encode := by
  have word (scalar : value.scalar) : readValue (value.encode ++ rest) = value.encode := by
    rw [readValue_scalar (scalar_head scalar rest)]
    exact takeWhile_inScalar (scalar_inScalar scalar) (ends scalar)
  cases value with
  | null => exact word rfl
  | bool value => exact word rfl
  | number value => exact word rfl
  | string text =>
      have taken := scanQuoted_text text rest
      simp [Json.encode, quoted, readValue, taken]
  | array items =>
      have taken := items.passes .array true (Int.le_refl 1) (']' :: rest)
      simp [scanBrackets] at taken
      simp [Json.encode, readValue, scanBrackets, taken]
  | object fields =>
      have taken := fields.passes .object true (Int.le_refl 1) ('\x7d' :: rest)
      simp [scanBrackets] at taken
      simp [Json.encode, readValue, scanBrackets, taken]

/-- What `extractJsonString` makes of an escape. -/
def undone : List Char → List Char
  | '\\' :: x :: more => unescape x :: more
  | plain => plain

/-- What `extractJsonString` makes of a character in quotes. -/
def readBack (c : Char) : List Char := undone (escape c)

/-- The characters that come back: the escapes `\b`, `\f` and `\u` are not undone. -/
def Kept (c : Char) : Prop := 0x20 ≤ c.toNat ∨ c ∈ ['\n', '\r', '\t']

theorem undone_plain {c : Char} (slash : c ≠ '\\') : undone [c] = [c] := by
  unfold undone
  split <;> simp_all

theorem readBack_kept {c : Char} (kept : Kept c) : readBack c = [c] := by
  unfold readBack escape
  split
  · rename_i special
    rcases special with rfl | rfl <;> rfl
  rename_i special
  simp only [not_or] at special
  split
  · rename_i line
    rw [line]
    rfl
  split
  · rename_i line
    rw [line]
    rfl
  split
  · rename_i line
    rw [line]
    rfl
  rename_i newline_ne return_ne tab_ne
  have high : 0x20 ≤ c.toNat := by
    rcases kept with high | blank
    · exact high
    · simp_all
  split
  · omega
  split
  · omega
  split
  · omega
  · exact undone_plain special.2

theorem readBack_not_kept {c : Char} (kept : ¬ Kept c) : ¬ [c] <+: readBack c := by
  simp only [Kept, not_or, List.mem_cons, List.not_mem_nil, or_false] at kept
  obtain ⟨low, newline, back, tab⟩ := kept
  have quote : c ≠ '"' := by rintro rfl; simp at low
  have slash : c ≠ '\\' := by rintro rfl; simp at low
  have letter (d : Char) (high : 0x20 ≤ d.toNat) : c ≠ d := by rintro rfl; omega
  unfold readBack escape
  simp only [quote, slash, or_self, if_false, newline, back, tab]
  split
  · simp [undone, unescape, letter 'b' (by decide)]
  split
  · simp [undone, unescape, letter 'f' (by decide)]
  split
  · simp [undone, unescape, letter 'u' (by decide)]
  · omega

theorem flatMap_readBack (text : List Char) :
    text.flatMap readBack = text ↔ ∀ c ∈ text, Kept c := by
  induction text with
  | nil => simp
  | cons c text ih =>
      rw [List.flatMap_cons, List.forall_mem_cons]
      by_cases kept : Kept c
      · rw [readBack_kept kept]
        simp [kept, ih]
      · refine iff_of_false (fun whole => ?_) (fun both => kept both.1)
        cases shape : readBack c with
        | nil =>
            rcases escape_shape c with ⟨same, -, -⟩ | ⟨x, more, same, -⟩
            · simp [readBack, same, undone] at shape
            · simp [readBack, same, undone] at shape
        | cons d more =>
            rw [shape, List.cons_append, List.cons.injEq] at whole
            exact readBack_not_kept kept (by simp [shape, whole.1])

theorem readLiteral_word {more : List Char} (plain : ∀ d ∈ more, d ≠ '"' ∧ d ≠ '\\')
    (rest : List Char) : readLiteral (more ++ rest) = (readLiteral rest).map (more ++ ·) := by
  induction more with
  | nil => simp
  | cons d more ih =>
      simp only [List.mem_cons, forall_eq_or_imp] at plain
      rw [List.cons_append, readLiteral_plain _ plain.1.1 plain.1.2, ih plain.2, Option.map_map]
      rfl

/-- A text in quotes is read as what is made of each of its characters. -/
theorem readLiteral_text (text rest : List Char) :
    readLiteral (text.flatMap escape ++ '"' :: rest) = some (text.flatMap readBack) := by
  induction text with
  | nil => simp [readLiteral]
  | cons c text ih =>
      rw [List.flatMap_cons, List.append_assoc, List.flatMap_cons]
      rcases escape_shape c with ⟨shape, quote, slash⟩ | ⟨x, more, shape, plain⟩
      · have back : readBack c = [c] := by rw [readBack, shape, undone_plain slash]
        rw [shape, back]
        simp [readLiteral_plain _ quote slash, ih]
      · have back : readBack c = unescape x :: more := by rw [readBack, shape, undone]
        rw [shape, back]
        simp [readLiteral, readLiteral_word plain, ih]

/-- A literal is never closed for one of the two readers alone. -/
theorem scanQuoted_none (literal : List Char) :
    scanQuoted false literal = none ↔ readLiteral literal = none := by
  induction literal using readLiteral.induct with
  | case1 => simp [scanQuoted, readLiteral]
  | case2 rest => simp [scanQuoted, readLiteral]
  | case3 => simp [scanQuoted, readLiteral]
  | case4 c rest ih => simpa [scanQuoted, readLiteral] using ih
  | case5 c rest quote lone slash ih =>
      have plain : c ≠ '\\' := by
        intro back
        cases rest with
        | nil => exact lone back rfl
        | cons d more => exact slash d more back rfl
      rw [readLiteral_plain rest quote plain]
      simpa [scanQuoted, plain, show c ≠ '"' from quote] using ih

/-! ## Where a value is looked for -/

/-- `after` is what follows the first place where `needle` stands in `text`. -/
def FirstAfter (needle text after : List Char) : Prop :=
  ∃ before, text = before ++ (needle ++ after) ∧
    ∀ earlier later, text = earlier ++ (needle ++ later) → before.length ≤ earlier.length

theorem afterFirst_iff {needle text after : List Char} (some : needle ≠ []) :
    afterFirst needle text = .some after ↔ FirstAfter needle text after := by
  induction text with
  | nil =>
      have none : ¬ needle.isPrefixOf [] = true := by cases needle <;> simp_all
      refine iff_of_false (by simp [afterFirst, none]) ?_
      rintro ⟨before, whole, -⟩
      simp_all
  | cons c text ih =>
      unfold afterFirst
      split
      · rename_i here
        obtain ⟨later, whole⟩ := List.isPrefixOf_iff_prefix.mp here
        rw [← whole, List.drop_left, Option.some.injEq]
        constructor
        · rintro rfl
          exact ⟨[], rfl, fun earlier later _ => Nat.zero_le _⟩
        · rintro ⟨before, same, first⟩
          have empty : before = [] := by
            have := first [] later rfl
            simpa using this
          simpa [empty] using same
      · rename_i elsewhere
        rw [ih]
        have further {earlier later : List Char} (whole : c :: text = earlier ++ (needle ++ later)) :
            ∃ back, earlier = c :: back ∧ text = back ++ (needle ++ later) := by
          cases earlier with
          | nil =>
              exact absurd (List.isPrefixOf_iff_prefix.mpr ⟨later, whole.symm⟩) elsewhere
          | cons d back =>
              rw [List.cons_append, List.cons.injEq] at whole
              exact ⟨back, by rw [whole.1], whole.2⟩
        constructor
        · rintro ⟨before, whole, first⟩
          refine ⟨c :: before, by rw [whole]; rfl, fun earlier later split => ?_⟩
          obtain ⟨back, rfl, behind⟩ := further split
          exact Nat.succ_le_succ (first back later behind)
        · rintro ⟨before, whole, first⟩
          obtain ⟨back, rfl, behind⟩ := further whole
          refine ⟨back, behind, fun earlier later split => ?_⟩
          have := first (c :: earlier) later (by rw [split]; rfl)
          simpa using this

/-- The place behind the first colon behind the first place where the key stands in quotes. -/
def Site (json key site : List Char) : Prop :=
  ∃ behind value, FirstAfter ('"' :: key ++ ['"']) json behind ∧
    FirstAfter [':'] behind value ∧ site = value.dropWhile cSpace

theorem valueSite_iff {json key site : List Char} :
    valueSite json key = some site ↔ Site json key site := by
  unfold valueSite Site
  simp only [Option.bind_eq_bind, Option.pure_def, Option.bind_eq_some_iff, Option.some.injEq,
    afterFirst_iff (List.cons_ne_nil _ _), List.cons_append]
  constructor
  · rintro ⟨behind, first, value, colon, rfl⟩
    exact ⟨behind, value, first, colon, rfl⟩
  · rintro ⟨behind, value, first, colon, rfl⟩
    exact ⟨behind, first, value, colon, rfl⟩

/-- There is nothing to take at a place: it is a separator, or what opens there is not closed. -/
def Unread : List Char → Prop
  | [] => True
  | '\x7b' :: rest => scanBrackets '\x7b' '\x7d' 0 false false ('\x7b' :: rest) = none
  | '[' :: rest => scanBrackets '[' ']' 0 false false ('[' :: rest) = none
  | '"' :: rest => scanQuoted false rest = none
  | c :: _ => inScalar c = false

/-- The text of a field: empty unless it is a string. -/
def stringOf : Option Json → List Char
  | some (.string text) => text
  | _ => []

/-- The JSON text of a field. -/
def jsonOf : Option Json → List Char
  | some value => value.encode
  | none => []

/-- The two readers give back what `serde_json` was given. -/
structure Extracted (fields : Fields) (key : List Char) : Prop where
  string : extractJsonString (Json.object fields).encode key = stringOf (fields.find? key)
  value : extractJsonValue (Json.object fields).encode key = jsonOf (fields.find? key)
  error : key = ['e', 'r', 'r', 'o', 'r'] →
    (resultError (String.ofList (Json.object fields).encode) ≠ "" ↔
      ∃ text, text ≠ [] ∧ fields.find? key = some (.string text))

/-- The key is found first at its own field, with nothing in it that is read back otherwise; a key
that is not there is found nowhere, or where nothing can be taken. -/
def Sited (fields : Fields) (key : List Char) : Prop :=
  match fields.find? key with
  | some value =>
      (∃ rest, Site (Json.object fields).encode key (value.encode ++ rest) ∧ value.Ends rest) ∧
        ∀ text, value = .string text → ∀ c ∈ text, Kept c
  | none => ∀ site, Site (Json.object fields).encode key site → Unread site

theorem readValue_unread (site : List Char) : readValue site = [] ↔ Unread site := by
  unfold readValue Unread
  split
  · simp
  · rename_i rest
    have taken (text : List Char) : scanBrackets '\x7b' '\x7d' 0 false false ('\x7b' :: rest) =
        some text → text ≠ [] := by
      intro found empty
      simp [scanBrackets, empty] at found
    cases found : scanBrackets '\x7b' '\x7d' 0 false false ('\x7b' :: rest) with
    | none => simp [found]
    | some text => simp [found, taken text found]
  · rename_i rest
    have taken (text : List Char) : scanBrackets '[' ']' 0 false false ('[' :: rest) =
        some text → text ≠ [] := by
      intro found empty
      simp [scanBrackets, empty] at found
    cases found : scanBrackets '[' ']' 0 false false ('[' :: rest) with
    | none => simp [found]
    | some text => simp [found, taken text found]
  · rename_i rest
    cases found : scanQuoted false rest <;> simp [found]
  · rename_i empty object array quote
    cases site with
    | nil => simp at empty
    | cons c rest => cases more : inScalar c <;> simp_all

/-- Where nothing can be taken no text is read either. -/
theorem readString_unread {site : List Char} (unread : Unread site) : readString site = [] := by
  unfold readString
  split
  · rename_i literal
    have none : scanQuoted false literal = none := unread
    rw [(scanQuoted_none literal).mp none]
    rfl
  · rfl

theorem encode_ne_nil (value : Json) : value.encode ≠ [] := by
  cases value with
  | bool value => cases value <;> simp [Json.encode]
  | number value => exact value.some
  | _ => simp [Json.encode, quoted]

theorem scanBrackets_prefix {opening closing : Char} {depth : Int} {quote escaped : Bool}
    {text taken : List Char}
    (found : scanBrackets opening closing depth quote escaped text = some taken) :
    taken <+: text := by
  induction text generalizing depth quote escaped taken with
  | nil => simp [scanBrackets] at found
  | cons c rest ih =>
      have longer {depth : Int} {quote escaped : Bool}
          (found : (scanBrackets opening closing depth quote escaped rest).map (c :: ·) =
            some taken) : taken <+: c :: rest := by
        obtain ⟨more, inner, rfl⟩ := Option.map_eq_some_iff.mp found
        exact List.cons_prefix_cons.mpr ⟨rfl, ih inner⟩
      cases quote with
      | true => cases escaped <;> exact longer found
      | false =>
          unfold scanBrackets at found
          split at found
          · exact longer found
          split at found
          · exact longer found
          split at found
          · split at found
            · obtain rfl := Option.some.inj found
              simp
            · exact longer found
          · exact longer found

theorem scanQuoted_prefix {escaped : Bool} {text taken : List Char}
    (found : scanQuoted escaped text = some taken) : taken <+: text := by
  induction text generalizing escaped taken with
  | nil => simp [scanQuoted] at found
  | cons c rest ih =>
      have longer {escaped : Bool}
          (found : (scanQuoted escaped rest).map (c :: ·) = some taken) :
          taken <+: c :: rest := by
        obtain ⟨more, inner, rfl⟩ := Option.map_eq_some_iff.mp found
        exact List.cons_prefix_cons.mpr ⟨rfl, ih inner⟩
      cases escaped with
      | true => exact longer found
      | false =>
          unfold scanQuoted at found
          split at found
          · exact longer found
          split at found
          · obtain rfl := Option.some.inj found
            simp
          · exact longer found

/-- What is taken at a place stands there. -/
theorem readValue_prefix (site : List Char) : readValue site <+: site := by
  unfold readValue
  split
  · exact List.nil_prefix
  · rename_i rest
    cases found : scanBrackets '\x7b' '\x7d' 0 false false ('\x7b' :: rest) with
    | none => exact List.nil_prefix
    | some text => exact scanBrackets_prefix found
  · rename_i rest
    cases found : scanBrackets '[' ']' 0 false false ('[' :: rest) with
    | none => exact List.nil_prefix
    | some text => exact scanBrackets_prefix found
  · rename_i rest
    cases found : scanQuoted false rest with
    | none => exact List.nil_prefix
    | some text => exact List.cons_prefix_cons.mpr ⟨rfl, scanQuoted_prefix found⟩
  · exact List.takeWhile_prefix _

/-- A value is taken exactly where it stands and ends. -/
theorem readValue_iff (value : Json) (site : List Char) :
    readValue site = value.encode ↔ ∃ rest, site = value.encode ++ rest ∧ value.Ends rest := by
  constructor
  · intro read
    obtain ⟨rest, whole⟩ := read ▸ readValue_prefix site
    refine ⟨rest, whole.symm, fun scalar c next => ?_⟩
    rw [← whole, readValue_scalar (scalar_head scalar rest),
      List.takeWhile_append_of_pos (scalar_inScalar scalar)] at read
    have none : rest.takeWhile inScalar = [] := by simpa using read
    cases rest with
    | nil => simp at next
    | cons d rest =>
        obtain rfl : d = c := by simpa using next
        cases inside : inScalar d with
        | true => simp [inside] at none
        | false => rfl
  · rintro ⟨rest, rfl, ends⟩
    exact readValue_encode value rest ends

theorem readString_encode (value : Json) (rest : List Char) :
    readString (value.encode ++ rest) = match value with
      | .string text => text.flatMap readBack
      | _ => [] := by
  cases value with
  | string text => simp [Json.encode, quoted, readString, readLiteral_text]
  | null => simp [Json.encode, readString]
  | bool value => cases value <;> simp [Json.encode, readString]
  | array items => simp [Json.encode, readString]
  | object fields => simp [Json.encode, readString]
  | number value =>
      have head := @scalar_head (.number value) rfl rest
      unfold readString
      split
      · rename_i shape
        exact absurd (by simp) (head '"' (by rw [shape]; rfl))
      · rfl

theorem resultError_ne_empty {text : List Char} :
    resultError (String.ofList text) ≠ "" ↔
      extractJsonString text ['e', 'r', 'r', 'o', 'r'] ≠ [] := by
  rw [resultError, String.toList_ofList]
  simp

theorem stringOf_ne_nil {field : Option Json} :
    stringOf field ≠ [] ↔ ∃ text, text ≠ [] ∧ field = some (.string text) := by
  unfold stringOf
  split <;> simp_all

theorem extracted_iff_readers {fields : Fields} {key : List Char} :
    Extracted fields key ↔
      extractJsonString (Json.object fields).encode key = stringOf (fields.find? key) ∧
        extractJsonValue (Json.object fields).encode key = jsonOf (fields.find? key) := by
  constructor
  · intro whole
    exact ⟨whole.string, whole.value⟩
  · rintro ⟨string, value⟩
    refine ⟨string, value, ?_⟩
    rintro rfl
    rw [resultError_ne_empty, string, stringOf_ne_nil]

/-- The value is taken where it stands, so its key has to be found there. -/
theorem extractJsonValue_iff {json key : List Char} {value : Json} :
    extractJsonValue json key = value.encode ↔
      ∃ rest, Site json key (value.encode ++ rest) ∧ value.Ends rest := by
  rw [extractJsonValue_eq]
  constructor
  · intro read
    cases here : valueSite json key with
    | none =>
        rw [here] at read
        exact absurd read.symm (encode_ne_nil value)
    | some site =>
        rw [here] at read
        obtain ⟨rest, rfl, ends⟩ := (readValue_iff value site).mp read
        exact ⟨rest, valueSite_iff.mp here, ends⟩
  · rintro ⟨rest, site, ends⟩
    rw [valueSite_iff.mpr site]
    exact readValue_encode value rest ends

theorem extractJsonValue_empty {json key : List Char} :
    extractJsonValue json key = [] ↔ ∀ site, Site json key site → Unread site := by
  simp only [extractJsonValue_eq, ← valueSite_iff]
  cases valueSite json key with
  | none => simp
  | some site => simp [readValue_unread]

/-- The two readers undo `serde_json` exactly where the key is found first at its own field and no
character comes back changed. -/
theorem extracted_iff (fields : Fields) (key : List Char) :
    Extracted fields key ↔ Sited fields key := by
  rw [extracted_iff_readers]
  unfold Sited
  cases field : fields.find? key with
  | none =>
      dsimp only [stringOf, jsonOf]
      rw [extractJsonValue_empty]
      constructor
      · exact fun both => both.2
      · intro unread
        refine ⟨?_, unread⟩
        rw [extractJsonString_eq]
        cases here : valueSite (Json.object fields).encode key with
        | none => rfl
        | some site => exact readString_unread (unread site (valueSite_iff.mp here))
  | some value =>
      dsimp only [jsonOf]
      rw [extractJsonValue_iff]
      -- a string comes back as it was when each of its characters does
      have text (rest : List Char) (site : Site (Json.object fields).encode key
          (value.encode ++ rest)) :
          extractJsonString (Json.object fields).encode key = stringOf (some value) ↔
            ∀ text, value = .string text → ∀ c ∈ text, Kept c := by
        rw [extractJsonString_eq, valueSite_iff.mpr site]
        dsimp only [Option.map_some, Option.getD_some]
        rw [readString_encode]
        cases value with
        | string text => simp [stringOf, flatMap_readBack]
        | _ => simp [stringOf]
      constructor
      · rintro ⟨string, rest, site, ends⟩
        exact ⟨⟨rest, site, ends⟩, (text rest site).mp string⟩
      · rintro ⟨⟨rest, site, ends⟩, kept⟩
        exact ⟨(text rest site).mpr kept, rest, site, ends⟩

/-- An error with the escape character of a terminal: it comes back with `u001b` in its place. -/
theorem escape_misread :
    ¬ Extracted (.cons ['e', 'r', 'r', 'o', 'r'] (.string ['\x1b', '[', '3', '1', 'm']) .nil)
      ['e', 'r', 'r', 'o', 'r'] := by
  intro whole
  have read := whole.string
  revert read
  decide

end AtomicSwaps.Module
