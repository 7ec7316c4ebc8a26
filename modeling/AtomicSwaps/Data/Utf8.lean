import Mathlib.Data.List.DropRight
import Mathlib.Data.List.TakeWhile

/-!
# UTF-8 text

The bytes of a text, slicing at a byte offset, and searches for bytes of the ASCII range,
which find the characters of that range and nothing else.
-/

namespace Utf8

/-- The bytes of a text. -/
def encode (text : List Char) : List UInt8 := text.flatMap String.utf8EncodeChar

@[simp] theorem encode_nil : encode [] = [] := rfl

@[simp] theorem encode_cons (char : Char) (text : List Char) :
    encode (char :: text) = String.utf8EncodeChar char ++ encode text := rfl

@[simp] theorem encode_append (first second : List Char) :
    encode (first ++ second) = encode first ++ encode second := List.flatMap_append

@[simp] theorem encode_eq_nil {text : List Char} : encode text = [] ↔ text = [] := by
  cases text with
  | nil => simp
  | cons char text => simp [String.utf8EncodeChar_ne_nil]

/-- The length of a text in bytes. -/
def size (text : List Char) : Nat := (encode text).length

@[simp] theorem size_nil : size [] = 0 := rfl

@[simp] theorem size_cons (char : Char) (text : List Char) :
    size (char :: text) = char.utf8Size + size text := by
  simp [size]

@[simp] theorem size_append (first second : List Char) :
    size (first ++ second) = size first + size second := by
  simp [size]

@[simp] theorem size_eq_zero {text : List Char} : size text = 0 ↔ text = [] := by
  simp [size]

theorem length_le_size (text : List Char) : text.length ≤ size text := by
  induction text with
  | nil => simp
  | cons char text ih =>
      have one := char.utf8Size_pos
      rw [List.length_cons, size_cons]
      omega

/-- `&text[..width]`, which panics inside a character and past the end. -/
def slice : Nat → List Char → Option (List Char)
  | 0, _ => some []
  | _ + 1, [] => none
  | width + 1, char :: text =>
      if char.utf8Size ≤ width + 1 then
        (slice (width + 1 - char.utf8Size) text).map (char :: ·)
      else none

/-- A slice is what the text begins with, up to that many bytes. -/
theorem slice_eq_some {width : Nat} {text cut : List Char} :
    slice width text = some cut ↔ cut <+: text ∧ size cut = width := by
  induction text generalizing width cut with
  | nil =>
      cases width with
      | zero =>
          simp only [slice, Option.some.injEq, List.prefix_nil, size_eq_zero, and_self]
          exact eq_comm
      | succ width =>
          simp only [slice, List.prefix_nil, false_iff, reduceCtorEq]
          rintro ⟨rfl, full⟩
          cases full
  | cons char text ih =>
      have one := char.utf8Size_pos
      cases width with
      | zero =>
          simp only [slice, Option.some.injEq, size_eq_zero]
          constructor
          · rintro rfl
            exact ⟨List.nil_prefix, rfl⟩
          · exact fun sliced => sliced.2.symm
      | succ width =>
          rw [slice]
          cases cut with
          | nil => split <;> simp
          | cons first cut =>
              rw [List.cons_prefix_cons, size_cons]
              split
              · rename_i fits
                simp only [Option.map_eq_some_iff, ih, List.cons.injEq]
                constructor
                · rintro ⟨_, ⟨front, full⟩, rfl, rfl⟩
                  exact ⟨⟨rfl, front⟩, by omega⟩
                · rintro ⟨⟨rfl, front⟩, full⟩
                  exact ⟨cut, ⟨front, by omega⟩, rfl, rfl⟩
              · rename_i wide
                simp only [false_iff, reduceCtorEq]
                rintro ⟨⟨rfl, -⟩, full⟩
                omega

/-- A character of the ASCII range. -/
def isAscii (char : Char) : Bool := char.toNat < 128

theorem encodeChar_ascii {char : Char} (ascii : isAscii char = true) :
    String.utf8EncodeChar char = [UInt8.ofNat char.toNat] := by
  have small : char.val.toNat ≤ 127 := by
    have below := of_decide_eq_true ascii
    change char.val.toNat < 128 at below
    omega
  simp only [String.utf8EncodeChar, small, if_true]
  rfl

theorem utf8Size_ascii {char : Char} (ascii : isAscii char = true) : char.utf8Size = 1 := by
  rw [← String.length_utf8EncodeChar, encodeChar_ascii ascii, List.length_singleton]

/-- The bytes of a character beyond the ASCII range are beyond it too. -/
theorem encodeChar_wide {char : Char} (wide : ¬ isAscii char = true) :
    ∀ byte ∈ String.utf8EncodeChar char, 128 ≤ byte.toNat := by
  have large : ¬ char.val.toNat ≤ 127 := by
    have above := of_decide_eq_false (Bool.not_eq_true _ ▸ wide : isAscii char = false)
    change ¬ char.val.toNat < 128 at above
    omega
  have mixed : ∀ value modulus base, base ∈ [0x80, 0xc0, 0xe0, 0xf0] → modulus ≤ 0x40 →
      value % modulus < modulus → base + modulus ≤ 256 →
      128 ≤ (UInt8.ofNat (value % modulus + base)).toNat := by
    intro value modulus base member _ below fits
    have least : 128 ≤ base := by
      simp only [List.mem_cons, List.not_mem_nil, or_false] at member
      omega
    rw [UInt8.toNat_ofNat']
    omega
  intro byte member
  simp only [String.utf8EncodeChar, large, if_false] at member
  split at member
  · simp only [List.mem_cons, List.not_mem_nil, or_false] at member
    rcases member with rfl | rfl <;> exact mixed _ _ _ (by decide) (by decide)
      (Nat.mod_lt _ (by decide)) (by decide)
  · split at member
    · simp only [List.mem_cons, List.not_mem_nil, or_false] at member
      rcases member with rfl | rfl | rfl <;> exact mixed _ _ _ (by decide) (by decide)
        (Nat.mod_lt _ (by decide)) (by decide)
    · simp only [List.mem_cons, List.not_mem_nil, or_false] at member
      rcases member with rfl | rfl | rfl | rfl <;> exact mixed _ _ _ (by decide) (by decide)
        (Nat.mod_lt _ (by decide)) (by decide)

theorem size_ascii {text : List Char} (ascii : ∀ char ∈ text, isAscii char = true) :
    size text = text.length := by
  induction text with
  | nil => rfl
  | cons char text ih =>
      rw [size_cons, utf8Size_ascii (ascii char List.mem_cons_self),
        ih fun other member => ascii other (List.mem_cons_of_mem _ member), List.length_cons,
        Nat.add_comm]

/-- As many bytes of an ASCII text as characters. -/
theorem take_encode_ascii {text : List Char} (ascii : ∀ char ∈ text, isAscii char = true)
    (width : Nat) : (encode text).take width = encode (text.take width) := by
  induction text generalizing width with
  | nil => simp
  | cons char text ih =>
      cases width with
      | zero => simp
      | succ width =>
          have rest := ih (fun other member => ascii other (List.mem_cons_of_mem _ member)) width
          simp [encodeChar_ascii (ascii char List.mem_cons_self), rest]

/-- Within the ASCII range bytes are characters. -/
theorem slice_ascii {width : Nat} {text : List Char} (ascii : ∀ char ∈ text, isAscii char = true)
    (long : width ≤ text.length) : slice width text = some (text.take width) := by
  induction text generalizing width with
  | nil =>
      obtain rfl : width = 0 := by simpa using long
      rfl
  | cons char text ih =>
      cases width with
      | zero => rfl
      | succ width =>
          have one := utf8Size_ascii (ascii char List.mem_cons_self)
          have rest := ih (fun other member => ascii other (List.mem_cons_of_mem _ member))
            (Nat.le_of_succ_le_succ long)
          simp [slice, one, rest]

section Trimming

variable {α : Type} {inner outer : α → Bool}

/-- Dropping less leaves the rest of what dropping more takes away. -/
theorem dropWhile_narrow (within : ∀ item, inner item = true → outer item = true) (text : List α) :
    text.dropWhile inner = (text.takeWhile outer).dropWhile inner ++ text.dropWhile outer := by
  induction text with
  | nil => rfl
  | cons item text ih =>
      by_cases wide : outer item = true
      · by_cases narrow : inner item = true
        · simp [wide, narrow, ih]
        · simp [wide, narrow]
      · have narrow : ¬ inner item = true := fun small => wide (within item small)
        simp [wide, narrow]

/-- The same at the end. -/
theorem rdropWhile_narrow (within : ∀ item, inner item = true → outer item = true) (text : List α) :
    text.rdropWhile inner = text.rdropWhile outer ++ (text.rtakeWhile outer).rdropWhile inner := by
  rw [List.rdropWhile, dropWhile_narrow within, List.reverse_append, List.rdropWhile,
    List.rdropWhile, List.rtakeWhile, List.reverse_reverse]

/-- What stands first stays when the end is dropped. -/
theorem rdropWhile_cons {item : α} {text : List α} (kept : ¬ inner item = true) :
    (item :: text).rdropWhile inner = item :: text.rdropWhile inner := by
  induction text using List.reverseRecOn with
  | nil => simp [List.rdropWhile_singleton, kept]
  | append_singleton text last ih =>
      rw [← List.cons_append, List.rdropWhile_concat, List.rdropWhile_concat, ih]
      split <;> rfl

end Trimming

/-- A set of bytes of the ASCII range. -/
structure AsciiSet where
  has : UInt8 → Bool
  ascii : ∀ byte, has byte = true → byte.toNat < 128

/-- The characters of an ASCII set. -/
def AsciiSet.char (set : AsciiSet) (char : Char) : Bool :=
  isAscii char && set.has (UInt8.ofNat char.toNat)

namespace AsciiSet

variable (set : AsciiSet) {text : List Char}

/-- A character is in the set with all its bytes or with none. -/
theorem encodeChar_cases (char : Char) :
    (set.char char = true ∧ ∃ byte, String.utf8EncodeChar char = [byte] ∧ set.has byte = true) ∨
    (set.char char = false ∧ String.utf8EncodeChar char ≠ [] ∧
      ∀ byte ∈ String.utf8EncodeChar char, set.has byte = false) := by
  by_cases ascii : isAscii char = true
  · rw [encodeChar_ascii ascii, AsciiSet.char, ascii, Bool.true_and]
    cases member : set.has (UInt8.ofNat char.toNat) with
    | true => exact .inl ⟨rfl, _, rfl, member⟩
    | false => exact .inr ⟨rfl, by simp, by simpa using member⟩
  · refine .inr ⟨by simp [AsciiSet.char, ascii], String.utf8EncodeChar_ne_nil, ?_⟩
    intro byte member
    have wide := encodeChar_wide ascii byte member
    by_contra inside
    have narrow := set.ascii byte (by simpa using inside)
    omega

theorem dropWhile_encode :
    (encode text).dropWhile set.has = encode (text.dropWhile set.char) := by
  induction text with
  | nil => rfl
  | cons char text ih =>
      rcases set.encodeChar_cases char with ⟨inside, byte, single, member⟩ | ⟨outside, some, none⟩
      · rw [encode_cons, single, List.singleton_append, List.dropWhile_cons, if_pos member, ih,
          List.dropWhile_cons, if_pos inside]
      · obtain ⟨byte, bytes, whole⟩ := List.exists_cons_of_ne_nil some
        have head : set.has byte = false := none byte (by simp [whole])
        rw [List.dropWhile_cons, if_neg (by simp [outside]), encode_cons, whole, List.cons_append,
          List.dropWhile_cons, if_neg (by simp [head])]

theorem rdropWhile_encode :
    (encode text).rdropWhile set.has = encode (text.rdropWhile set.char) := by
  induction text using List.reverseRecOn with
  | nil => rfl
  | append_singleton text char ih =>
      have last : encode [char] = String.utf8EncodeChar char := by simp
      rw [encode_append, last]
      rcases set.encodeChar_cases char with ⟨inside, byte, single, member⟩ | ⟨outside, some, none⟩
      · rw [single, List.rdropWhile_concat_pos _ _ _ member, ih,
          List.rdropWhile_concat_pos _ _ _ inside]
      · have bytes := List.dropLast_append_getLast some
        have final : set.has ((String.utf8EncodeChar char).getLast some) = false :=
          none _ (List.getLast_mem some)
        rw [List.rdropWhile_concat_neg _ _ _ (by simp [outside]), encode_append, last, ← bytes,
          ← List.append_assoc, List.rdropWhile_concat_neg _ _ _ (by simp [final])]

/-- Up to the first byte of the set. -/
theorem takeWhile_not_encode :
    (encode text).takeWhile (fun byte => !set.has byte) =
      encode (text.takeWhile fun char => !set.char char) := by
  induction text with
  | nil => rfl
  | cons char text ih =>
      rcases set.encodeChar_cases char with ⟨inside, byte, single, member⟩ | ⟨outside, some, none⟩
      · simp [single, member, inside]
      · rw [List.takeWhile_cons, if_pos (by simp [outside]), encode_cons, encode_cons,
          List.takeWhile_append_of_pos (fun byte member => by simp [none byte member]), ih]

/-- From the first byte of the set on. -/
theorem dropWhile_not_encode :
    (encode text).dropWhile (fun byte => !set.has byte) =
      encode (text.dropWhile fun char => !set.char char) := by
  have whole : (encode text).takeWhile (fun byte => !set.has byte) ++
      (encode text).dropWhile (fun byte => !set.has byte) =
      (encode text).takeWhile (fun byte => !set.has byte) ++
        encode (text.dropWhile fun char => !set.char char) := by
    rw [List.takeWhile_append_dropWhile, takeWhile_not_encode, ← encode_append,
      List.takeWhile_append_dropWhile]
  exact List.append_cancel_left whole

/-- Bytes that are all in the set are characters that are. -/
theorem all_encode : (encode text).all set.has = text.all set.char := by
  induction text with
  | nil => rfl
  | cons char text ih =>
      rw [encode_cons, List.all_append, List.all_cons, ih]
      rcases set.encodeChar_cases char with ⟨inside, byte, single, member⟩ | ⟨outside, some, none⟩
      · simp [single, member, inside]
      · obtain ⟨byte, bytes, whole⟩ := List.exists_cons_of_ne_nil some
        simp [outside, whole, none byte (by simp [whole])]

end AsciiSet

end Utf8
