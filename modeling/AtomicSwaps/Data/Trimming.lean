import Mathlib.Data.List.DropRight

/-!
# Trimming

A sequence without the blanks at its two ends, for any notion of a blank. What stands between the
blanks is the same for two notions exactly when they agree on the blanks that there are.
-/

namespace Trimming

variable {α : Type} {blank other : α → Bool} {text core front back : List α}

/-- A sequence without the blanks at its ends. -/
def trim (blank : α → Bool) (text : List α) : List α := (text.dropWhile blank).rdropWhile blank

/-- `char::is_whitespace`: the `White_Space` of Unicode. -/
def isWhitespace (char : Char) : Bool :=
  (0x09 ≤ char.toNat ∧ char.toNat ≤ 0x0D) ∨ (0x2000 ≤ char.toNat ∧ char.toNat ≤ 0x200A) ∨
    char.toNat ∈ [0x20, 0x85, 0xA0, 0x1680, 0x2028, 0x2029, 0x202F, 0x205F, 0x3000]

/-- `str::trim`. -/
def strTrim (text : List Char) : List Char := trim isWhitespace text

/-- No item of it is a blank. -/
def Solid (blank : α → Bool) (core : List α) : Prop := ∀ item ∈ core, blank item = false

theorem dropWhile_front (front_blank : ∀ item ∈ front, blank item = true)
    (some : core ≠ []) (solid : Solid blank core) :
    (front ++ (core ++ back)).dropWhile blank = core ++ back := by
  rw [List.dropWhile_append_of_pos front_blank]
  cases core with
  | nil => exact absurd rfl some
  | cons item core => simp [solid item List.mem_cons_self]

/-- What stands between blanks is what is left. -/
theorem trim_between (front_blank : ∀ item ∈ front, blank item = true)
    (back_blank : ∀ item ∈ back, blank item = true) (some : core ≠ [])
    (solid : Solid blank core) : trim blank (front ++ (core ++ back)) = core := by
  unfold trim
  rw [dropWhile_front front_blank some solid, List.rdropWhile, List.reverse_append]
  have reversed : (back.reverse ++ (core.reverse ++ [])).dropWhile blank = core.reverse ++ [] :=
    dropWhile_front (by simpa using back_blank) (by simpa using some)
      (fun item here => solid item (by simpa using here))
  rw [List.append_nil] at reversed
  rw [reversed, List.reverse_reverse]

/-- A sequence with no blank at its ends is left as it is. -/
theorem trim_of_ends {first last : α} (head : text.head? = some first)
    (final : text.getLast? = some last) (first_solid : blank first = false)
    (last_solid : blank last = false) : trim blank text = text := by
  obtain ⟨rest, rfl⟩ := List.head?_eq_some_iff.mp head
  obtain ⟨front, same⟩ := List.getLast?_eq_some_iff.mp final
  rw [trim, List.dropWhile_cons_of_neg (by simp [first_solid]), same,
    List.rdropWhile_concat_neg _ _ _ (by simp [last_solid])]

theorem trim_solid (solid : Solid blank core) : trim blank core = core := by
  cases core with
  | nil => rfl
  | cons item core =>
      exact trim_of_ends rfl (List.getLast?_eq_some_getLast (List.cons_ne_nil item core))
        (solid item List.mem_cons_self) (solid _ (List.getLast_mem _))

/-- A sequence that begins with no blank loses only its end. -/
theorem trim_prefix {first : α} (head : text.head? = some first) (solid : blank first = false) :
    trim blank text <+: text := by
  obtain ⟨rest, rfl⟩ := List.head?_eq_some_iff.mp head
  rw [trim, List.dropWhile_cons_of_neg (by simp [solid])]
  exact List.rdropWhile_prefix _ _

theorem length_trim_le (blank : α → Bool) (text : List α) :
    (trim blank text).length ≤ text.length :=
  (List.rdropWhile_prefix _ _).length_le.trans (List.dropWhile_sublist _).length_le

/-- There are only blanks around what is left. -/
theorem trim_parts (blank : α → Bool) (text : List α) :
    ∃ front back, text = front ++ (trim blank text ++ back) ∧
      (∀ item ∈ front, blank item = true) ∧ ∀ item ∈ back, blank item = true := by
  refine ⟨text.takeWhile blank, (text.dropWhile blank).rtakeWhile blank, ?_, ?_, ?_⟩
  · unfold trim
    rw [List.rdropWhile_append_rtakeWhile, List.takeWhile_append_dropWhile]
  · exact fun item here => List.mem_takeWhile_imp here
  · exact fun item here => List.mem_rtakeWhile_imp here

/-- Nothing is lost but blanks. -/
theorem mem_trim {item : α} (here : item ∈ text) (solid : blank item = false) :
    item ∈ trim blank text := by
  obtain ⟨front, back, whole, front_blank, back_blank⟩ := trim_parts blank text
  rw [whole, List.mem_append, List.mem_append] at here
  rcases here with first | inside | last
  · exact absurd (front_blank item first) (by simp [solid])
  · exact inside
  · exact absurd (back_blank item last) (by simp [solid])

/-- Two notions of a blank leave the same when the second knows every blank that is there. -/
theorem trim_eq_of_blank (some : trim blank text ≠ []) (apart : Solid other (trim blank text))
    (known : ∀ item ∈ text, blank item = true → other item = true) :
    trim other text = trim blank text := by
  obtain ⟨front, back, whole, front_blank, back_blank⟩ := trim_parts blank text
  have first (item : α) (here : item ∈ front) : other item = true :=
    known item (by rw [whole]; simp [here]) (front_blank item here)
  have last (item : α) (here : item ∈ back) : other item = true :=
    known item (by rw [whole]; simp [here]) (back_blank item here)
  have same := trim_between first last some apart
  rwa [← whole] at same

/-- Once is enough. -/
theorem trim_trim (blank : α → Bool) (text : List α) :
    trim blank (trim blank text) = trim blank text := by
  have stop : (trim blank text).dropWhile blank = trim blank text := by
    unfold trim
    cases shape : text.dropWhile blank with
    | nil => simp
    | cons item rest =>
        have kept := List.head?_dropWhile_not blank text
        rw [shape] at kept
        have first : ∃ more, (item :: rest).rdropWhile blank = item :: more := by
          obtain ⟨more, whole⟩ := List.rdropWhile_prefix blank (l := item :: rest)
          cases left : (item :: rest).rdropWhile blank with
          | nil =>
              have all := List.rdropWhile_eq_nil_iff.mp left item List.mem_cons_self
              simp [all] at kept
          | cons other more =>
              rw [left, List.cons_append, List.cons.injEq] at whole
              exact ⟨_, by rw [whole.1]⟩
        obtain ⟨more, first⟩ := first
        rw [first]
        simpa using kept
  rw [trim, stop]
  unfold trim
  exact List.rdropWhile_idempotent blank _

end Trimming
