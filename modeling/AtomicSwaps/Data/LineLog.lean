import AtomicSwaps.Data.Trimming

/-!
# Logs of lines

A log is a text to which events are appended, one a line. Reading it folds over the
lines that parse, and skips the others. Whatever is appended to a text that ends with a
newline is read after what was there; appended to a line that broke off, it is read as
part of that line.
-/

namespace LineLog

open Trimming (strTrim)

section Reading

variable {State Event : Type} (parse : List Char → Option Event) (apply : State → Event → State)

/-- What becomes of the state when a line is read. -/
def readLine (state : State) (line : List Char) : State :=
  if (strTrim line).isEmpty then state
  else match parse (strTrim line) with
    | some event => apply state event
    | none => state

/-- What becomes of the state when a log is read. -/
def replay (state : State) (text : List Char) : State :=
  (text.splitOn '\n').foldl (readLine parse apply) state

/-- A text whose last line is finished. -/
def Terminated (text : List Char) : Prop := text = [] ∨ ∃ front, text = front ++ ['\n']

instance (text : List Char) : Decidable (Terminated text) :=
  decidable_of_iff (text = [] ∨ text.getLast? = some '\n') <| by
    refine or_congr_right ?_
    rw [List.getLast?_eq_some_iff]

variable {parse apply}

theorem Terminated.line {text : List Char} (line : List Char) :
    Terminated (text ++ (line ++ ['\n'])) :=
  .inr ⟨text ++ line, by simp⟩

/-- A line that is empty or does not parse is skipped. -/
theorem readLine_skip {state : State} {line : List Char} (skipped : strTrim line = [] ∨
    parse (strTrim line) = none) : readLine parse apply state line = state := by
  unfold readLine
  rcases skipped with empty | unparsed
  · simp [empty]
  · split
    · rfl
    · rw [unparsed]

/-- A line that parses is applied. -/
theorem readLine_some {state : State} {line : List Char} {event : Event}
    (present : strTrim line ≠ []) (parsed : parse (strTrim line) = some event) :
    readLine parse apply state line = apply state event := by
  simp [readLine, present, parsed]

/-- A single line. -/
theorem replay_line {state : State} {line : List Char} (whole : '\n' ∉ line) :
    replay parse apply state line = readLine parse apply state line := by
  simp [replay, List.splitOn_eq_singleton whole]

/-- A newline separates what is read first from what is read after it. -/
theorem replay_newline (state : State) (front rest : List Char) :
    replay parse apply state (front ++ '\n' :: rest) =
      replay parse apply (replay parse apply state front) rest := by
  simp [replay, List.splitOn_append_cons_self]

@[simp] theorem replay_nil (state : State) : replay parse apply state [] = state := by
  simp [replay, readLine, strTrim, Trimming.trim]

/-- What is appended to finished lines is read after them. -/
theorem replay_append {text : List Char} (terminated : Terminated text) (state : State)
    (more : List Char) : replay parse apply state (text ++ more) =
      replay parse apply (replay parse apply state text) more := by
  rcases terminated with rfl | ⟨front, rfl⟩
  · simp
  · rw [List.append_assoc, List.singleton_append, replay_newline, replay_newline, replay_nil]

/-- A finished line. -/
theorem replay_line_newline {state : State} {line : List Char} (whole : '\n' ∉ line) :
    replay parse apply state (line ++ ['\n']) = readLine parse apply state line := by
  rw [replay_newline, replay_nil, replay_line whole]

end Reading

end LineLog
