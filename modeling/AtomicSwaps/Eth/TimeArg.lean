import AtomicSwaps.Data.Assert
import AtomicSwaps.Data.Calendar
import AtomicSwaps.Swap.EthAmount

/-!
# Time arguments

`parse_time_arg` of `src/eth/report.rs` with its calendar arithmetic: a Unix timestamp, or a
date with an optional time of day, in UTC. An `i64` is an integer that is wrapped after every
operation, as the release builds do, or checked, as the debug builds do.
-/

namespace AtomicSwaps.Eth

open Decimal Calendar Swap
open Trimming (strTrim)

/-- The values of an `i64`. -/
def InI64 (number : Int) : Prop := -2 ^ 63 ≤ number ∧ number < 2 ^ 63

instance (number : Int) : Decidable (InI64 number) := inferInstanceAs (Decidable (_ ∧ _))

/-- The result of an operation on `i64`s in a release build. -/
def wrap (number : Int) : Id Int := number.bmod (2 ^ 64)

/-- The same in a debug build, which panics on an overflow. -/
def checked (number : Int) : Option Int := if InI64 number then some number else none

/-- `is_leap_year`. -/
def isLeapYear (y : Int) : Bool := (y.tmod 4 = 0 ∧ y.tmod 100 ≠ 0) ∨ y.tmod 400 = 0

/-- `days_in_month`. -/
def daysInMonth (year : Int) (month : Nat) : Nat :=
  match month with
  | 1 | 3 | 5 | 7 | 8 | 10 | 12 => 31
  | 4 | 6 | 9 | 11 => 30
  | 2 => if isLeapYear year then 29 else 28
  | _ => 0

section Builds

variable {M : Type → Type} [Monad M] (i64 : Int → M Int)

/-- `days_from_civil`, by what an operation on `i64`s comes to. -/
def daysFromCivil (y : Int) (m d : Nat) : M Int := do
  let y ← (if m ≤ 2 then i64 (y - 1) else pure y)
  let era := (← (if 0 ≤ y then pure y else i64 (y - 399))).tdiv 400
  let yoe ← i64 (y - (← i64 (era * 400)))
  let mp : Int := ((m + 9) % 12 : Nat)
  let doy := (153 * mp + 2).tdiv 5 + d - 1
  let doe ← i64 ((← i64 ((← i64 ((← i64 (yoe * 365)) + yoe.tdiv 4)) - yoe.tdiv 100)) + doy)
  i64 ((← i64 ((← i64 (era * 146097)) + doe)) - 719468)

/-- The Unix time of a date and a time of day, as `parse_time_arg` computes it. -/
def secsOf (year : Int) (month day hh mm ss : Nat) : M Int := do
  i64 ((← i64 ((← daysFromCivil i64 year month day) * 86400)) +
    (hh * 3600 + mm * 60 + ss : Nat))

end Builds

/-- The text without one trailing `Z`. -/
def stripZ (text : List Char) : List Char :=
  if text.getLast? = some 'Z' then text.dropLast else text

/-- Between the date and the time. -/
def isTimeSeparator (char : Char) : Bool := char = 'T' ∨ char = ' '

/-- `split_once(['T', ' '])`, of which the second part may be missing. -/
def splitTime (body : List Char) : List Char × Option (List Char) :=
  match body.dropWhile (fun char => !isTimeSeparator char) with
  | [] => (body, none)
  | _ :: time => (body.takeWhile (fun char => !isTimeSeparator char), some time)

/-- `parse().map_err(..)`, with the same message for every error. -/
def orMessage {α : Type} (parsed : Except ParseIntError α) (message : String) : Except String α :=
  match parsed with
  | .ok number => .ok number
  | .error _ => .error message

/-- The year, month and day of a date that exists. -/
def parseDate (s date : List Char) : Except String (Int × Nat × Nat) :=
  match date.splitOn '-' with
  | [y, m, d] => do
      let year ← orMessage (parseSigned (2 ^ 63) y) s!"invalid year in '{String.ofList s}'"
      let month ← orMessage (parseUnsigned (2 ^ 32) m) s!"invalid month in '{String.ofList s}'"
      let day ← orMessage (parseUnsigned (2 ^ 32) d) s!"invalid day in '{String.ofList s}'"
      if ¬ (1 ≤ month ∧ month ≤ 12) then
        .error s!"invalid date '{String.ofList date}' in '{String.ofList s}': no month {month}"
      else
        let last := daysInMonth year month
        if ¬ (1 ≤ day ∧ day ≤ last) then
          .error (s!"invalid date '{String.ofList date}' in '{String.ofList s}': {year}-" ++
            s!"{String.ofList (padLeft 2 (numeral month))} has {last} days")
        else .ok (year, month, day)
  | _ => .error (s!"invalid time '{String.ofList s}': expected a Unix timestamp, YYYY-MM-DD, or " ++
      "YYYY-MM-DDTHH:MM:SS (UTC)")

/-- A part of the time of day, zero when it is missing. -/
def parseTimePart (part : Option (List Char)) (message : String) : Except String Nat :=
  match part with
  | none => .ok 0
  | some part => orMessage (parseUnsigned (2 ^ 64) part) message

/-- The hour, minute and second of the time of day. -/
def parseTimeOfDay (s : List Char) (time : Option (List Char)) : Except String (Nat × Nat × Nat) :=
  match time with
  | none => .ok (0, 0, 0)
  | some t => do
      let tp := t.splitOn ':'
      let hh ← parseTimePart tp[0]? s!"invalid hour in '{String.ofList s}'"
      let mm ← parseTimePart tp[1]? s!"invalid minute in '{String.ofList s}'"
      let ss ← parseTimePart tp[2]? s!"invalid second in '{String.ofList s}'"
      if 3 < tp.length ∨ 23 < hh ∨ 59 < mm ∨ 59 < ss then
        .error s!"invalid time-of-day in '{String.ofList s}'"
      else .ok (hh, mm, ss)

/-- The Unix time of a date and a time of day, if it is not before the epoch. -/
def unixSeconds (s : List Char) (year : Int) (month day hh mm ss : Nat) : Except String U64 :=
  let secs := (secsOf wrap year month day hh mm ss).run
  if 0 ≤ secs then .ok (BitVec.ofInt 64 secs)
  else .error s!"time '{String.ofList s}' is before the Unix epoch"

/-- `parse_time_arg`. -/
def parseTimeArg (s : String) : Except String U64 :=
  let s := strTrim s.toList
  if s = [] then .error "empty time value"
  else if isDigits s then
    match parseUnsigned (2 ^ 64) s with
    | .ok number => .ok (BitVec.ofNat 64 number)
    | .error e => .error s!"invalid Unix timestamp '{String.ofList s}': {e.toString}"
  else do
    let (date, time) := splitTime (stripZ s)
    let (year, month, day) ← parseDate s date
    let (hh, mm, ss) ← parseTimeOfDay s time
    unixSeconds s year month day hh mm ss

/-- A number in digits, perhaps behind a sign. -/
def Reads (text : List Char) (number : Nat) : Prop :=
  ∃ digits, (text = digits ∨ text = '+' :: digits) ∧ digits ≠ [] ∧ isDigits digits = true ∧
    value digits = number

/-- A time of day: hours, and perhaps minutes and seconds. -/
def ReadsTime (text : List Char) (hh mm ss : Nat) : Prop :=
  (Reads text hh ∧ mm = 0 ∧ ss = 0) ∨
  (∃ hours minutes, text = hours ++ ':' :: minutes ∧ Reads hours hh ∧ Reads minutes mm ∧ ss = 0) ∨
  (∃ hours minutes seconds, text = hours ++ ':' :: (minutes ++ ':' :: seconds) ∧ Reads hours hh ∧
    Reads minutes mm ∧ Reads seconds ss)

/-- The numbers of a date and a time of day. -/
structure DateTime where
  year : Nat
  month : Nat
  day : Nat
  hh : Nat
  mm : Nat
  ss : Nat

/-- A text is a date, with or without a time of day and a `Z`, between white space. -/
def Denotes (s : String) (at_ : DateTime) : Prop :=
  ∃ y m d time zone, strTrim s.toList = y ++ '-' :: (m ++ '-' :: d) ++ time ++ zone ∧
    Reads y at_.year ∧ Reads m at_.month ∧ Reads d at_.day ∧ (zone = [] ∨ zone = ['Z']) ∧
    (time = [] ∧ at_.hh = 0 ∧ at_.mm = 0 ∧ at_.ss = 0 ∨
      ∃ separator text, isTimeSeparator separator = true ∧ time = separator :: text ∧
        ReadsTime text at_.hh at_.mm at_.ss)

/-- The date exists, and the time is one of a day. -/
def DateTime.Exists (at_ : DateTime) : Prop :=
  (1 ≤ at_.month ∧ at_.month ≤ 12) ∧ (1 ≤ at_.day ∧ at_.day ≤ monthLength at_.year at_.month) ∧
    at_.hh ≤ 23 ∧ at_.mm ≤ 59 ∧ at_.ss ≤ 59

/-- The second of the day. -/
def DateTime.second (at_ : DateTime) : Nat := at_.hh * 3600 + at_.mm * 60 + at_.ss

/-- The arithmetic of a date-time, in a debug build. -/
def DateTime.secs? (at_ : DateTime) : Option Int :=
  secsOf checked at_.year at_.month at_.day at_.hh at_.mm at_.ss

/-- No operation overflows. -/
def DateTime.Fits (at_ : DateTime) : Prop := at_.secs?.isSome

section Arithmetic

theorem wrap_eq {number : Int} (fits : InI64 number) : wrap number = pure number := by
  obtain ⟨least, greatest⟩ := fits
  show number.bmod (2 ^ 64) = number
  rw [Int.bmod_def]
  norm_num at least greatest ⊢
  split <;> omega

theorem checked_eq {number : Int} (fits : InI64 number) : checked number = some number := if_pos fits

theorem checked_within {number : Int} (least : -2 ^ 63 ≤ number) (greatest : number < 2 ^ 63) :
    checked number = some number := checked_eq ⟨least, greatest⟩

theorem checked_eq_some {number result : Int} :
    checked number = some result ↔ InI64 number ∧ number = result := by
  simp [checked]

/-- Where the debug build goes on, the release build does not wrap. -/
theorem wrap_of_checked {number result : Int} (fits : checked number = some result) :
    wrap number = pure result := by
  obtain ⟨within, rfl⟩ := checked_eq_some.mp fits
  exact wrap_eq within

theorem isLeapYear_iff {y : Int} (positive : 0 ≤ y) : isLeapYear y = true ↔ IsLeap y := by
  simp only [isLeapYear, IsLeap, Int.tmod_eq_emod_of_nonneg positive, decide_eq_true_eq]

/-- The code's lengths of the months. -/
theorem daysInMonth_eq {year : Int} (positive : 0 ≤ year) (month : Nat) :
    daysInMonth year month = monthLength year month := by
  have february : (if isLeapYear year then 29 else 28) = if IsLeap year then 29 else 28 := by
    simp only [isLeapYear_iff positive]
  unfold daysInMonth
  rw [february]
  rfl

/-- What the debug build comes to, so does the release build. -/
theorem secsOf_wrap {year secs : Int} {month day hh mm ss : Nat}
    (fits : secsOf checked year month day hh mm ss = some secs) :
    secsOf wrap year month day hh mm ss = pure secs := by
  have either : ∀ {condition : Prop} [Decidable condition] {one other : Option Int}
      {same same' : Id Int} {result : Int}, (one = some result → same = pure result) →
      (other = some result → same' = pure result) →
      (if condition then one else other) = some result →
        (if condition then same else same') = pure result := by
    intro condition _ one other same same' result first second chosen
    split at chosen
    · rw [if_pos ‹_›, first chosen]
    · rw [if_neg ‹_›, second chosen]
  have stays : ∀ {number result : Int}, (pure number : Option Int) = some result →
      (pure number : Id Int) = pure result := fun same => Option.some.inj same
  simp only [secsOf, daysFromCivil, Option.bind_eq_bind, Option.bind_eq_some_iff] at fits
  obtain ⟨days, ⟨y, first, shifted, second, base, third, yoe, fourth, years, fifth, fours, sixth,
    hundreds, seventh, doe, eighth, eras, ninth, sum, tenth, last⟩, product, eleventh, whole⟩ := fits
  simp only [secsOf, daysFromCivil, either wrap_of_checked stays first, pure_bind,
    either stays wrap_of_checked second, wrap_of_checked third, wrap_of_checked fourth,
    wrap_of_checked fifth, wrap_of_checked sixth, wrap_of_checked seventh, wrap_of_checked eighth,
    wrap_of_checked ninth, wrap_of_checked tenth, wrap_of_checked last, wrap_of_checked eleventh,
    wrap_of_checked whole]
variable {at_ : DateTime}

/-- The day number of a date. -/
def DateTime.days (at_ : DateTime) : Int := dayNumber at_.year at_.month at_.day

/-- The Unix time. -/
def DateTime.unix (at_ : DateTime) : Int := at_.days * 86400 + at_.second

section March

variable {y : Int} (march : y = if at_.month ≤ 2 then (at_.year : Int) - 1 else at_.year)

include march

theorem march_least : -1 ≤ y := by
  rw [march]
  split <;> omega

theorem march_era : (if 0 ≤ y then y else y - 399).tdiv 400 = y / 400 := by
  have least := march_least march
  split
  · rename_i positive
    exact Int.tdiv_eq_ediv_of_nonneg positive
  · obtain rfl : y = -1 := by omega
    decide

/-- The day number of a date, by the year that starts in March. -/
theorem march_days : at_.days = 365 * y + y / 4 - y / 100 + y / 400 +
    ((153 * ((at_.month + 9) % 12) + 2) / 5 : Nat) + at_.day - 719469 := by
  simp only [DateTime.days, dayNumber, ← march]

/-- The day of the era. -/
theorem march_doe : y % 400 * 365 + (y % 400).tdiv 4 - (y % 400).tdiv 100 +
    ((153 * (((at_.month + 9) % 12 : Nat) : Int) + 2).tdiv 5 + at_.day - 1) =
      at_.days - y / 400 * 146097 + 719468 := by
  have positive : 0 ≤ y % 400 := by omega
  have months : (153 * (((at_.month + 9) % 12 : Nat) : Int) + 2).tdiv 5 =
      ((153 * ((at_.month + 9) % 12) + 2) / 5 : Nat) := by
    rw [Int.tdiv_eq_ediv_of_nonneg (by omega)]
    omega
  rw [months, Int.tdiv_eq_ediv_of_nonneg positive, Int.tdiv_eq_ediv_of_nonneg positive,
    march_days march]
  clear march months
  omega

/-- Before the end of the range of the Unix time the day number and the era are small. -/
theorem march_bounds (real : at_.Exists) (early : at_.unix < 2 ^ 63) :
    (-720000 ≤ at_.days ∧ at_.days < 106751991167301) ∧ -1 ≤ y / 400 ∧ y / 400 ≤ 730692600 := by
  obtain ⟨valid, ⟨day, last⟩, hour, minute, second⟩ := real
  have least := march_least march
  have days := march_days march
  have long := monthLength_pos (at_.year : Int) valid
  have months : (153 * ((at_.month + 9) % 12) + 2) / 5 ≤ 337 := by omega
  have days_most : at_.days < 106751991167301 := by
    rw [DateTime.unix] at early
    norm_num at early
    omega
  clear march
  exact ⟨⟨by omega, days_most⟩, by omega, by omega⟩

end March

/-- What the debug build comes to is the Unix time. -/
theorem DateTime.secs_unix {secs : Int} (fits : at_.secs? = some secs) :
    InI64 secs ∧ secs = at_.unix := by
  simp only [DateTime.secs?, secsOf, daysFromCivil, Option.bind_eq_bind,
    Option.bind_eq_some_iff, checked_eq_some] at fits
  obtain ⟨days, ⟨y, first, shifted, second, _, ⟨-, rfl⟩, _, ⟨-, rfl⟩, _, ⟨-, rfl⟩, _, ⟨-, rfl⟩, _,
    ⟨-, rfl⟩, _, ⟨-, rfl⟩, _, ⟨-, rfl⟩, _, ⟨-, rfl⟩, -, rfl⟩, _, ⟨-, rfl⟩, within, rfl⟩ := fits
  have march : y = if at_.month ≤ 2 then (at_.year : Int) - 1 else at_.year := by
    split at first
    · rw [if_pos ‹_›, (checked_eq_some.mp first).2]
    · rw [if_neg ‹_›, Option.some.inj first]
  obtain rfl : (if 0 ≤ y then y else y - 399) = shifted := by
    split at second
    · rw [if_pos ‹_›, Option.some.inj second]
    · rw [if_neg ‹_›, (checked_eq_some.mp second).2]
  refine ⟨within, ?_⟩
  have yoe : y - y / 400 * 400 = y % 400 := by omega
  rw [march_era march, yoe, march_doe march, DateTime.unix, DateTime.second]
  omega

/-- The day number of such a date is computed without an overflow. -/
theorem DateTime.days_early (real : at_.Exists) (year : at_.year < 2 ^ 63)
    (early : at_.unix < 2 ^ 63) :
    daysFromCivil checked at_.year at_.month at_.day = some at_.days := by
  obtain ⟨y, march⟩ : ∃ y, y = if at_.month ≤ 2 then (at_.year : Int) - 1 else at_.year := ⟨_, rfl⟩
  obtain ⟨⟨days_least, days_most⟩, era_least, era_most⟩ := march_bounds march real early
  have least := march_least march
  have first : (if at_.month ≤ 2 then checked ((at_.year : Int) - 1) else pure (at_.year : Int)) =
      some y := by
    rw [march]
    split
    · exact checked_within (by omega) (by omega)
    · rfl
  have upper : y ≤ at_.year := by
    rw [march]
    split <;> omega
  have second : (if 0 ≤ y then pure y else checked (y - 399)) =
      some (if 0 ≤ y then y else y - 399) := by
    split
    · rfl
    · exact checked_within (by omega) (by omega)
  have yoe : y - y / 400 * 400 = y % 400 := by omega
  have positive : 0 ≤ y % 400 := by omega
  have doe := march_doe march
  rw [Int.tdiv_eq_ediv_of_nonneg positive, Int.tdiv_eq_ediv_of_nonneg positive] at doe
  have sum : y / 400 * 146097 + (at_.days - y / 400 * 146097 + 719468) - 719468 = at_.days := by ring
  have era_eq := march_era march
  clear march early real
  norm_num at year
  -- the operations in the order of the source, each on what the ones before it came to
  have third := @checked_within (y / 400 * 400) (by omega) (by omega)
  have fourth := @checked_within (y % 400) (by omega) (by omega)
  have fifth := @checked_within (y % 400 * 365) (by omega) (by omega)
  have sixth := @checked_within (y % 400 * 365 + y % 400 / 4) (by omega) (by omega)
  have seventh := @checked_within (y % 400 * 365 + y % 400 / 4 - y % 400 / 100) (by omega) (by omega)
  have eighth := @checked_within (at_.days - y / 400 * 146097 + 719468) (by omega) (by omega)
  have ninth := @checked_within (y / 400 * 146097) (by omega) (by omega)
  have tenth := @checked_within (y / 400 * 146097 + (at_.days - y / 400 * 146097 + 719468))
    (by omega) (by omega)
  have last := @checked_within at_.days (by omega) (by omega)
  simp only [daysFromCivil, Option.bind_eq_bind, first, second, Option.bind_some, era_eq, third, yoe,
    fourth, fifth, Int.tdiv_eq_ediv_of_nonneg positive, sixth, seventh, doe, eighth, ninth, tenth,
    sum, last]

/-- A date that exists is computed without an overflow as long as its Unix time fits. -/
theorem DateTime.secs_early (real : at_.Exists) (year : at_.year < 2 ^ 63)
    (early : at_.unix < 2 ^ 63) : at_.secs? = some at_.unix := by
  obtain ⟨⟨days_least, days_most⟩, -⟩ := march_bounds rfl real early
  obtain ⟨-, -, hour, minute, second⟩ := id real
  have seconds : at_.second < 86400 := by
    rw [DateTime.second]
    omega
  have product := @checked_within (at_.days * 86400) (by omega) (by omega)
  have total := @checked_within at_.unix (by rw [DateTime.unix]; omega) early
  rw [DateTime.secs?, secsOf, DateTime.days_early real year early]
  simp only [Option.bind_eq_bind, Option.bind_some, product]
  exact total

/-- The arithmetic overflows from the first second that an `i64` does not hold. -/
theorem DateTime.fits_iff (real : at_.Exists) (year : at_.year < 2 ^ 63) :
    at_.Fits ↔ at_.unix < 2 ^ 63 := by
  constructor
  · intro fits
    obtain ⟨secs, same⟩ := Option.isSome_iff_exists.mp fits
    obtain ⟨⟨-, below⟩, rfl⟩ := DateTime.secs_unix same
    exact below
  · intro early
    rw [DateTime.Fits, DateTime.secs_early real year early]
    rfl

/-- Without an overflow the result is the Unix time, from the epoch on. -/
theorem unixSeconds_eq {s : List Char} (fits : at_.Fits) :
    unixSeconds s at_.year at_.month at_.day at_.hh at_.mm at_.ss =
      if 0 ≤ at_.unix then .ok (BitVec.ofInt 64 at_.unix)
      else .error s!"time '{String.ofList s}' is before the Unix epoch" := by
  obtain ⟨secs, same⟩ := Option.isSome_iff_exists.mp fits
  obtain ⟨-, rfl⟩ := DateTime.secs_unix same
  simp only [unixSeconds, secsOf_wrap same, Id.run_pure]

end Arithmetic

section Reading

theorem parseUnsigned_reads {bound number : Nat} {text : List Char} (positive : 0 < bound) :
    parseUnsigned bound text = .ok number ↔ Reads text number ∧ number < bound := by
  rw [parseUnsigned_eq_ok positive, Reads]
  constructor
  · rintro ⟨digits, shape, some, valid, denotes, small⟩
    exact ⟨⟨digits, shape, some, valid, denotes⟩, small⟩
  · rintro ⟨⟨digits, shape, some, valid, denotes⟩, small⟩
    exact ⟨digits, shape, some, valid, denotes, small⟩

/-- A text denotes one number. -/
theorem Reads.unique {text : List Char} {first second : Nat} (one : Reads text first)
    (other : Reads text second) : first = second := by
  have bound : 0 < max first second + 1 := by omega
  have read := (parseUnsigned_reads bound).mpr ⟨one, by omega⟩
  rw [(parseUnsigned_reads bound).mpr ⟨other, by omega⟩] at read
  exact (Except.ok.inj read).symm

/-- The characters of a number. -/
theorem Reads.chars {text : List Char} {number : Nat} (reads : Reads text number) :
    text ≠ [] ∧ ∀ char ∈ text, char = '+' ∨ char.isDigit = true := by
  obtain ⟨digits, shape, some, valid, -⟩ := reads
  have all : ∀ char ∈ digits, char.isDigit = true := List.all_eq_true.mp valid
  rcases shape with rfl | rfl
  · exact ⟨some, fun char member => .inr (all char member)⟩
  · refine ⟨by simp, fun char member => ?_⟩
    rcases List.mem_cons.mp member with rfl | member
    · exact .inl rfl
    · exact .inr (all char member)

/-- Without a minus a signed number is read as an unsigned one. -/
theorem parseSigned_reads {bound : Nat} {number : Int} {text : List Char} (positive : 0 < bound)
    (plain : '-' ∉ text) : parseSigned bound text = .ok number ↔
      ∃ natural : Nat, number = natural ∧ Reads text natural ∧ natural < bound := by
  have same : parseSigned bound text = (parseUnsigned bound text).map Int.ofNat := by
    cases text with
    | nil => rfl
    | cons char rest =>
        by_cases plus : char = '+'
        · subst plus
          cases rest <;> rfl
        · have minus : char ≠ '-' := fun same => plain (by simp [same])
          simp [parseSigned, parseUnsigned, plus, minus]
  rw [same]
  constructor
  · intro read
    cases parsed : parseUnsigned bound text with
    | error e =>
        rw [parsed] at read
        cases read
    | ok natural =>
        rw [parsed] at read
        cases read
        exact ⟨natural, rfl, (parseUnsigned_reads positive).mp parsed⟩
  · rintro ⟨natural, rfl, reads⟩
    rw [(parseUnsigned_reads positive).mpr reads]
    rfl

@[simp] theorem orMessage_eq_ok {α : Type} {parsed : Except ParseIntError α} {message : String}
    {number : α} : orMessage parsed message = .ok number ↔ parsed = .ok number := by
  cases parsed <;> simp [orMessage]

/-- The parts of a split text do not hold the separator. -/
theorem not_mem_of_splitOn {separator : Char} (text : List Char) {part : List Char}
    (member : part ∈ text.splitOn separator) : separator ∉ part := by
  induction text generalizing part with
  | nil =>
      simp only [List.splitOn_nil, List.mem_singleton] at member
      simp [member]
  | cons char text ih =>
      rw [List.splitOn_cons_eq_if_modifyHead] at member
      split at member
      · rcases List.mem_cons.mp member with rfl | later
        · simp
        · exact ih later
      · rename_i other
        obtain ⟨first, rest, whole⟩ := List.exists_cons_of_ne_nil (List.splitOn_ne_nil separator text)
        rw [whole, List.modifyHead_cons] at member
        rcases List.mem_cons.mp member with rfl | later
        · have absent := ih (show first ∈ text.splitOn separator by simp [whole])
          simp only [beq_iff_eq] at other
          simp [absent, Ne.symm other]
        · exact ih (by simp [whole, later])

theorem splitOn_eq_two {separator : Char} {text first second : List Char} :
    text.splitOn separator = [first, second] ↔ text = first ++ separator :: second ∧
      separator ∉ first ∧ separator ∉ second := by
  constructor
  · intro split
    have whole : [separator].intercalate (text.splitOn separator) = text :=
      List.intercalate_splitOn separator
    rw [split] at whole
    refine ⟨by simpa [List.intercalate] using whole.symm, ?_, ?_⟩
    · exact not_mem_of_splitOn text (by simp [split])
    · exact not_mem_of_splitOn text (by simp [split])
  · rintro ⟨rfl, firstClear, secondClear⟩
    rw [List.splitOn_append_cons_self_of_not_mem firstClear, List.splitOn_eq_singleton secondClear]

theorem splitOn_eq_three {separator : Char} {text first second third : List Char} :
    text.splitOn separator = [first, second, third] ↔
      text = first ++ separator :: (second ++ separator :: third) ∧
      separator ∉ first ∧ separator ∉ second ∧ separator ∉ third := by
  constructor
  · intro split
    have whole : [separator].intercalate (text.splitOn separator) = text :=
      List.intercalate_splitOn separator
    rw [split] at whole
    refine ⟨by simpa [List.intercalate] using whole.symm, ?_, ?_, ?_⟩
    all_goals exact not_mem_of_splitOn text (by simp [split])
  · rintro ⟨rfl, firstClear, secondClear, thirdClear⟩
    rw [List.splitOn_append_cons_self_of_not_mem firstClear,
      List.splitOn_append_cons_self_of_not_mem secondClear, List.splitOn_eq_singleton thirdClear]

/-- A number holds no separator. -/
theorem Reads.clear {text : List Char} {number : Nat} (reads : Reads text number)
    {separator : Char} (plus : separator ≠ '+') (digit : separator.isDigit = false) :
    separator ∉ text := by
  intro member
  rcases reads.chars.2 separator member with same | other
  · exact plus same
  · rw [digit] at other
    cases other

/-- The date is three numbers that make up a date. -/
theorem parseDate_eq_ok {s date : List Char} {year : Int} {month day : Nat} :
    parseDate s date = .ok (year, month, day) ↔ ∃ y m d, ∃ natural : Nat,
      date.splitOn '-' = [y, m, d] ∧ year = natural ∧ Reads y natural ∧ natural < 2 ^ 63 ∧
      Reads m month ∧ Reads d day ∧ (1 ≤ month ∧ month ≤ 12) ∧
      (1 ≤ day ∧ day ≤ monthLength natural month) := by
  constructor
  · intro parsed
    rw [parseDate] at parsed
    split at parsed
    · rename_i y m d split
      have clear : '-' ∉ y := not_mem_of_splitOn date (by simp [split])
      obtain ⟨first, readYear, parsed⟩ := Assert.bind_eq_ok.mp parsed
      obtain ⟨second, readMonth, parsed⟩ := Assert.bind_eq_ok.mp parsed
      obtain ⟨third, readDay, parsed⟩ := Assert.bind_eq_ok.mp parsed
      rw [orMessage_eq_ok] at readYear readMonth readDay
      obtain ⟨natural, rfl, readYear, small⟩ := (parseSigned_reads (by decide) clear).mp readYear
      obtain ⟨readMonth, -⟩ := (parseUnsigned_reads (by decide)).mp readMonth
      obtain ⟨readDay, -⟩ := (parseUnsigned_reads (by decide)).mp readDay
      split at parsed
      · cases parsed
      · rename_i validMonth
        dsimp only at parsed
        split at parsed
        · cases parsed
        · rename_i validDay
          cases parsed
          rw [daysInMonth_eq (Int.natCast_nonneg natural)] at validDay
          exact ⟨y, m, d, natural, split, rfl, readYear, small, readMonth, readDay,
            not_not.mp validMonth, not_not.mp validDay⟩
    · cases parsed
  · rintro ⟨y, m, d, natural, split, rfl, readYear, small, readMonth, readDay, validMonth, validDay⟩
    have clear : '-' ∉ y := not_mem_of_splitOn date (by simp [split])
    have long := monthLength_pos (natural : Int) validMonth
    have first := (parseSigned_reads (by decide) clear).mpr ⟨natural, rfl, readYear, small⟩
    have second : parseUnsigned (2 ^ 32) m = .ok month :=
      (parseUnsigned_reads (by decide)).mpr ⟨readMonth, by omega⟩
    have third : parseUnsigned (2 ^ 32) d = .ok day :=
      (parseUnsigned_reads (by decide)).mpr ⟨readDay, by omega⟩
    have length := daysInMonth_eq (Int.natCast_nonneg natural) month
    rw [parseDate, split]
    simp only [first, second, third, orMessage, length, validMonth, validDay, bind, Except.bind,
      and_self, not_true, if_false]

@[simp] theorem parseTimePart_none {message : String} : parseTimePart none message = .ok 0 := rfl

/-- Every number of a time of day fits. -/
theorem parseTimePart_some {part : List Char} {message : String} {number : Nat} :
    parseTimePart (some part) message = .ok number ↔ Reads part number ∧ number < 2 ^ 64 := by
  rw [parseTimePart, orMessage_eq_ok, parseUnsigned_reads (by decide)]

/-- The time of day is up to three numbers within their bounds. -/
theorem parseTimeOfDay_eq_ok {s text : List Char} {hh mm ss : Nat} :
    parseTimeOfDay s (some text) = .ok (hh, mm, ss) ↔
      ReadsTime text hh mm ss ∧ hh ≤ 23 ∧ mm ≤ 59 ∧ ss ≤ 59 := by
  constructor
  · intro parsed
    rw [parseTimeOfDay] at parsed
    obtain ⟨hour, readHour, parsed⟩ := Assert.bind_eq_ok.mp parsed
    obtain ⟨minute, readMinute, parsed⟩ := Assert.bind_eq_ok.mp parsed
    obtain ⟨second, readSecond, parsed⟩ := Assert.bind_eq_ok.mp parsed
    split at parsed
    · cases parsed
    rename_i bounds
    simp only [not_or, not_lt] at bounds
    cases parsed
    refine ⟨?_, bounds.2⟩
    rw [ReadsTime]
    cases parts : text.splitOn ':' with
    | nil => exact absurd parts (List.splitOn_ne_nil _ _)
    | cons hours rest =>
        rw [parts] at readHour readMinute readSecond bounds
        have hour := (parseTimePart_some.mp readHour).1
        match rest with
        | [] =>
            cases readMinute
            cases readSecond
            have whole : [':'].intercalate (text.splitOn ':') = text := List.intercalate_splitOn ':'
            rw [parts, List.intercalate_singleton] at whole
            exact .inl ⟨whole ▸ hour, rfl, rfl⟩
        | [minutes] =>
            cases readSecond
            exact .inr (.inl ⟨hours, minutes, (splitOn_eq_two.mp parts).1, hour,
              (parseTimePart_some.mp readMinute).1, rfl⟩)
        | [minutes, seconds] =>
            exact .inr (.inr ⟨hours, minutes, seconds, (splitOn_eq_three.mp parts).1, hour,
              (parseTimePart_some.mp readMinute).1, (parseTimePart_some.mp readSecond).1⟩)
        | _ :: _ :: _ :: _ =>
            simp only [List.length_cons] at bounds
            omega
  · rintro ⟨reads, hour, minute, second⟩
    have colon : ∀ {part : List Char} {number : Nat}, Reads part number → ':' ∉ part :=
      fun reads => reads.clear (by decide) (by decide)
    have first : ∀ {part : List Char} {message : String} {number : Nat}, Reads part number →
        number ≤ 59 → parseTimePart (some part) message = .ok number :=
      fun reads bound => parseTimePart_some.mpr ⟨reads, by omega⟩
    have inDay : ∀ count, count ≤ 3 → ¬ (3 < count ∨ 23 < hh ∨ 59 < mm ∨ 59 < ss) := by
      intro count few
      omega
    rw [parseTimeOfDay]
    rcases reads with ⟨reads, rfl, rfl⟩ | ⟨hours, minutes, rfl, readHour, readMinute, rfl⟩ |
      ⟨hours, minutes, seconds, rfl, readHour, readMinute, readSecond⟩
    · have parts : text.splitOn ':' = [text] := List.splitOn_eq_singleton (colon reads)
      simp only [parts, List.getElem?_cons_zero, List.getElem?_cons_succ, List.getElem?_nil,
        first reads (by omega), parseTimePart_none, bind, Except.bind, List.length_singleton,
        inDay 1 (by decide), if_false]
    · have parts := splitOn_eq_two.mpr ⟨rfl, colon readHour, colon readMinute⟩
      simp only [parts, List.getElem?_cons_zero, List.getElem?_cons_succ, List.getElem?_nil,
        first readHour (by omega), first readMinute (by omega), parseTimePart_none, bind,
        Except.bind, List.length_cons, List.length_nil, Nat.reduceAdd, inDay 2 (by decide),
        if_false]
    · have parts := splitOn_eq_three.mpr
        ⟨rfl, colon readHour, colon readMinute, colon readSecond⟩
      simp only [parts, List.getElem?_cons_zero, List.getElem?_cons_succ,
        first readHour (by omega), first readMinute (by omega), first readSecond (by omega), bind,
        Except.bind, List.length_cons, List.length_nil, Nat.reduceAdd, inDay 3 (by decide),
        if_false]

/-- A `Z` is stripped, and nothing else. -/
theorem stripZ_eq (text : List Char) : text = stripZ text ++ [] ∨ text = stripZ text ++ ['Z'] := by
  rw [stripZ]
  split
  · rename_i last
    right
    obtain ⟨front, rfl⟩ := List.getLast?_eq_some_iff.mp last
    rw [List.dropLast_concat]
  · exact .inl (List.append_nil text).symm

theorem stripZ_append {front zone : List Char} (clear : 'Z' ∉ front)
    (shape : zone = [] ∨ zone = ['Z']) : stripZ (front ++ zone) = front := by
  rcases shape with rfl | rfl
  · rw [List.append_nil, stripZ, if_neg]
    exact fun last => clear (List.mem_of_getLast? last)
  · rw [stripZ, if_pos List.getLast?_concat, List.dropLast_concat]

/-- The date ends at the first separator. -/
theorem splitTime_eq {body date : List Char} {time : Option (List Char)} :
    splitTime body = (date, time) ↔ (∀ char ∈ date, isTimeSeparator char = false) ∧
      (time = none ∧ body = date ∨ ∃ separator text, isTimeSeparator separator = true ∧
        time = some text ∧ body = date ++ separator :: text) := by
  constructor
  · intro split
    have whole : body.takeWhile (fun char => !isTimeSeparator char) ++
        body.dropWhile (fun char => !isTimeSeparator char) = body :=
      List.takeWhile_append_dropWhile
    have passed : ∀ char ∈ body.takeWhile (fun char => !isTimeSeparator char),
        isTimeSeparator char = false := fun char member => by
      simpa using List.mem_takeWhile_imp member
    rw [splitTime] at split
    split at split
    · rename_i none
      obtain ⟨rfl, rfl⟩ := Prod.mk.inj split
      rw [none, List.append_nil] at whole
      rw [whole] at passed
      exact ⟨passed, .inl ⟨rfl, rfl⟩⟩
    · rename_i separator text rest
      obtain ⟨rfl, rfl⟩ := Prod.mk.inj split
      have stops := List.head?_dropWhile_not (fun char => !isTimeSeparator char) body
      rw [rest] at whole stops
      exact ⟨passed, .inr ⟨separator, text, by simpa using stops, rfl, whole.symm⟩⟩
  · rintro ⟨clear, ⟨rfl, rfl⟩ | ⟨separator, text, stops, rfl, rfl⟩⟩
    · have none : body.dropWhile (fun char => !isTimeSeparator char) = [] :=
        List.dropWhile_eq_nil_iff.mpr fun char member => by simp [clear char member]
      rw [splitTime, none]
    · have passed : ∀ char ∈ date, (!isTimeSeparator char) = true := fun char member => by
        simp [clear char member]
      rw [splitTime, List.dropWhile_append_of_pos passed, List.takeWhile_append_of_pos passed]
      simp [stops]

/-- What follows the date is a time of day, or nothing. -/
def TimeReads (hh mm ss : Nat) : Option (List Char) → Prop
  | none => hh = 0 ∧ mm = 0 ∧ ss = 0
  | some text => ReadsTime text hh mm ss

/-- A number holds neither a letter nor a blank. -/
theorem Reads.plain {text : List Char} {number : Nat} (reads : Reads text number) {char : Char}
    (member : char ∈ text) : char ≠ 'Z' ∧ char ≠ '-' ∧ isTimeSeparator char = false := by
  rcases reads.chars.2 char member with rfl | digit
  · decide
  · refine ⟨?_, ?_, ?_⟩
    · rintro rfl
      revert digit
      decide
    · rintro rfl
      revert digit
      decide
    · by_contra separator
      simp only [isTimeSeparator, decide_eq_false_iff_not, not_not] at separator
      rcases separator with rfl | rfl
      all_goals
        revert digit
        decide

theorem ReadsTime.noZ {text : List Char} {hh mm ss : Nat} (reads : ReadsTime text hh mm ss) :
    'Z' ∉ text := by
  have clear : ∀ {part : List Char} {number : Nat}, Reads part number → 'Z' ∉ part :=
    fun reads member => (reads.plain member).1 rfl
  rcases reads with ⟨reads, -, -⟩ | ⟨hours, minutes, rfl, hour, minute, -⟩ |
    ⟨hours, minutes, seconds, rfl, hour, minute, second⟩
  · exact clear reads
  · simp [clear hour, clear minute]
  · simp [clear hour, clear minute, clear second]

/-- What a text denotes, by the way it is split. -/
theorem denotes_iff {s : String} {at_ : DateTime} : Denotes s at_ ↔ ∃ y m d time,
    splitTime (stripZ (strTrim s.toList)) = (y ++ '-' :: (m ++ '-' :: d), time) ∧
      Reads y at_.year ∧ Reads m at_.month ∧ Reads d at_.day ∧
      TimeReads at_.hh at_.mm at_.ss time := by
  constructor
  · rintro ⟨y, m, d, time, zone, whole, year, month, day, zoned, timed⟩
    have plain : ∀ char ∈ y ++ '-' :: (m ++ '-' :: d),
        char ≠ 'Z' ∧ isTimeSeparator char = false := by
      intro char member
      simp only [List.mem_append, List.mem_cons] at member
      rcases member with inYear | rfl | inMonth | rfl | inDay
      · exact ⟨(year.plain inYear).1, (year.plain inYear).2.2⟩
      · decide
      · exact ⟨(month.plain inMonth).1, (month.plain inMonth).2.2⟩
      · decide
      · exact ⟨(day.plain inDay).1, (day.plain inDay).2.2⟩
    have noZ : 'Z' ∉ time := by
      rcases timed with ⟨rfl, -⟩ | ⟨separator, text, separates, rfl, reads⟩
      · simp
      · have other : 'Z' ≠ separator := by
          rintro rfl
          revert separates
          decide
        simp [other, reads.noZ]
    have clear : 'Z' ∉ y ++ '-' :: (m ++ '-' :: d) ++ time := by
      rw [List.mem_append, not_or]
      exact ⟨fun member => (plain 'Z' member).1 rfl, noZ⟩
    rw [whole, stripZ_append clear zoned]
    rcases timed with ⟨rfl, midnight⟩ | ⟨separator, text, separates, rfl, reads⟩
    · refine ⟨y, m, d, none, splitTime_eq.mpr ⟨fun char member => (plain char member).2, .inl ?_⟩,
        year, month, day, midnight⟩
      exact ⟨rfl, List.append_nil _⟩
    · exact ⟨y, m, d, some text, splitTime_eq.mpr ⟨fun char member => (plain char member).2,
        .inr ⟨separator, text, separates, rfl, rfl⟩⟩, year, month, day, reads⟩
  · rintro ⟨y, m, d, time, split, year, month, day, reads⟩
    obtain ⟨-, shape⟩ := splitTime_eq.mp split
    obtain ⟨zone, zoned, whole⟩ : ∃ zone, (zone = [] ∨ zone = ['Z']) ∧
        strTrim s.toList = stripZ (strTrim s.toList) ++ zone := by
      rcases stripZ_eq (strTrim s.toList) with same | more
      · exact ⟨[], .inl rfl, same⟩
      · exact ⟨['Z'], .inr rfl, more⟩
    rcases shape with ⟨rfl, body⟩ | ⟨separator, text, separates, rfl, body⟩
    · refine ⟨y, m, d, [], zone, ?_, year, month, day, zoned, .inl ⟨rfl, reads⟩⟩
      rw [body] at whole
      rw [whole, List.append_nil]
    · refine ⟨y, m, d, separator :: text, zone, ?_, year, month, day, zoned,
        .inr ⟨separator, text, separates, rfl, reads⟩⟩
      rw [body] at whole
      exact whole

theorem ReadsTime.unique {text : List Char} {hh mm ss hh' mm' ss' : Nat}
    (one : ReadsTime text hh mm ss) (other : ReadsTime text hh' mm' ss') :
    hh = hh' ∧ mm = mm' ∧ ss = ss' := by
  have colon : ∀ {part : List Char} {number : Nat}, Reads part number → ':' ∉ part :=
    fun reads => reads.clear (by decide) (by decide)
  -- the parts of a time of day are its split
  have parts : ∀ {hh mm ss : Nat}, ReadsTime text hh mm ss →
      (∃ hours, text.splitOn ':' = [hours] ∧ Reads hours hh ∧ mm = 0 ∧ ss = 0) ∨
      (∃ hours minutes, text.splitOn ':' = [hours, minutes] ∧ Reads hours hh ∧ Reads minutes mm ∧
        ss = 0) ∨
      (∃ hours minutes seconds, text.splitOn ':' = [hours, minutes, seconds] ∧ Reads hours hh ∧
        Reads minutes mm ∧ Reads seconds ss) := by
    rintro hh mm ss (⟨reads, rest⟩ | ⟨hours, minutes, whole, hour, minute, rest⟩ |
      ⟨hours, minutes, seconds, whole, hour, minute, second⟩)
    · exact .inl ⟨text, List.splitOn_eq_singleton (colon reads), reads, rest⟩
    · exact .inr (.inl ⟨hours, minutes, splitOn_eq_two.mpr ⟨whole, colon hour, colon minute⟩,
        hour, minute, rest⟩)
    · exact .inr (.inr ⟨hours, minutes, seconds,
        splitOn_eq_three.mpr ⟨whole, colon hour, colon minute, colon second⟩, hour, minute, second⟩)
  rcases parts one with ⟨a, split, first, rfl, rfl⟩ | ⟨a, b, split, first, second, rfl⟩ |
    ⟨a, b, c, split, first, second, third⟩
  all_goals
    rcases parts other with ⟨a', split', first', rfl, rfl⟩ | ⟨a', b', split', first', second', rfl⟩ |
      ⟨a', b', c', split', first', second', third'⟩
    all_goals
      rw [split] at split'
      simp only [List.cons.injEq, reduceCtorEq, and_false, and_true] at split'
  · subst split'
    exact ⟨first.unique first', rfl, rfl⟩
  · obtain ⟨rfl, rfl⟩ := split'
    exact ⟨first.unique first', second.unique second', rfl⟩
  · obtain ⟨rfl, rfl, rfl⟩ := split'
    exact ⟨first.unique first', second.unique second', third.unique third'⟩

/-- A text denotes one date and time. -/
theorem Denotes.unique {s : String} {one other : DateTime} (first : Denotes s one)
    (second : Denotes s other) : one = other := by
  obtain ⟨y, m, d, time, split, year, month, day, reads⟩ := denotes_iff.mp first
  obtain ⟨y', m', d', time', split', year', month', day', reads'⟩ := denotes_iff.mp second
  have dash : ∀ {part : List Char} {number : Nat}, Reads part number → '-' ∉ part :=
    fun reads => reads.clear (by decide) (by decide)
  rw [split] at split'
  obtain ⟨same, rfl⟩ := Prod.mk.inj split'
  have parts := splitOn_eq_three.mpr ⟨rfl, dash year, dash month, dash day⟩
  rw [same, splitOn_eq_three.mpr ⟨rfl, dash year', dash month', dash day'⟩] at parts
  simp only [List.cons.injEq, and_true] at parts
  obtain ⟨rfl, rfl, rfl⟩ := parts
  have times : one.hh = other.hh ∧ one.mm = other.mm ∧ one.ss = other.ss := by
    cases time with
    | none =>
        obtain ⟨h, m, s⟩ := reads
        obtain ⟨h', m', s'⟩ := reads'
        exact ⟨h.trans h'.symm, m.trans m'.symm, s.trans s'.symm⟩
    | some text => exact ReadsTime.unique reads reads'
  cases one
  cases other
  simp only at year month day year' month' day' times
  rw [year.unique year', month.unique month', day.unique day', times.1, times.2.1, times.2.2]

/-- A date is accepted with the arithmetic of what it denotes. -/
theorem parseTimeArg_eq_ok {s : String} {result : U64}
    (dated : isDigits (strTrim s.toList) = false) :
    parseTimeArg s = .ok result ↔ ∃ at_, Denotes s at_ ∧ at_.Exists ∧ at_.year < 2 ^ 63 ∧
      unixSeconds (strTrim s.toList) at_.year at_.month at_.day at_.hh at_.mm at_.ss = .ok result := by
  have some : strTrim s.toList ≠ [] := by
    intro empty
    rw [empty] at dated
    cases dated
  have dash : ∀ {part : List Char} {number : Nat}, Reads part number → '-' ∉ part :=
    fun reads => reads.clear (by decide) (by decide)
  rw [parseTimeArg]
  simp only [some, dated, if_false, Bool.false_eq_true]
  constructor
  · intro parsed
    obtain ⟨⟨year, month, day⟩, date, parsed⟩ := Assert.bind_eq_ok.mp parsed
    obtain ⟨⟨hh, mm, ss⟩, time, parsed⟩ := Assert.bind_eq_ok.mp parsed
    obtain ⟨y, m, d, natural, parts, rfl, readYear, small, readMonth, readDay, validMonth, validDay⟩ :=
      parseDate_eq_ok.mp date
    have whole := (splitOn_eq_three.mp parts).1
    have reads : TimeReads hh mm ss (splitTime (stripZ (strTrim s.toList))).2 ∧
        hh ≤ 23 ∧ mm ≤ 59 ∧ ss ≤ 59 := by
      cases behind : (splitTime (stripZ (strTrim s.toList))).2 with
      | none =>
          rw [behind] at time
          cases time
          exact ⟨⟨rfl, rfl, rfl⟩, by decide, by decide, by decide⟩
      | some text =>
          rw [behind] at time
          exact parseTimeOfDay_eq_ok.mp time
    refine ⟨⟨natural, month, day, hh, mm, ss⟩, denotes_iff.mpr ⟨y, m, d, _, ?_, readYear, readMonth,
      readDay, reads.1⟩, ⟨validMonth, validDay, reads.2⟩, small, parsed⟩
    rw [← whole]
  · rintro ⟨at_, denotes, ⟨validMonth, validDay, bounds⟩, small, seconds⟩
    obtain ⟨y, m, d, time, split, year, month, day, reads⟩ := denotes_iff.mp denotes
    have date := (parseDate_eq_ok (s := strTrim s.toList)).mpr ⟨y, m, d, at_.year,
      splitOn_eq_three.mpr ⟨rfl, dash year, dash month, dash day⟩, rfl, year, small, month, day,
      validMonth, validDay⟩
    have timed : parseTimeOfDay (strTrim s.toList) time = .ok (at_.hh, at_.mm, at_.ss) := by
      cases time with
      | none =>
          obtain ⟨h, m, s⟩ := reads
          rw [h, m, s]
          rfl
      | some text => exact parseTimeOfDay_eq_ok.mpr ⟨reads, bounds⟩
    rw [split]
    simp only [date, timed, bind, Except.bind]
    exact seconds

end Reading

section Parsing

/-- The date of a date-time that exists. -/
def DateTime.date {at_ : DateTime} (real : at_.Exists) : Date :=
  ⟨at_.year, at_.month, at_.day, real.1, real.2.1⟩

/-- What a reader of a date expects: an accepted one exists and has its Unix time, one that does
not exist is rejected, and one that passes the checks is computed without an overflow. -/
structure Parses (s : String) : Prop where
  exact : ∀ result, parseTimeArg s = .ok result → isDigits (strTrim s.toList) = false →
    ∃ at_, ∃ real : at_.Exists, Denotes s at_ ∧ ∃ count, UnixDay (DateTime.date real) count ∧
      (result.toNat : Int) = count * 86400 + at_.second
  rejects : ∀ at_, Denotes s at_ → ¬ at_.Exists → ∃ error, parseTimeArg s = .error error
  fits : ∀ at_, Denotes s at_ → at_.Exists → at_.year < 2 ^ 63 → at_.Fits

/-- What denotes a date is no number. -/
theorem Denotes.dated {s : String} {at_ : DateTime} (denotes : Denotes s at_) :
    isDigits (strTrim s.toList) = false := by
  obtain ⟨y, m, d, time, zone, whole, -⟩ := denotes
  rw [whole]
  simp [isDigits]

/-- A date is parsed as its reader expects unless it is too late for the arithmetic. -/
theorem parses_iff (s : String) : Parses s ↔
    ∀ at_, Denotes s at_ → at_.Exists → at_.year < 2 ^ 63 → at_.unix < 2 ^ 63 := by
  constructor
  · intro parses at_ denotes real small
    exact (DateTime.fits_iff real small).mp (parses.fits at_ denotes real small)
  · intro early
    refine ⟨fun result accepted dated => ?_, fun at_ denotes impossible => ?_,
      fun at_ denotes real small => (DateTime.fits_iff real small).mpr
        (early at_ denotes real small)⟩
    · obtain ⟨at_, denotes, real, small, seconds⟩ := (parseTimeArg_eq_ok dated).mp accepted
      have below := early at_ denotes real small
      rw [unixSeconds_eq ((DateTime.fits_iff real small).mpr below)] at seconds
      split at seconds
      · rename_i positive
        cases seconds
        refine ⟨at_, real, denotes, at_.days, unixDay_iff.mpr rfl, ?_⟩
        have unsigned : (BitVec.ofInt 64 at_.unix).toNat = at_.unix.toNat := by
          rw [BitVec.toNat_ofInt]
          omega
        rw [unsigned, Int.toNat_of_nonneg positive]
        rfl
      · cases seconds
    · cases parsed : parseTimeArg s with
      | error error => exact ⟨error, rfl⟩
      | ok result =>
          obtain ⟨other, same, real, -⟩ := (parseTimeArg_eq_ok denotes.dated).mp parsed
          rw [denotes.unique same] at impossible
          exact absurd real impossible

/-- The first second after which the Unix time starts again. -/
def wrapped : DateTime := ⟨584554051223, 11, 9, 7, 0, 16⟩

/-- A date of a far future is taken for the epoch. -/
theorem far_date_wraps : parseTimeArg "584554051223-11-09T07:00:16Z" = .ok 0 ∧
    ¬ Parses "584554051223-11-09T07:00:16Z" := by
  refine ⟨by decide +kernel, fun parses => ?_⟩
  have reads : ∀ digits, digits ≠ [] → isDigits digits = true → Reads digits (value digits) :=
    fun digits some valid => ⟨digits, .inl rfl, some, valid, rfl⟩
  have denotes : Denotes "584554051223-11-09T07:00:16Z" wrapped :=
    ⟨"584554051223".toList, "11".toList, "09".toList, "T07:00:16".toList, ['Z'],
      by decide +kernel, reads _ (by decide) (by decide), reads _ (by decide) (by decide),
      reads _ (by decide) (by decide), .inr rfl, .inr ⟨'T', "07:00:16".toList, by decide,
        by decide +kernel, .inr (.inr ⟨"07".toList, "00".toList, "16".toList, by decide +kernel,
          reads _ (by decide) (by decide), reads _ (by decide) (by decide),
          reads _ (by decide) (by decide)⟩)⟩⟩
  have real : wrapped.Exists := by
    rw [DateTime.Exists]
    decide +kernel
  have late := (parses_iff _).mp parses wrapped denotes real (by decide)
  revert late
  decide +kernel

end Parsing

end AtomicSwaps.Eth
