import Mathlib.Order.Basic
import Mathlib.Tactic.IntervalCases

/-!
# The proleptic Gregorian calendar

Dates by year, month and day, the day after a date, and the number of days since the first
of January 1970, counted from day to day and given by a formula.
-/

namespace Calendar

/-- A leap year. -/
def IsLeap (year : Int) : Prop := (year % 4 = 0 ∧ year % 100 ≠ 0) ∨ year % 400 = 0

instance (year : Int) : Decidable (IsLeap year) := inferInstanceAs (Decidable (_ ∨ _))

/-- The number of days of a month. -/
def monthLength (year : Int) (month : Nat) : Nat :=
  match month with
  | 1 | 3 | 5 | 7 | 8 | 10 | 12 => 31
  | 4 | 6 | 9 | 11 => 30
  | 2 => if IsLeap year then 29 else 28
  | _ => 0

theorem monthLength_two (year : Int) :
    IsLeap year ∧ monthLength year 2 = 29 ∨ ¬ IsLeap year ∧ monthLength year 2 = 28 := by
  by_cases leap : IsLeap year
  · exact .inl ⟨leap, if_pos leap⟩
  · exact .inr ⟨leap, if_neg leap⟩

theorem monthLength_pos (year : Int) {month : Nat} (valid : 1 ≤ month ∧ month ≤ 12) :
    28 ≤ monthLength year month ∧ monthLength year month ≤ 31 := by
  obtain ⟨first, last⟩ := valid
  have february := monthLength_two year
  interval_cases month <;> first | omega | (simp only [monthLength]; omega)

/-- A date that exists. -/
@[ext] structure Date where
  year : Int
  month : Nat
  day : Nat
  month_valid : 1 ≤ month ∧ month ≤ 12
  day_valid : 1 ≤ day ∧ day ≤ monthLength year month

/-- The first of January 1970. -/
def epoch : Date := ⟨1970, 1, 1, by decide, by decide⟩

/-- The first day of a month. -/
def firstOf (year : Int) (month : Nat) (valid : 1 ≤ month ∧ month ≤ 12) : Date :=
  ⟨year, month, 1, valid, le_refl 1, by have long := monthLength_pos year valid; omega⟩

/-- The day after a date. -/
def Date.next (date : Date) : Date :=
  if more : date.day < monthLength date.year date.month then
    ⟨date.year, date.month, date.day + 1, date.month_valid, by omega, more⟩
  else if later : date.month < 12 then firstOf date.year (date.month + 1) ⟨by omega, later⟩
  else firstOf (date.year + 1) 1 (by decide)

/-- Days are counted from the epoch, one for the next day. -/
inductive UnixDay : Date → Int → Prop where
  | epoch : UnixDay epoch 0
  | next {date : Date} {count : Int} (counted : UnixDay date count) :
      UnixDay date.next (count + 1)
  | previous {date : Date} {count : Int} (counted : UnixDay date.next (count + 1)) :
      UnixDay date count

/-- The days of a date by the length of its years, which start in March. -/
def dayNumber (year : Int) (month day : Nat) : Int :=
  let year := if month ≤ 2 then year - 1 else year
  365 * year + year / 4 - year / 100 + year / 400 + ((153 * ((month + 9) % 12) + 2) / 5 : Nat) +
    day - 719469

/-- The number of a date. -/
def Date.number (date : Date) : Int := dayNumber date.year date.month date.day

/-- The last day of a month is followed by the first of the next. -/
theorem dayNumber_month (year : Int) {month : Nat} (first : 1 ≤ month) (last : month < 12) :
    dayNumber year (month + 1) 1 = dayNumber year month (monthLength year month) + 1 := by
  have february := monthLength_two year
  rw [IsLeap] at february
  interval_cases month <;> first
    | (simp only [dayNumber, monthLength]; omega)
    | (simp only [dayNumber]; omega)

theorem dayNumber_year (year : Int) :
    dayNumber (year + 1) 1 1 = dayNumber year 12 (monthLength year 12) + 1 := by
  simp only [dayNumber, monthLength]
  omega

/-- The next day has the next number. -/
theorem Date.number_next (date : Date) : date.next.number = date.number + 1 := by
  obtain ⟨year, month, day, ⟨first, last⟩, ⟨firstDay, lastDay⟩⟩ := date
  simp only [Date.next]
  split
  · simp only [Date.number, dayNumber]
    omega
  · have whole : day = monthLength year month := by omega
    subst whole
    split
    · rename_i later
      exact dayNumber_month year first later
    · obtain rfl : month = 12 := by omega
      exact dayNumber_year year

/-- A date has at most one count, its number. -/
theorem UnixDay.number {date : Date} {count : Int} (counted : UnixDay date count) :
    count = date.number := by
  induction counted with
  | epoch => decide
  | next _ ih => rw [Date.number_next, ih]
  | previous _ ih =>
      rw [Date.number_next] at ih
      omega

/-- A date that is reached by counting. -/
def Dated (date : Date) : Prop := ∃ count, UnixDay date count

theorem dated_next {date : Date} : Dated date.next ↔ Dated date := by
  constructor
  · rintro ⟨count, counted⟩
    have shifted : UnixDay date.next ((count - 1) + 1) := by simpa using counted
    exact ⟨count - 1, shifted.previous⟩
  · rintro ⟨count, counted⟩
    exact ⟨count + 1, counted.next⟩

/-- The days of a month are reached from its first. -/
theorem dated_day {date : Date} :
    Dated date ↔ Dated (firstOf date.year date.month date.month_valid) := by
  obtain ⟨year, month, day, valid, ⟨first, last⟩⟩ := date
  induction day, first using Nat.le_induction with
  | base => rfl
  | succ day first ih =>
      have within : 1 ≤ day ∧ day ≤ monthLength year month := ⟨first, by omega⟩
      have following : Date.next ⟨year, month, day, valid, within⟩ =
          ⟨year, month, day + 1, valid, ⟨by omega, last⟩⟩ := by
        rw [Date.next, dif_pos (show day < monthLength year month by omega)]
      have step : Dated ⟨year, month, day + 1, valid, ⟨by omega, last⟩⟩ ↔
          Dated ⟨year, month, day, valid, within⟩ := by
        rw [← following, dated_next]
      exact step.trans (ih within.2)

/-- The months of a year are reached from its first. -/
theorem dated_month {year : Int} {month : Nat} (valid : 1 ≤ month ∧ month ≤ 12) :
    Dated (firstOf year month valid) ↔ Dated (firstOf year 1 (by decide)) := by
  obtain ⟨first, last⟩ := valid
  induction month, first using Nat.le_induction with
  | base => rfl
  | succ month first ih =>
      have within : 1 ≤ month ∧ month ≤ 12 := ⟨first, by omega⟩
      have long := monthLength_pos year within
      have following : Date.next ⟨year, month, monthLength year month, within, by omega, le_refl _⟩ =
          firstOf year (month + 1) ⟨by omega, last⟩ := by
        rw [Date.next, dif_neg (lt_irrefl _), dif_pos (show month < 12 by omega)]
      rw [← following, dated_next, dated_day]
      exact ih within.2

/-- Every year is reached from the one before. -/
theorem dated_year {year : Int} :
    Dated (firstOf (year + 1) 1 (by decide)) ↔ Dated (firstOf year 1 (by decide)) := by
  have december : 1 ≤ 12 ∧ 12 ≤ 12 := by decide
  have long := monthLength_pos year december
  have following : Date.next ⟨year, 12, monthLength year 12, december, by omega, le_refl _⟩ =
      firstOf (year + 1) 1 (by decide) := by
    rw [Date.next, dif_neg (lt_irrefl _), dif_neg (lt_irrefl _)]
  rw [← following, dated_next, dated_day]
  exact dated_month december

/-- Every date is reached. -/
theorem dated (date : Date) : Dated date := by
  rw [dated_day, dated_month]
  have start : Dated (firstOf 1970 1 (by decide)) := ⟨0, .epoch⟩
  have shifted : ∀ offset : Int, Dated (firstOf (1970 + offset) 1 (by decide)) := by
    intro offset
    induction offset using Int.induction_on with
    | zero => exact start
    | succ count ih => exact dated_year.mpr ih
    | pred count ih =>
        apply dated_year.mp
        have same : (1970 : Int) + (-count - 1) + 1 = 1970 + -count := by omega
        rw [same]
        exact ih
  have same : date.year = 1970 + (date.year - 1970) := by omega
  rw [same]
  exact shifted _

/-- Counting from day to day is the formula. -/
theorem unixDay_iff {date : Date} {count : Int} : UnixDay date count ↔ count = date.number := by
  constructor
  · exact UnixDay.number
  · rintro rfl
    obtain ⟨count, counted⟩ := dated date
    rwa [← counted.number]

end Calendar
