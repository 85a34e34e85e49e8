/-!
# Dates

A date is the number of milliseconds since 1970 began, in UTC.
-/

namespace CorpoPay.Data

def DAY_MS : Nat := 24 * 60 * 60 * 1000

structure CivilDate where
  year : Nat
  /-- From 1 to 12. -/
  month : Nat
  day : Nat
  deriving DecidableEq, Repr

/-- The date of a day, counted from 1970-01-01. The year begins in March here, so that the leap day is its last one. -/
def civilOfDay (n : Nat) : CivilDate :=
  let n := n + 719468
  let dayOfEra := n % 146097
  let yearOfEra := (dayOfEra - dayOfEra / 1460 + dayOfEra / 36524 - dayOfEra / 146096) / 365
  let dayOfYear := dayOfEra - (365 * yearOfEra + yearOfEra / 4 - yearOfEra / 100)
  let m := (5 * dayOfYear + 2) / 153
  let month := if m < 10 then m + 3 else m - 9
  { year := n / 146097 * 400 + yearOfEra + (if month ≤ 2 then 1 else 0), month
    day := dayOfYear - (153 * m + 2) / 5 + 1 }

/-- The day of a date. A day past the end of the month is one of the months that follow. -/
def dayOfCivil (date : CivilDate) : Nat :=
  let year := if date.month ≤ 2 then date.year - 1 else date.year
  let m := if date.month ≤ 2 then date.month + 9 else date.month - 3
  let yearOfEra := year % 400
  let dayOfYear := (153 * m + 2) / 5 + date.day - 1
  year / 400 * 146097 + (yearOfEra * 365 + yearOfEra / 4 - yearOfEra / 100 + dayOfYear) - 719468

example : civilOfDay 59 = ⟨1970, 3, 1⟩ ∧ dayOfCivil ⟨2024, 2, 29⟩ = 19782 ∧ civilOfDay 19783 = ⟨2024, 3, 1⟩ := by decide

/-- `setUTCDate(getUTCDate() + days)` -/
def addDays (date days : Nat) : Nat := date + days * DAY_MS

/-- `setUTCMonth(getUTCMonth() + months)` -/
def addMonths (date months : Nat) : Nat :=
  let civil := civilOfDay (date / DAY_MS)
  let month := civil.month - 1 + months
  dayOfCivil { year := civil.year + month / 12, month := month % 12 + 1, day := civil.day } * DAY_MS + date % DAY_MS

/-- `setUTCFullYear(getUTCFullYear() + years)` -/
def addYears (date years : Nat) : Nat :=
  let civil := civilOfDay (date / DAY_MS)
  dayOfCivil { civil with year := civil.year + years } * DAY_MS + date % DAY_MS

/-- The 31st of January and a month is the 2nd or the 3rd of March. -/
example : addMonths (dayOfCivil ⟨2024, 1, 31⟩ * DAY_MS) 1 = dayOfCivil ⟨2024, 3, 2⟩ * DAY_MS := by decide

def padded (width n : Nat) : String :=
  let digits := toString n
  String.ofList (List.replicate (width - digits.length) '0') ++ digits

/-- `toISOString().slice(0, 10)` -/
def isoDay (date : Nat) : String :=
  let civil := civilOfDay (date / DAY_MS)
  if civil.year < 10000 then padded 4 civil.year ++ "-" ++ padded 2 civil.month ++ "-" ++ padded 2 civil.day
  else "+" ++ padded 6 civil.year ++ "-" ++ padded 2 civil.month

example : isoDay (19782 * DAY_MS + 1) = "2024-02-29" := by decide

end CorpoPay.Data
