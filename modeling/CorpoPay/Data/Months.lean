import Mathlib.Tactic.IntervalCases
import CorpoPay.Data.Calendar

/-!
# Months

The months are counted from the first month of the year 0. A day of the calendar is a day of one month, and a month later it
is the same day of the next month, or an early day of the month after that one when the next month is too short.
-/

namespace CorpoPay.Data

def isLeapYear (year : Nat) : Bool := year % 4 = 0 && (year % 100 ≠ 0 || year % 400 = 0)

theorem isLeapYear_iff {year : Nat} : isLeapYear year = true ↔ year % 4 = 0 ∧ (year % 100 ≠ 0 ∨ year % 400 = 0) := by
  simp [isLeapYear]

/-- The days of a month. -/
def monthLength (month : Nat) : Nat :=
  if month % 12 = 1 then (if isLeapYear (month / 12) then 29 else 28)
  else if month % 12 = 3 ∨ month % 12 = 5 ∨ month % 12 = 8 ∨ month % 12 = 10 then 30
  else 31

/-- The first day of a month. -/
def monthStart (month : Nat) : Nat := dayOfCivil { year := month / 12, month := month % 12 + 1, day := 1 }

/-- The month of a date. -/
def monthOf (date : Nat) : Nat := (civilOfDay (date / DAY_MS)).year * 12 + ((civilOfDay (date / DAY_MS)).month - 1)

def dayOfMonth (date : Nat) : Nat := (civilOfDay (date / DAY_MS)).day

/-- January 1970. -/
def EPOCH_MONTH : Nat := 1970 * 12

/-! ## Years that begin in March -/

/-- The days of a month counted from March, the last one with or without the leap day. -/
def marchLength (m : Nat) (leap : Bool) : Nat :=
  if m = 11 then (if leap then 29 else 28) else if m = 1 ∨ m = 3 ∨ m = 6 ∨ m = 8 then 30 else 31

theorem yearOfEra_parts {c q r d e : Nat} (hc : c < 4) (hq : q < 25) (hr : r < 4) (hd : d < 366)
    (hleap : d = 365 → r = 3 ∧ (q < 24 ∨ c = 3)) (he : e = 36524 * c + 1461 * q + 365 * r + d) :
    (e - e / 1460 + e / 36524 - e / 146096) / 365 = 100 * c + 4 * q + r := by
  by_cases hlast : e = 146096
  · subst hlast
    omega
  · have hfour : e / 146096 = 0 := by omega
    have hcentury : e / 36524 = c := by omega
    have hyears : e / 1460 = 25 * c + q + if 1460 ≤ 24 * c + q + 365 * r + d then 1 else 0 := by split <;> omega
    rw [hfour, hcentury, hyears]
    split <;> omega

/-- The year of a day of its era. -/
theorem yearOfEra_eq {y d : Nat} (hy : y < 400) (hd : d < 366) (hleap : d = 365 → isLeapYear (y + 1) = true) :
    (y * 365 + y / 4 - y / 100 + d - (y * 365 + y / 4 - y / 100 + d) / 1460 + (y * 365 + y / 4 - y / 100 + d) / 36524 -
      (y * 365 + y / 4 - y / 100 + d) / 146096) / 365 = y := by
  rw [isLeapYear_iff] at hleap
  rw [yearOfEra_parts (c := y / 100) (q := y % 100 / 4) (r := y % 4) (d := d) (by omega) (by omega) (by omega) hd
    (by omega) (by omega)]
  omega

/-- The month of a day of its year. -/
theorem marchDay {m k : Nat} {leap : Bool} (hm : m < 12) (hk : k < marchLength m leap) :
    (5 * ((153 * m + 2) / 5 + k) + 2) / 153 = m ∧ (153 * m + 2) / 5 + k < 366 ∧
      ((153 * m + 2) / 5 + k = 365 → leap = true) := by
  by_cases hlast : m = 11
  · subst hlast
    cases leap
    · have hk' : k < 28 := hk
      omega
    · have hk' : k < 29 := hk
      exact ⟨by omega, by omega, fun _ => rfl⟩
  · have hshort : k < 30 ∨ k = 30 ∧ m ≠ 1 ∧ m ≠ 3 ∧ m ≠ 6 ∧ m ≠ 8 := by
      unfold marchLength at hk
      rw [if_neg hlast] at hk
      split_ifs at hk <;> omega
    refine ⟨?_, by omega, by omega⟩
    interval_cases m <;> omega

theorem civilOfDay_march {era y m k : Nat} (hy : y < 400) (hm : m < 12) (hk : k < marchLength m (isLeapYear (y + 1)))
    (h : 719468 ≤ era * 146097 + (y * 365 + y / 4 - y / 100 + ((153 * m + 2) / 5 + k))) :
    civilOfDay (era * 146097 + (y * 365 + y / 4 - y / 100 + ((153 * m + 2) / 5 + k)) - 719468) =
      { year := era * 400 + y + if m < 10 then 0 else 1, month := if m < 10 then m + 3 else m - 9, day := k + 1 } := by
  obtain ⟨hmonth, hlast, hleap⟩ := marchDay hm hk
  have hyear := yearOfEra_eq hy hlast hleap
  rw [isLeapYear_iff] at hleap
  set doy := (153 * m + 2) / 5 + k with hdoy
  set doe := y * 365 + y / 4 - y / 100 + doy with hdoe
  have hera : doe < 146097 := by omega
  have hmod : (era * 146097 + doe) % 146097 = doe := by omega
  have hdiv : (era * 146097 + doe) / 146097 = era := by omega
  have hday : doe - (365 * y + y / 4 - y / 100) = doy := by omega
  simp only [civilOfDay]
  rw [Nat.sub_add_cancel h, hmod, hdiv, hyear, hday, hmonth]
  simp only [CivilDate.mk.injEq]
  refine ⟨?_, trivial, by omega⟩
  split_ifs <;> omega

/-! ## Days of a month -/

theorem marchLength_eq {month : Nat} (h : 2 ≤ month) :
    marchLength ((month - 2) % 12) (isLeapYear ((month - 2) / 12 % 400 + 1)) = monthLength month := by
  have hleap : month % 12 = 1 → isLeapYear ((month - 2) / 12 % 400 + 1) = isLeapYear (month / 12) := by
    intro hfebruary
    rw [Bool.eq_iff_iff, isLeapYear_iff, isLeapYear_iff]
    omega
  unfold marchLength monthLength
  by_cases hfebruary : month % 12 = 1
  · rw [if_pos (by omega), if_pos hfebruary, hleap hfebruary]
  · rw [if_neg (by omega), if_neg hfebruary]
    congr 1
    exact propext (by omega)

theorem dayOfCivil_eq {month d : Nat} (h : 2 ≤ month) (hd : 0 < d) :
    dayOfCivil { year := month / 12, month := month % 12 + 1, day := d } =
      (month - 2) / 12 / 400 * 146097 + ((month - 2) / 12 % 400 * 365 + (month - 2) / 12 % 400 / 4 -
        (month - 2) / 12 % 400 / 100 + ((153 * ((month - 2) % 12) + 2) / 5 + (d - 1))) - 719468 := by
  have hyear : (if month % 12 + 1 ≤ 2 then month / 12 - 1 else month / 12) = (month - 2) / 12 := by split <;> omega
  have hmonth : (if month % 12 + 1 ≤ 2 then month % 12 + 1 + 9 else month % 12 + 1 - 3) = (month - 2) % 12 := by
    split <;> omega
  unfold dayOfCivil
  dsimp only
  rw [hyear, hmonth, Nat.add_sub_assoc hd]

/-- The first day of a month of 1970 or later is not before the first of the epoch. -/
theorem epoch_le {month : Nat} (h : EPOCH_MONTH ≤ month) :
    719468 ≤ (month - 2) / 12 / 400 * 146097 + ((month - 2) / 12 % 400 * 365 + (month - 2) / 12 % 400 / 4 -
      (month - 2) / 12 % 400 / 100 + (153 * ((month - 2) % 12) + 2) / 5) := by
  unfold EPOCH_MONTH at h
  have hyear : (month - 2) / 12 = 1969 ∧ 10 ≤ (month - 2) % 12 ∨ 1970 ≤ (month - 2) / 12 := by omega
  generalize (month - 2) / 12 = year at hyear ⊢
  generalize (month - 2) % 12 = m at hyear ⊢
  obtain ⟨rfl, hm⟩ | hyear := hyear
  · omega
  · have hera : year / 400 = 4 ∧ 370 ≤ year % 400 ∨ 5 ≤ year / 400 := by omega
    omega

theorem dayOfCivil_monthStart {month d : Nat} (h : EPOCH_MONTH ≤ month) (hd : 0 < d) :
    dayOfCivil { year := month / 12, month := month % 12 + 1, day := d } = monthStart month + (d - 1) := by
  have hepoch := epoch_le h
  unfold EPOCH_MONTH at h
  rw [monthStart, dayOfCivil_eq (by omega) hd, dayOfCivil_eq (by omega) Nat.one_pos]
  generalize (month - 2) / 12 = year at hepoch ⊢
  generalize (153 * ((month - 2) % 12) + 2) / 5 = doy at hepoch ⊢
  omega

theorem monthStart_succ {month : Nat} (h : EPOCH_MONTH ≤ month) :
    monthStart (month + 1) = monthStart month + monthLength month := by
  have hepoch := epoch_le h
  unfold EPOCH_MONTH at h
  rw [monthStart, dayOfCivil_eq (by omega) Nat.one_pos, monthStart, dayOfCivil_eq (by omega) Nat.one_pos,
    ← marchLength_eq (by omega)]
  by_cases hlast : (month - 2) % 12 = 11
  · have hyear : (month + 1 - 2) / 12 = (month - 2) / 12 + 1 := by omega
    have hmonth : (month + 1 - 2) % 12 = 0 := by omega
    rw [hyear, hmonth, hlast]
    rw [hlast] at hepoch
    generalize (month - 2) / 12 = year at hepoch ⊢
    simp only [marchLength, if_true]
    by_cases hleap : isLeapYear (year % 400 + 1)
    · rw [if_pos hleap]
      rw [isLeapYear_iff] at hleap
      omega
    · rw [if_neg hleap]
      rw [isLeapYear_iff] at hleap
      omega
  · have hyear : (month + 1 - 2) / 12 = (month - 2) / 12 := by omega
    have hmonth : (month + 1 - 2) % 12 = (month - 2) % 12 + 1 := by omega
    rw [hyear, hmonth]
    have hm : (month - 2) % 12 < 11 := by omega
    generalize (month - 2) / 12 = year at hepoch ⊢
    generalize (month - 2) % 12 = m at hepoch hlast hm ⊢
    have hsum : (153 * (m + 1) + 2) / 5 = (153 * m + 2) / 5 + marchLength m (isLeapYear (year % 400 + 1)) := by
      rw [marchLength, if_neg hlast]
      interval_cases m <;> rfl
    rw [hsum]
    omega

theorem civilOfDay_monthStart {month k : Nat} (h : EPOCH_MONTH ≤ month) (hk : k < monthLength month) :
    civilOfDay (monthStart month + k) = { year := month / 12, month := month % 12 + 1, day := k + 1 } := by
  have hepoch := epoch_le h
  have hmonth : 2 ≤ month := Nat.le_trans (by decide) h
  have hpos : 0 < k + 1 := Nat.succ_pos k
  have hday := dayOfCivil_monthStart h hpos
  rw [Nat.add_sub_cancel] at hday
  rw [← marchLength_eq hmonth] at hk
  rw [← hday, dayOfCivil_eq hmonth hpos, Nat.add_sub_cancel,
    civilOfDay_march (Nat.mod_lt _ (by decide)) (Nat.mod_lt _ (by decide)) hk (by omega)]
  simp only [CivilDate.mk.injEq]
  refine ⟨?_, ?_, trivial⟩
  · split <;> omega
  · split <;> omega

theorem monthLength_bounds (month : Nat) : 28 ≤ monthLength month ∧ monthLength month ≤ 31 := by
  unfold monthLength
  split_ifs <;> omega

/-- Every day is one of a month. -/
theorem exists_month (n : Nat) :
    ∃ month, EPOCH_MONTH ≤ month ∧ ∃ k < monthLength month, n = monthStart month + k := by
  induction n with
  | zero =>
    have hstart : monthStart EPOCH_MONTH = 0 := by decide +kernel
    have hpos := (monthLength_bounds EPOCH_MONTH).1
    exact ⟨EPOCH_MONTH, Nat.le_refl _, 0, by omega, by omega⟩
  | succ n ih =>
    obtain ⟨month, h, k, hk, rfl⟩ := ih
    by_cases hlast : k + 1 < monthLength month
    · exact ⟨month, h, k + 1, hlast, Nat.add_assoc _ _ _⟩
    · have hpos := (monthLength_bounds (month + 1)).1
      refine ⟨month + 1, Nat.le_succ_of_le h, 0, by omega, ?_⟩
      rw [monthStart_succ h]
      omega

/-! ## Dates -/

theorem monthOf_eq {date month k : Nat} (h : EPOCH_MONTH ≤ month) (hk : k < monthLength month)
    (hday : date / DAY_MS = monthStart month + k) : monthOf date = month ∧ dayOfMonth date = k + 1 := by
  unfold monthOf dayOfMonth
  rw [hday, civilOfDay_monthStart h hk]
  exact ⟨Nat.div_add_mod' month 12, rfl⟩

/-- A date is on a day of its month. -/
theorem month_spec (date : Nat) : EPOCH_MONTH ≤ monthOf date ∧ 0 < dayOfMonth date ∧
    dayOfMonth date ≤ monthLength (monthOf date) ∧ date / DAY_MS = monthStart (monthOf date) + (dayOfMonth date - 1) := by
  obtain ⟨month, h, k, hk, hday⟩ := exists_month (date / DAY_MS)
  obtain ⟨hmonth, hdom⟩ := monthOf_eq h hk hday
  rw [hmonth, hdom]
  exact ⟨h, Nat.succ_pos k, hk, hday⟩

theorem civilOfDay_date (date : Nat) : civilOfDay (date / DAY_MS) =
    { year := monthOf date / 12, month := monthOf date % 12 + 1, day := dayOfMonth date } := by
  obtain ⟨h, hpos, hlast, hday⟩ := month_spec date
  rw [hday, civilOfDay_monthStart h (by omega), Nat.sub_add_cancel hpos]

/-- Months later it is the same day of the month, counted on when the month is too short. -/
theorem addMonths_day (date months : Nat) :
    addMonths date months / DAY_MS = monthStart (monthOf date + months) + (dayOfMonth date - 1) := by
  obtain ⟨h, hpos, -, -⟩ := month_spec date
  have hyear : monthOf date / 12 + (monthOf date % 12 + 1 - 1 + months) / 12 = (monthOf date + months) / 12 := by omega
  have hmonth : (monthOf date % 12 + 1 - 1 + months) % 12 = (monthOf date + months) % 12 := by omega
  have hms : 0 < DAY_MS := by decide
  unfold addMonths
  rw [civilOfDay_date]
  dsimp only
  rw [hyear, hmonth, dayOfCivil_monthStart (Nat.le_add_right_of_le h) hpos, Nat.mul_comm, Nat.mul_add_div hms,
    Nat.div_eq_of_lt (Nat.mod_lt _ hms), Nat.add_zero]

theorem addYears_eq (date years : Nat) : addYears date years = addMonths date (years * 12) := by
  have hyear : (monthOf date % 12 + 1 - 1 + years * 12) / 12 = years := by omega
  have hmonth : (monthOf date % 12 + 1 - 1 + years * 12) % 12 = monthOf date % 12 := by omega
  unfold addYears addMonths
  rw [civilOfDay_date]
  dsimp only
  rw [hyear, hmonth]

theorem monthOf_addMonths_of_le {date months : Nat} (h : dayOfMonth date ≤ monthLength (monthOf date + months)) :
    monthOf (addMonths date months) = monthOf date + months ∧ dayOfMonth (addMonths date months) = dayOfMonth date := by
  obtain ⟨hepoch, hpos, -, -⟩ := month_spec date
  obtain ⟨hmonth, hday⟩ := monthOf_eq (Nat.le_add_right_of_le hepoch) (by omega) (addMonths_day date months)
  exact ⟨hmonth, by omega⟩

theorem monthOf_addMonths_of_lt {date months : Nat} (h : monthLength (monthOf date + months) < dayOfMonth date) :
    monthOf (addMonths date months) = monthOf date + months + 1 := by
  obtain ⟨hepoch, -, hlast, -⟩ := month_spec date
  have hmonths : EPOCH_MONTH ≤ monthOf date + months := Nat.le_add_right_of_le hepoch
  have hshort := monthLength_bounds (monthOf date + months)
  have hlong := monthLength_bounds (monthOf date)
  have hnext := monthLength_bounds (monthOf date + months + 1)
  have hday : addMonths date months / DAY_MS =
      monthStart (monthOf date + months + 1) + (dayOfMonth date - 1 - monthLength (monthOf date + months)) := by
    rw [addMonths_day, monthStart_succ hmonths]
    omega
  have hk : dayOfMonth date - 1 - monthLength (monthOf date + months) < monthLength (monthOf date + months + 1) := by omega
  exact (monthOf_eq (Nat.le_succ_of_le hmonths) hk hday).1

/-- Months later it is not an earlier month than the one counted. -/
theorem le_monthOf_addMonths (date months : Nat) : monthOf date + months ≤ monthOf (addMonths date months) := by
  rcases Nat.lt_or_ge (monthLength (monthOf date + months)) (dayOfMonth date) with hover | hfits
  · rw [monthOf_addMonths_of_lt hover]
    exact Nat.le_succ _
  · rw [(monthOf_addMonths_of_le hfits).1]

theorem monthStart_le {month month' : Nat} (h : EPOCH_MONTH ≤ month) (hle : month ≤ month') :
    monthStart month ≤ monthStart month' := by
  induction month', hle using Nat.le_induction with
  | base => exact Nat.le_refl _
  | succ month' hle ih =>
    rw [monthStart_succ (Nat.le_trans h hle)]
    exact Nat.le_add_right_of_le ih

/-- A date of a later month is later. -/
theorem lt_of_monthOf_lt {date date' : Nat} (h : monthOf date < monthOf date') : date < date' := by
  obtain ⟨hepoch, hpos, hlast, hday⟩ := month_spec date
  obtain ⟨-, -, -, hday'⟩ := month_spec date'
  have hstart := monthStart_le (Nat.le_succ_of_le hepoch) h
  rw [monthStart_succ hepoch] at hstart
  have hdays : date / DAY_MS < date' / DAY_MS := by omega
  exact Nat.lt_of_not_le fun hle => Nat.not_le_of_lt hdays (Nat.div_le_div_right hle)

/-! ## Texts of dates -/

theorem padded_toList (width n : Nat) :
    (padded width n).toList = List.replicate (width - (toString n).length) '0' ++ Nat.toDigits 10 n := by
  simp [padded]

theorem padded_injective {width n m : Nat} (h : (padded width n).toList = (padded width m).toList) : n = m := by
  rw [padded_toList, padded_toList] at h
  have hvalue := congrArg (fun digits => Nat.ofDigitChars 10 digits 0) h
  simpa [Nat.ofDigitChars_append] using hvalue

theorem isDigit_of_mem_padded {width n : Nat} {c : Char} (h : c ∈ (padded width n).toList) : c.isDigit = true := by
  rw [padded_toList, List.mem_append] at h
  rcases h with hzero | hdigit
  · rw [List.eq_of_mem_replicate hzero]
    rfl
  · exact Nat.isDigit_of_mem_toDigits (by decide) (by decide) hdigit

/-- Digits end at a dash. -/
theorem padded_dash {width n m : Nat} {rest rest' : List Char}
    (h : (padded width n).toList ++ '-' :: rest = (padded width m).toList ++ '-' :: rest') : n = m ∧ rest = rest' := by
  have htake (n : Nat) (rest : List Char) :
      ((padded width n).toList ++ '-' :: rest).takeWhile Char.isDigit = (padded width n).toList := by
    rw [List.takeWhile_append_of_pos fun _ hc => isDigit_of_mem_padded hc,
      List.takeWhile_cons_of_neg (by decide), List.append_nil]
  have hdigits := congrArg (List.takeWhile Char.isDigit) h
  rw [htake, htake] at hdigits
  rw [hdigits] at h
  exact ⟨padded_injective hdigits, (List.cons.inj (List.append_cancel_left h)).2⟩

theorem padded_ne_nil (width n : Nat) : (padded width n).toList ≠ [] := by
  rw [padded_toList]
  exact List.append_ne_nil_of_right_ne_nil _ Nat.toDigits_ne_nil

/-- A date after the year 9999 has a sign. -/
theorem padded_ne_plus {width n : Nat} {rest rest' : List Char} : (padded width n).toList ++ rest ≠ '+' :: rest' := by
  obtain ⟨c, digits, hcons⟩ := List.exists_cons_of_ne_nil (padded_ne_nil width n)
  have hdigit : c.isDigit = true := isDigit_of_mem_padded (hcons ▸ List.mem_cons_self)
  rw [hcons]
  intro h
  rw [(List.cons.inj h).1] at hdigit
  exact absurd hdigit (by decide)

/-- The text of a day has its year and its month. -/
theorem isoDay_parts {year month day year' month' day' : Nat}
    (h : (if year < 10000 then padded 4 year ++ "-" ++ padded 2 month ++ "-" ++ padded 2 day
        else "+" ++ padded 6 year ++ "-" ++ padded 2 month) =
      (if year' < 10000 then padded 4 year' ++ "-" ++ padded 2 month' ++ "-" ++ padded 2 day'
        else "+" ++ padded 6 year' ++ "-" ++ padded 2 month')) :
    year = year' ∧ month = month' := by
  have hdash : "-".toList = ['-'] := rfl
  have hplus : "+".toList = ['+'] := rfl
  split_ifs at h
  · have htext := congrArg String.toList h
    simp only [String.toList_append, List.append_assoc, hdash, List.cons_append, List.nil_append] at htext
    obtain ⟨hyear, hrest⟩ := padded_dash htext
    exact ⟨hyear, (padded_dash hrest).1⟩
  · have htext := congrArg String.toList h
    simp only [String.toList_append, List.append_assoc, hplus, List.cons_append, List.nil_append] at htext
    exact absurd htext padded_ne_plus
  · have htext := congrArg String.toList h
    simp only [String.toList_append, List.append_assoc, hplus, List.cons_append, List.nil_append] at htext
    exact absurd htext.symm padded_ne_plus
  · have htext := congrArg String.toList h
    simp only [String.toList_append, List.append_assoc, hdash, hplus, List.cons_append, List.nil_append] at htext
    obtain ⟨hyear, hrest⟩ := padded_dash (List.cons.inj htext).2
    exact ⟨hyear, padded_injective hrest⟩

/-- Dates of one text are of one month. -/
theorem monthOf_eq_of_isoDay {date date' : Nat} (h : isoDay date = isoDay date') : monthOf date = monthOf date' := by
  rw [isoDay, isoDay, civilOfDay_date, civilOfDay_date] at h
  obtain ⟨hyear, hmonth⟩ := isoDay_parts h
  dsimp only at hyear hmonth
  omega

end CorpoPay.Data
