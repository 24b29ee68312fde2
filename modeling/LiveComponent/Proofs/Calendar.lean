import LiveComponent.Time.Date

namespace LiveComponent

namespace Date

/-!
# Dates and numbers of days

A number of days leads to a date of the calendar, and this date leads back to the number.
-/

/-- A day within an era of 400 years lies in one of its years, and only leap years have a 366th day. -/
theorem yearOfEra_spec
    {day year fours centuries : Int}
    (nonneg : 0 ≤ day)
    (bound : day < 146097)
    (yearEq : year = (day - day / 1460 + day / 36524 - day / 146096) / 365)
    (foursEq : fours = year / 4)
    (centuriesEq : centuries = year / 100) :
    0 ≤ year ∧ year < 400 ∧
      365 * year + fours - centuries ≤ day ∧ day ≤ 365 * year + fours - centuries + 365 ∧
      (day = 365 * year + fours - centuries + 365 →
        (year + 1) % 4 = 0 ∧ ((year + 1) % 100 ≠ 0 ∨ (year + 1) % 400 = 0)) := by
  by_cases last : day = 146096
  · omega
  · have noLast : day / 146096 = 0 := by omega
    have century : centuries = day / 36524 := by omega
    -- A year of 365 days may be over before the quarter of its four years is.
    have quarter : fours = day / 1460 ∨ fours = day / 1460 - 1 := by omega
    refine ⟨by omega, by omega, ?_⟩
    rcases quarter with exact | early
    · refine ⟨by omega, by omega, fun lastDay => ?_⟩
      have last : year = 4 * fours + 3 := by omega
      have inside : year ≠ 100 * centuries + 99 := by omega
      omega
    · refine ⟨by omega, by omega, fun lastDay => ?_⟩
      have last : year = 4 * fours + 3 := by omega
      omega

/-- No month has more than 31 days. -/
theorem daysInMonth_le
    (year : Int)
    (month : Nat) :
    daysInMonth year month ≤ 31 := by
  unfold daysInMonth
  split
  · split <;> decide
  all_goals decide

/-- Division by a positive number rounds down. -/
theorem fdiv_eq
    (number divisor : Int)
    (positive : 0 ≤ divisor) :
    number.fdiv divisor = number / divisor :=
  Int.fdiv_eq_ediv_of_nonneg number positive

/-- The parts of a number of days: the era, the year and the day of this year, counted from March on,
and the month. -/
theorem exists_parts
    (days : Int) :
    ∃ era year day month : Int,
      days + 719468 = era * 146097 + (365 * year + year / 4 - year / 100 + day) ∧
        0 ≤ year ∧ year < 400 ∧ 0 ≤ day ∧ day ≤ 365 ∧
        (day = 365 → isLeapYear (year + era * 400 + 1) = true) ∧
        month = (5 * day + 2) / 153 ∧
        ofDays days =
          ⟨if month < 10 then year + era * 400 else year + era * 400 + 1,
            (if month < 10 then month + 3 else month - 9).toNat,
            (day - (153 * month + 2) / 5 + 1).toNat⟩ := by
  let era := (days + 719468).fdiv 146097
  let dayOfEra := days + 719468 - era * 146097
  let year := (dayOfEra - dayOfEra.fdiv 1460 + dayOfEra.fdiv 36524 - dayOfEra.fdiv 146096).fdiv 365
  let day := dayOfEra - (365 * year + year.fdiv 4 - year.fdiv 100)
  let month := (5 * day + 2).fdiv 153
  have eraEq : era = (days + 719468) / 146097 := fdiv_eq _ _ (by decide)
  have nonneg : 0 ≤ dayOfEra := by omega
  have bound : dayOfEra < 146097 := by omega
  have yearEq :
      year = (dayOfEra - dayOfEra / 1460 + dayOfEra / 36524 - dayOfEra / 146096) / 365 := by
    simp (disch := decide) only [year, fdiv_eq]
  have fours : year.fdiv 4 = year / 4 := fdiv_eq _ _ (by decide)
  have centuries : year.fdiv 100 = year / 100 := fdiv_eq _ _ (by decide)
  obtain ⟨yearNonneg, yearBound, starts, ends, leap⟩ :=
    yearOfEra_spec nonneg bound yearEq fours centuries
  have dayEq : day = dayOfEra - (365 * year + year.fdiv 4 - year.fdiv 100) := rfl
  have monthEq : month = (5 * day + 2) / 153 := fdiv_eq _ _ (by decide)
  have date : ofDays days =
      ⟨if (if month < 10 then month + 3 else month - 9) ≤ 2 then year + era * 400 + 1
          else year + era * 400,
        (if month < 10 then month + 3 else month - 9).toNat,
        (day - (153 * month + 2).fdiv 5 + 1).toNat⟩ := rfl
  have early : (if month < 10 then month + 3 else month - 9) ≤ 2 ↔ ¬month < 10 := by
    split <;> omega
  simp only [fdiv_eq _ 5 (by decide), early, ite_not] at date
  refine ⟨era, year, day, month, by omega, yearNonneg, yearBound, by omega, by omega,
    fun last => ?_, monthEq, date⟩
  have rule := leap (by omega)
  have divisible : (year + era * 400 + 1) % 4 = 0 := by omega
  have exception : (year + era * 400 + 1) % 100 ≠ 0 ∨ (year + era * 400 + 1) % 400 = 0 := by omega
  simpa [isLeapYear, divisible] using exception

/-- The date that lies a number of days after 1970-01-01 is one of the calendar. -/
theorem isValid_ofDays
    (days : Int) :
    (ofDays days).isValid = true := by
  obtain ⟨era, year, day, month, -, -, -, nonneg, bound, leap, monthEq, parts⟩ := exists_parts days
  rw [parts]
  by_cases february : month = 11
  · subst february
    have rule : (day - 337 + 1).toNat ≤ if isLeapYear (year + era * 400 + 1) then 29 else 28 := by
      split
      next => omega
      next short =>
        have notLast : day ≠ 365 := fun last => short (leap last)
        omega
    have first : 1 ≤ (day - 337 + 1).toNat := by omega
    simpa [isValid, daysInMonth] using And.intro first rule
  · have months : month = 0 ∨ month = 1 ∨ month = 2 ∨ month = 3 ∨ month = 4 ∨ month = 5 ∨
        month = 6 ∨ month = 7 ∨ month = 8 ∨ month = 9 ∨ month = 10 := by
      omega
    rcases months with rfl | rfl | rfl | rfl | rfl | rfl | rfl | rfl | rfl | rfl | rfl
    all_goals
      simp [isValid, daysInMonth]
      omega

/-- The date that lies a number of days after 1970-01-01 leads back to this number. -/
theorem toDays_ofDays
    (days : Int) :
    (ofDays days).toDays = days := by
  obtain ⟨era, year, day, month, total, yearNonneg, yearBound, nonneg, bound, -, monthEq, parts⟩ :=
    exists_parts days
  rw [parts]
  have dayNumber : ((day - (153 * month + 2) / 5 + 1).toNat : Int) =
      day - (153 * month + 2) / 5 + 1 := by omega
  simp (disch := decide) only [toDays, fdiv_eq, dayNumber]
  by_cases early : month < 10
  · have number : ((month + 3).toNat : Int) = month + 3 := by omega
    have late : ¬(month + 3).toNat ≤ 2 := by omega
    have sameEra : (year + era * 400) / 400 = era := by omega
    have sameYear : year + era * 400 - era * 400 = year := by omega
    have sameMonth : month + 3 - 3 = month := by omega
    simp only [early, if_true, late, if_false, number, sameEra, sameYear, sameMonth]
    omega
  · have number : ((month - 9).toNat : Int) = month - 9 := by omega
    have first : (month - 9).toNat ≤ 2 := by omega
    have sameEra : (year + era * 400 + 1 - 1) / 400 = era := by omega
    have sameYear : year + era * 400 + 1 - 1 - era * 400 = year := by omega
    have sameMonth : month - 9 + 9 = month := by omega
    simp only [early, first, if_true, if_false, number, sameEra, sameYear, sameMonth]
    omega

end Date

end LiveComponent
