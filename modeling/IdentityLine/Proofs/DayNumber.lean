import IdentityLine.Calendar

/-!
# A date is the date of its day

`dateOf` goes down the cycles of the calendar and walks through the months;
`dayNumber` is a closed formula. That they agree is shown in the two halves in
which the date is found.

For the year, the day of a cycle is divided by the lengths of a century, of four
years and of a year, and the quotients are the digits of the year before. The
last century of a cycle, and the last year of four, may be a day longer than its
length says; `min` holds the quotient back there, and the day that is left over
is the last day of a leap year. For the month, the walk stops before it has
passed all the days of the year, so it stops inside a month.

What a day number is does not rest on the formula alone: `dayNumber_tomorrow`
says that it counts the days of the calendar one by one.
-/

namespace IdentityLine.Calendar

/-! ## The year of a day -/

theorem isLeap_eq_true {year : Int} :
    isLeap year = true ↔ year % 4 = 0 ∧ (year % 100 ≠ 0 ∨ year % 400 = 0) := by
  simp only [isLeap, Bool.and_eq_true, Bool.or_eq_true, decide_eq_true_eq]

/-- The number of days in a year. -/
def yearLength (year : Int) : Nat :=
  if isLeap year then 366 else 365

theorem daysOf_year (year : Int) : daysOf 12 (monthLengths (isLeap year)) = yearLength year := by
  rw [yearLength]
  cases isLeap year
  · rfl
  · rfl

/-- The quotients of a day: how many cycles, centuries, four-year spans and years have passed, and
how many days of the year. The day that a leap year has more comes at the end of four years, and it
ends a century only where the century ends a cycle. -/
theorem yearAndDay_eq (n : Int) :
    ∃ (cycle : Int) (century olympiad year day : Nat),
      yearAndDay n = (cycle * 400 + century * 100 + olympiad * 4 + year + 1, day)
      ∧ n + 719162 = cycle * 146097 + century * 36524 + olympiad * 1461 + year * 365 + day
      ∧ century ≤ 3 ∧ olympiad ≤ 24 ∧ year ≤ 3 ∧ day ≤ 365
      ∧ (day = 365 → year = 3 ∧ (olympiad = 24 → century = 3)) := by
  refine ⟨_, _, _, _, _, rfl, ?_, ?_, ?_, ?_, ?_, ?_⟩
  all_goals omega

/-- The first day of a year, by the digits of the year before. -/
theorem yearStart_eq {cycle : Int} {century olympiad year : Nat} (hcentury : century ≤ 3)
    (holympiad : olympiad ≤ 24) (hyear : year ≤ 3) :
    yearStart (cycle * 400 + century * 100 + olympiad * 4 + year + 1) =
      cycle * 146097 + century * 36524 + olympiad * 1461 + year * 365 - 719162 := by
  have h4 : (cycle * 400 + century * 100 + olympiad * 4 + year + 1 - 1) / 4
      = cycle * 100 + century * 25 + olympiad := by omega
  have h100 : (cycle * 400 + century * 100 + olympiad * 4 + year + 1 - 1) / 100
      = cycle * 4 + century := by omega
  have h400 : (cycle * 400 + century * 100 + olympiad * 4 + year + 1 - 1) / 400 = cycle := by omega
  rw [yearStart, h4, h100, h400]
  omega

theorem yearStart_yearAndDay (n : Int) :
    yearStart (yearAndDay n).1 + (yearAndDay n).2 = n := by
  obtain ⟨cycle, century, olympiad, year, day, heq, hn, hcentury, holympiad, hyear, -, -⟩ :=
    yearAndDay_eq n
  rw [heq, yearStart_eq hcentury holympiad hyear]
  omega

theorem yearAndDay_lt (n : Int) : (yearAndDay n).2 < yearLength (yearAndDay n).1 := by
  obtain ⟨cycle, century, olympiad, year, day, heq, -, hcentury, holympiad, hyear, hday, hlast⟩ :=
    yearAndDay_eq n
  rw [heq, yearLength]
  split
  · omega
  · next hleap =>
      rw [isLeap_eq_true] at hleap
      simp only [] at hleap ⊢
      omega

/-! ## The month of a day -/

/-- The walk stops inside a month, with as many days behind it as the months before have. -/
theorem monthAndDay_eq (month : Nat) {day months : Nat} {lengths : List Nat}
    (h : day < daysOf months lengths) :
    ∃ passed length,
      (monthAndDay month day lengths).1 = month + passed ∧ lengths[passed]? = some length
      ∧ 1 ≤ (monthAndDay month day lengths).2 ∧ (monthAndDay month day lengths).2 ≤ length
      ∧ daysOf passed lengths + (monthAndDay month day lengths).2 = day + 1 := by
  induction lengths generalizing month day months with
  | nil => cases months <;> exact absurd h (Nat.not_lt_zero day)
  | cons length rest ih =>
      obtain _ | months := months
      · exact absurd h (Nat.not_lt_zero day)
      rw [monthAndDay]
      split
      · next hlt => exact ⟨0, length, rfl, rfl, Nat.le_add_left 1 day, hlt, Nat.zero_add _⟩
      · next hge =>
          rw [daysOf] at h
          obtain ⟨passed, len, hmonth, hlen, hone, hle, hdays⟩ :=
            ih (month + 1) (show day - length < daysOf months rest by omega)
          refine ⟨passed + 1, len, by omega, hlen, hone, hle, ?_⟩
          rw [daysOf]
          omega

/-! ## The date of a day -/

theorem dateOf_of_yearAndDay {n year : Int} {day : Nat} (h : yearAndDay n = (year, day)) :
    dateOf n = {
      year
      month := (monthAndDay 1 day (monthLengths (isLeap year))).1
      day := (monthAndDay 1 day (monthLengths (isLeap year))).2 } := by
  rw [dateOf, h]

/-- The date of a day is a date of the calendar, and it is the date of that day. -/
theorem dateOf_spec (n : Int) : (dateOf n).Exists ∧ dayNumber (dateOf n) = n := by
  have hyear := yearStart_yearAndDay n
  have hlt := yearAndDay_lt n
  rcases hpair : yearAndDay n with ⟨year, day⟩
  simp only [hpair, ← daysOf_year] at hyear hlt
  obtain ⟨passed, length, hmonth, hlen, hone, hle, hdays⟩ := monthAndDay_eq 1 hlt
  have hpassed : (monthAndDay 1 day (monthLengths (isLeap year))).1 - 1 = passed := by omega
  rw [dateOf_of_yearAndDay hpair]
  refine ⟨⟨by simp only []; omega, hone, length, ?_, hle⟩, ?_⟩
  · simp only [hpassed, hlen]
  · simp only [dayNumber, hpassed] at hdays ⊢
    omega

/-! ## Day numbers count days -/

/-- The date after a date. -/
def Date.tomorrow (d : Date) : Date :=
  if (monthLengths (isLeap d.year))[d.month - 1]? = some d.day then
    if d.month = 12 then { year := d.year + 1, month := 1, day := 1 }
    else { d with month := d.month + 1, day := 1 }
  else { d with day := d.day + 1 }

theorem daysOf_succ {lengths : List Nat} {passed length : Nat}
    (h : lengths[passed]? = some length) :
    daysOf (passed + 1) lengths = daysOf passed lengths + length := by
  induction lengths generalizing passed with
  | nil => cases h
  | cons first rest ih =>
      cases passed with
      | zero =>
          cases h
          simp only [daysOf, Nat.add_zero, Nat.zero_add]
      | succ passed =>
          rw [daysOf, ih h, daysOf, Nat.add_assoc]

theorem yearStart_succ (year : Int) : yearStart (year + 1) = yearStart year + yearLength year := by
  rw [yearLength, yearStart, yearStart]
  split
  · next hleap =>
      rw [isLeap_eq_true] at hleap
      omega
  · next hleap =>
      rw [isLeap_eq_true] at hleap
      omega

/-- The day after a date has the next number, across the ends of months and years too. -/
theorem dayNumber_tomorrow {d : Date} (h : d.Exists) : dayNumber d.tomorrow = dayNumber d + 1 := by
  obtain ⟨year, month, day⟩ := d
  obtain ⟨hmonth, hday, length, hlen, hle⟩ := h
  simp only [] at hmonth hday hlen hle
  simp only [Date.tomorrow]
  split
  · next hlast =>
      obtain rfl : length = day := Option.some.inj (hlen.symm.trans hlast)
      have hdays := daysOf_succ hlen
      rw [Nat.sub_add_cancel hmonth] at hdays
      split
      · next hdecember =>
          rw [hdecember, daysOf_year] at hdays
          have hnone : daysOf (1 - 1) (monthLengths (isLeap (year + 1))) = 0 := rfl
          simp only [dayNumber, yearStart_succ, hdecember, hnone]
          omega
      · next hother =>
          simp only [dayNumber, Nat.add_sub_cancel, hdays]
          omega
  · next hinside =>
      simp only [dayNumber]
      omega

example : dayNumber ⟨1970, 1, 1⟩ = 0 := by decide

end IdentityLine.Calendar
