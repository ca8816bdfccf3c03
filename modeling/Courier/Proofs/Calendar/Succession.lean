import Courier.Proofs.Calendar.DayNumber

set_option autoImplicit false

/-! # One day after the other

The calendar needs no arithmetic to be told: each day has one after it, and days can be counted from
1 January 1970 on, and back from there (`Date.Counted`). The number of a day is its count (`counted_iff`).
This rests on years that begin in March: the number of a day is that of the 1 March before it and the days
since then (`number_eq`), and each such year begins where the one before it ends (`marchStart_step`). So no
two days have one number (`number_injective`).
-/

namespace Courier

namespace Date

def next (d : Date) : Date :=
  if d.day < daysInMonth d.year d.month then ⟨d.year, d.month, d.day + 1⟩
  else if d.month < 12 then ⟨d.year, d.month + 1, 1⟩
  else ⟨d.year + 1, 1, 1⟩

/-- The count of a day: 1 January 1970 has 0, and a day has one less than the day after it. -/
inductive Counted : Date → Int → Prop where
  | epoch : Counted ⟨1970, 1, 1⟩ 0
  | after {d : Date} {n : Int} (counted : Counted d n) : Counted d.next (n + 1)
  | before {d : Date} {n : Int} (valid : d.Valid) (counted : Counted d.next (n + 1)) : Counted d n

theorem valid_next {d : Date} (h : d.Valid) : d.next.Valid := by
  obtain ⟨hmonth, hmonth', hday, hday'⟩ := h
  have first (year : Int) (month : Nat) : 1 ≤ daysInMonth year month :=
    Nat.le_trans (by decide) (daysInMonth_bounds year month).1
  unfold next
  split
  · next inMonth => exact ⟨hmonth, hmonth', by simp, inMonth⟩
  split
  · next inYear => exact ⟨by simp, inYear, by simp, first _ _⟩
  · exact ⟨by simp, by simp, by simp, first _ _⟩

/-! ## Years -/

def marchStart (year : Int) : Int := 365 * year + year / 4 - year / 100 + year / 400 - epochOffset

def newYear (year : Int) : Int := marchStart (year - 1) + 306

def daysInYear (year : Int) : Nat := if isLeap year then 366 else 365

theorem daysInYear_bounds (year : Int) : 365 ≤ daysInYear year ∧ daysInYear year ≤ 366 := by
  unfold daysInYear
  split <;> omega

theorem marchStart_eq_cycles (year : Int) :
    marchStart year = year / 400 * cycleDays + daysBeforeYear (year % 400).toNat - epochOffset := by
  unfold marchStart cycleDays daysBeforeYear
  omega

/-- From one 1 March to the next there are as many days as in the year of the second one. -/
theorem marchStart_step (year : Int) : marchStart year = marchStart (year - 1) + daysInYear year := by
  unfold marchStart daysInYear isLeap
  split
  · next leap =>
    simp only [Bool.and_eq_true, Bool.or_eq_true, beq_iff_eq, bne_iff_ne, ne_eq] at leap
    omega
  · next common =>
    simp only [Bool.and_eq_true, Bool.or_eq_true, beq_iff_eq, bne_iff_ne, ne_eq] at common
    omega

theorem marchStart_mono {year year' : Int} (h : year ≤ year') : marchStart year ≤ marchStart year' := by
  unfold marchStart
  omega

theorem newYear_mono {year year' : Int} (h : year ≤ year') : newYear year ≤ newYear year' :=
  Int.add_le_add_right (marchStart_mono (Int.sub_le_sub_right h 1)) 306

/-! ## Numbers -/

/-- The year that a day falls into, if a year begins in March. -/
def marchYear (d : Date) : Int := if d.month ≤ 2 then d.year - 1 else d.year

/-- The days of that year that are before the day. -/
def dayOfYear (d : Date) : Nat := daysBeforeMonth (marchMonth d.month) + (d.day - 1)

theorem number_eq (d : Date) : d.number = marchStart d.marchYear + d.dayOfYear := by
  rw [marchStart_eq_cycles]
  unfold number marchYear dayOfYear
  simp only
  omega

/-- The days before a month and those in it are before the next one. February ends the count from March. -/
theorem daysBeforeMonth_step {month : Nat} (least : 1 ≤ month) (most : month ≤ 12) (notFebruary : month ≠ 2)
    (year : Int) :
    daysBeforeMonth (marchMonth month + 1) = daysBeforeMonth (marchMonth month) + daysInMonth year month := by
  have months : month = 1 ∨ month = 3 ∨ month = 4 ∨ month = 5 ∨ month = 6 ∨ month = 7 ∨ month = 8 ∨
      month = 9 ∨ month = 10 ∨ month = 11 ∨ month = 12 := by omega
  rcases months with rfl | rfl | rfl | rfl | rfl | rfl | rfl | rfl | rfl | rfl | rfl <;> rfl

/-- The days of January and February are the last ones of a year that begins in March. -/
theorem dayOfYear_early {d : Date} (valid : d.Valid) (h : d.month ≤ 2) :
    306 ≤ d.dayOfYear ∧ d.dayOfYear < daysInYear d.year := by
  obtain ⟨hmonth, -, hday, hday'⟩ := valid
  have year := daysInYear_bounds d.year
  have month : d.month = 1 ∨ d.month = 2 := by omega
  unfold dayOfYear
  rcases month with january | february
  · rw [january] at hday' ⊢
    have hday' : d.day ≤ 31 := hday'
    show 306 ≤ 306 + (d.day - 1) ∧ 306 + (d.day - 1) < _
    omega
  · rw [february] at hday' ⊢
    have length : daysInYear d.year = daysInMonth d.year 2 + 337 := by
      show (if isLeap d.year then 366 else 365) = (if isLeap d.year then 29 else 28) + 337
      split <;> rfl
    show 306 ≤ 337 + (d.day - 1) ∧ 337 + (d.day - 1) < _
    omega

/-- The other days of the year come before them. -/
theorem dayOfYear_late {d : Date} (valid : d.Valid) (h : 2 < d.month) : d.dayOfYear < 306 := by
  obtain ⟨-, hmonth, -, hday⟩ := valid
  have := (daysInMonth_bounds d.year d.month).2
  unfold dayOfYear daysBeforeMonth marchMonth
  omega

/-- A year that begins in March has the days of the year that it ends in. -/
theorem dayOfYear_lt {d : Date} (valid : d.Valid) : d.dayOfYear < daysInYear (d.marchYear + 1) := by
  unfold marchYear
  split
  · next early =>
    rw [sub_add_cancel]
    exact (dayOfYear_early valid early).2
  · next late =>
    have bound := dayOfYear_late valid (Nat.not_le.1 late)
    have year := daysInYear_bounds (d.year + 1)
    omega

/-- No day of a year comes before its first one. -/
theorem newYear_le_number {d : Date} (valid : d.Valid) : newYear d.year ≤ d.number := by
  have step := marchStart_step d.year
  rw [number_eq]
  unfold newYear marchYear
  split
  · next early =>
    have bounds := dayOfYear_early valid early
    omega
  · have year := daysInYear_bounds d.year
    omega

/-- Every day of a year comes before the first one of the next year. -/
theorem number_lt_newYear {d : Date} (valid : d.Valid) : d.number < newYear (d.year + 1) := by
  have step := marchStart_step d.year
  rw [number_eq]
  unfold newYear marchYear
  rw [add_sub_cancel_right]
  split
  · next early =>
    have bounds := dayOfYear_early valid early
    omega
  · next late =>
    have bound := dayOfYear_late valid (Nat.not_le.1 late)
    omega

theorem marchMonth_eq {d : Date} (valid : d.Valid) : marchMonth d.month = (5 * d.dayOfYear + 2) / 153 := by
  obtain ⟨hmonth, hmonth', hday, hday'⟩ := valid
  unfold dayOfYear
  by_cases february : d.month = 2
  · rw [february] at hday' ⊢
    have leapDay : daysInMonth d.year 2 ≤ 29 := by
      show (if isLeap d.year then 29 else 28) ≤ 29
      split <;> omega
    show 11 = (5 * (337 + (d.day - 1)) + 2) / 153
    omega
  · have step := daysBeforeMonth_step hmonth hmonth' february d.year
    generalize marchMonth d.month = m at step ⊢
    unfold daysBeforeMonth at step ⊢
    omega

/-- The year that begins in March and the day in it tell the date. -/
theorem eq_of_dayOfYear {d d' : Date} (valid : d.Valid) (valid' : d'.Valid)
    (year : d.marchYear = d'.marchYear) (day : d.dayOfYear = d'.dayOfYear) : d = d' := by
  have march : marchMonth d.month = marchMonth d'.month := by
    rw [marchMonth_eq valid, day, marchMonth_eq valid']
  obtain ⟨y, m, k⟩ := d
  obtain ⟨y', m', k'⟩ := d'
  obtain ⟨hmonth, hmonth', hday, -⟩ := valid
  obtain ⟨hmonth₂, hmonth₂', hday₂, -⟩ := valid'
  unfold marchYear at year
  unfold dayOfYear at day
  simp only at *
  rw [march] at day
  have month : m = m' := by
    unfold marchMonth at march
    omega
  subst month
  rw [show k = k' by omega, show y = y' by split at year <;> omega]

theorem number_injective {d d' : Date} (valid : d.Valid) (valid' : d'.Valid)
    (same : d.number = d'.number) : d = d' := by
  -- A day of an earlier year has a smaller number.
  have earlier {a b : Date} (ha : a.Valid) (h : a.marchYear < b.marchYear) : a.number < b.number := by
    have step := marchStart_step (a.marchYear + 1)
    rw [add_sub_cancel_right] at step
    have day := dayOfYear_lt ha
    have later := marchStart_mono (show a.marchYear + 1 ≤ b.marchYear by omega)
    rw [number_eq, number_eq]
    omega
  have year : d.marchYear = d'.marchYear := by
    rcases Int.lt_trichotomy d.marchYear d'.marchYear with less | equal | greater
    · exact absurd same (Int.ne_of_lt (earlier valid less))
    · exact equal
    · exact absurd same.symm (Int.ne_of_lt (earlier valid' greater))
  rw [number_eq, number_eq, year] at same
  exact eq_of_dayOfYear valid valid' year (by omega)

theorem ofNumber_number {d : Date} (valid : d.Valid) : ofNumber d.number = d :=
  number_injective (valid_ofNumber _) valid (number_ofNumber _)

/-! ## Counting -/

theorem number_next {d : Date} (valid : d.Valid) : d.next.number = d.number + 1 := by
  obtain ⟨hmonth, hmonth', hday, hday'⟩ := valid
  rw [number_eq, number_eq]
  by_cases inMonth : d.day < daysInMonth d.year d.month
  · unfold next marchYear dayOfYear
    rw [if_pos inMonth]
    simp only
    omega
  have last : d.day = daysInMonth d.year d.month := Nat.le_antisymm hday' (Nat.not_lt.1 inMonth)
  by_cases february : d.month = 2
  · -- The last day of February ends the year that has begun in March.
    have first : d.next = ⟨d.year, 3, 1⟩ := by
      unfold next
      rw [if_neg inMonth, february]
      rfl
    have firstYear : d.next.marchYear = d.year := by
      rw [first]
      rfl
    have firstDay : d.next.dayOfYear = 0 := by
      rw [first]
      simp [dayOfYear, marchMonth, daysBeforeMonth]
    have year : d.marchYear = d.year - 1 := if_pos (Nat.le_of_eq february)
    have day : d.dayOfYear + 1 = daysInYear d.year := by
      unfold dayOfYear
      rw [last, february]
      show 337 + ((if isLeap d.year then 29 else 28) - 1) + 1 = if isLeap d.year then 366 else 365
      split <;> rfl
    have step := marchStart_step d.year
    rw [firstYear, firstDay, year, step]
    omega
  · have year : d.next.marchYear = d.marchYear := by
      unfold next marchYear
      rw [if_neg inMonth]
      split <;> simp only <;> omega
    have day : d.next.dayOfYear = d.dayOfYear + 1 := by
      have step := daysBeforeMonth_step hmonth hmonth' february d.year
      have length := (daysInMonth_bounds d.year d.month).1
      have month : marchMonth d.next.month = marchMonth d.month + 1 := by
        unfold next marchMonth
        rw [if_neg inMonth]
        split <;> simp only <;> omega
      have first : d.next.day = 1 := by
        unfold next
        rw [if_neg inMonth]
        split <;> rfl
      unfold dayOfYear
      rw [month, first, step, last]
      omega
    rw [year, day]
    omega

theorem ofNumber_next (n : Int) : (ofNumber n).next = ofNumber (n + 1) := by
  refine number_injective (valid_next (valid_ofNumber n)) (valid_ofNumber _) ?_
  rw [number_next (valid_ofNumber n), number_ofNumber, number_ofNumber]

/-- The count of a day is its number, and only the days of the calendar have one. -/
theorem counted_iff {d : Date} {n : Int} : Counted d n ↔ d.Valid ∧ d.number = n := by
  constructor
  · intro counted
    induction counted with
    | epoch => decide
    | after _ ih => exact ⟨valid_next ih.1, by rw [number_next ih.1, ih.2]⟩
    | before valid _ ih =>
      have number := number_next valid
      exact ⟨valid, by omega⟩
  · rintro ⟨valid, rfl⟩
    have all (n : Int) : Counted (ofNumber n) n := by
      induction n using Int.induction_on with
      | zero => exact .epoch
      | succ n ih =>
        rw [← ofNumber_next]
        exact .after ih
      | pred n ih =>
        refine .before (valid_ofNumber _) ?_
        rw [ofNumber_next, sub_add_cancel]
        exact ih
    have counted := all d.number
    rwa [ofNumber_number valid] at counted

/-! ## The years of the instants -/

/-- The days from the year -262143 to the year 262142 have the numbers between those of its ends. -/
theorem number_range_iff {d : Date} (valid : d.Valid) :
    -96465292 ≤ d.number ∧ d.number ≤ 95026236 ↔ -262143 ≤ d.year ∧ d.year ≤ 262142 := by
  have first : newYear (-262143) = -96465292 := by decide
  have last : newYear 262143 = 95026237 := by decide
  have low := newYear_le_number valid
  have high := number_lt_newYear valid
  constructor
  · intro range
    constructor
    · by_contra early
      have := newYear_mono (show d.year + 1 ≤ -262143 by omega)
      omega
    · by_contra late
      have := newYear_mono (show 262143 ≤ d.year by omega)
      omega
  · intro years
    have low' := newYear_mono years.1
    have high' := newYear_mono (show d.year + 1 ≤ 262143 by omega)
    omega

end Date

end Courier
