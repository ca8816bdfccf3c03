import Courier.Calendar.Instant
import Mathlib.Algebra.Ring.Int.Defs
import Mathlib.Tactic.Set

set_option autoImplicit false

/-! # Days and their numbers

`Date.ofNumber` undoes `Date.number`: the date of a number is one of the calendar (`valid_ofNumber`) and
has that number (`number_ofNumber`). Both rest on how a day of a cycle of 400 years splits into whole
centuries, whole groups of four years, whole years and a day of the year (`splits_yearOfDay`).
-/

namespace Courier

namespace Date

theorem daysInMonth_bounds (year : Int) (month : Nat) :
    28 ≤ daysInMonth year month ∧ daysInMonth year month ≤ 31 := by
  unfold daysInMonth
  split
  · split <;> omega
  · split <;> omega

/-! ## A day of a cycle -/

/-- Day `n` of a cycle is day `e` of year `k` of group `f` of century `c`, all counted from zero. Only a
year that ends in a leap day has a day 365: the last one of its group, unless that is the last group of a
century that is not the last. -/
structure Splits (n c f k e : Nat) : Prop where
  century : c ≤ 3
  group : f ≤ 24
  year : k ≤ 3
  day : e ≤ 365
  leap : e = 365 → k = 3 ∧ (f = 24 → c = 3)
  sum : n = 36524 * c + 1461 * f + 365 * k + e

theorem splits_yearOfDay {n : Nat} (h : n < cycleDays) :
    ∃ c f k e, Splits n c f k e ∧ yearOfDay n = 100 * c + 4 * f + k := by
  have hn : n < 146097 := h
  -- The quotients are cut off at 3, since the last part of a whole is longer by its leap day.
  set c := min (n / 36524) 3 with hc
  set d := n - c * 36524 with hd
  set k := min (d % 1461 / 365) 3 with hk
  refine ⟨c, d / 1461, k, d % 1461 - 365 * k, ?_, ?_⟩
  · refine ⟨?_, ?_, ?_, ?_, ?_, ?_⟩ <;> omega
  · show 100 * c + 4 * (d / 1461) + k = _
    rfl

theorem daysBeforeYear_split {c f k : Nat} (hf : f ≤ 24) (hk : k ≤ 3) :
    daysBeforeYear (100 * c + 4 * f + k) = 36524 * c + 1461 * f + 365 * k := by
  unfold daysBeforeYear
  omega

/-- The year that comes after the one with parts `c`, `f` and `k` is a leap year, if the day 365 of that one
is there. -/
theorem isLeap_next {n c f k e : Nat} (h : Splits n c f k e) (he : e = 365) (cycle : Int) :
    isLeap (cycle * 400 + (100 * c + 4 * f + k : Nat) + 1) = true := by
  obtain ⟨hk, hf⟩ := h.leap he
  have hc := h.century
  have hg := h.group
  -- The next year begins a group of four, and it begins a century only if it begins a cycle, too.
  unfold isLeap
  simp only [Bool.and_eq_true, Bool.or_eq_true, beq_iff_eq, bne_iff_ne, ne_eq]
  omega

/-! ## Dates and numbers -/

/-- What the date of a number is made of: the cycle, the parts of the year in it, the day `e` of the year,
and the month `m` counted from March. -/
theorem ofNumber_parts (n : Int) :
    ∃ cycle : Int, ∃ c f k e : Nat, Splits ((n + epochOffset) % cycleDays).toNat c f k e ∧
      n + epochOffset = cycle * cycleDays + (36524 * c + 1461 * f + 365 * k + e : Nat) ∧
      ofNumber n =
        if (5 * e + 2) / 153 < 10 then
          ⟨cycle * 400 + (100 * c + 4 * f + k : Nat), (5 * e + 2) / 153 + 3,
            e - daysBeforeMonth ((5 * e + 2) / 153) + 1⟩
        else
          ⟨cycle * 400 + (100 * c + 4 * f + k : Nat) + 1, (5 * e + 2) / 153 - 9,
            e - daysBeforeMonth ((5 * e + 2) / 153) + 1⟩ := by
  have bound : ((n + epochOffset) % cycleDays).toNat < cycleDays := by
    unfold cycleDays
    omega
  obtain ⟨c, f, k, e, splits, hyear⟩ := splits_yearOfDay bound
  refine ⟨(n + epochOffset) / cycleDays, c, f, k, e, splits, ?_, ?_⟩
  · rw [← splits.sum]
    unfold cycleDays
    omega
  · have hday : ((n + epochOffset) % cycleDays).toNat - daysBeforeYear (100 * c + 4 * f + k) = e := by
      rw [daysBeforeYear_split splits.group splits.year, splits.sum]
      omega
    have he := splits.day
    unfold ofNumber
    simp only [hyear, hday]
    -- The first ten months from March on are in the year itself, and two in the one after it.
    by_cases hm : (5 * e + 2) / 153 < 10
    · rw [if_pos hm, if_pos hm, if_neg (by omega)]
    · rw [if_neg hm, if_neg hm, if_pos (by omega)]

theorem valid_ofNumber (n : Int) : (ofNumber n).Valid := by
  obtain ⟨cycle, c, f, k, e, splits, -, hdate⟩ := ofNumber_parts n
  have he := splits.day
  have hm : (5 * e + 2) / 153 ≤ 11 := by omega
  rw [hdate]
  by_cases early : (5 * e + 2) / 153 < 10
  · rw [if_pos early]
    generalize hm' : (5 * e + 2) / 153 = m at early
    -- Five months in a row have 153 days, so the number of the month bounds the day in it.
    refine ⟨by simp, by simp; omega, by simp, ?_⟩
    show e - (153 * m + 2) / 5 + 1 ≤ daysInMonth _ (m + 3)
    unfold daysInMonth
    split
    · omega
    · split <;> omega
  · rw [if_neg early]
    -- January and February are the last months of the year that began in March.
    have hm' : (5 * e + 2) / 153 = 10 ∨ (5 * e + 2) / 153 = 11 := by omega
    rcases hm' with january | february
    · rw [january]
      refine ⟨by simp, by simp, by simp, ?_⟩
      show e - 306 + 1 ≤ 31
      omega
    · rw [february]
      refine ⟨by simp, by simp, by simp, ?_⟩
      show e - 337 + 1 ≤ if isLeap _ then 29 else 28
      by_cases last : e = 365
      · rw [if_pos (isLeap_next splits last cycle)]
        omega
      · split <;> omega

theorem number_ofNumber (n : Int) : (ofNumber n).number = n := by
  obtain ⟨cycle, c, f, k, e, splits, hsum, hdate⟩ := ofNumber_parts n
  have he := splits.day
  have hc := splits.century
  have hg := splits.group
  have hk := splits.year
  have hm : (5 * e + 2) / 153 ≤ 11 := by omega
  have hyear : ((cycle * 400 + (100 * c + 4 * f + k : Nat)) % 400).toNat = 100 * c + 4 * f + k := by
    omega
  have hcycle : (cycle * 400 + (100 * c + 4 * f + k : Nat)) / 400 = cycle := by omega
  have hdays := daysBeforeYear_split (c := c) hg hk
  -- In both halves of the year, `number` finds the parts that the date was made of.
  rw [hdate]
  by_cases early : (5 * e + 2) / 153 < 10
  · rw [if_pos early]
    generalize hm' : (5 * e + 2) / 153 = m at early
    have hmonth : marchMonth (m + 3) = m := by
      unfold marchMonth
      omega
    have hday : daysBeforeMonth m + (e - daysBeforeMonth m + 1 - 1) = e := by
      unfold daysBeforeMonth
      omega
    unfold number
    simp only [if_neg (show ¬m + 3 ≤ 2 by omega), hyear, hcycle, hdays, hmonth]
    omega
  · rw [if_neg early]
    generalize hm' : (5 * e + 2) / 153 = m at early
    have hmonth : marchMonth (m - 9) = m := by
      unfold marchMonth
      omega
    have hday : daysBeforeMonth m + (e - daysBeforeMonth m + 1 - 1) = e := by
      unfold daysBeforeMonth
      omega
    unfold number
    simp only [if_pos (show m - 9 ≤ 2 by omega), add_sub_cancel_right, hyear, hcycle, hdays, hmonth]
    omega

/-- The year of a date lies as far from 1970 as its number allows. -/
theorem year_ofNumber_bounds {n : Int} (h : -10 ^ 8 ≤ n ∧ n ≤ 10 ^ 8) :
    -0x80000000 ≤ (ofNumber n).year ∧ (ofNumber n).year < 0x80000000 := by
  obtain ⟨cycle, c, f, k, e, splits, hsum, hdate⟩ := ofNumber_parts n
  have hc := splits.century
  have hg := splits.group
  have hk := splits.year
  have he := splits.day
  unfold cycleDays epochOffset at hsum
  rw [hdate]
  split <;> constructor <;> simp only <;> omega

end Date

namespace Instant

theorem date_valid (t : Instant) : t.date.Valid := Date.valid_ofNumber _

theorem date_year_bounds (t : Instant) : -0x80000000 ≤ t.date.year ∧ t.date.year < 0x80000000 := by
  have h := t.inRange
  exact Date.year_ofNumber_bounds (by omega)

/-- No part of a second is as long as two. -/
theorem carry_le (t : Instant) : t.nano / nanosPerSecond ≤ 1 :=
  Nat.le_of_lt_succ (Nat.div_lt_of_lt_mul (Nat.lt_of_lt_of_eq t.nano_lt (Nat.mul_comm _ _)))

theorem clock_bounds (t : Instant) :
    t.clock.hour ≤ 23 ∧ t.clock.minute ≤ 59 ∧ t.clock.second ≤ 60 := by
  have := t.carry_le
  unfold clock
  refine ⟨?_, ?_, ?_⟩ <;> simp only <;> omega

theorem of?_self (t : Instant) : of? t.second t.nano = some t := by
  unfold of?
  rw [dif_pos ⟨t.inRange, t.nano_lt⟩]

/-- A part within the second shows on no clock. -/
theorem carry_of_lt {t : Instant} (within : ¬nanosPerSecond ≤ t.nano) : t.nano / nanosPerSecond = 0 :=
  Nat.div_eq_of_lt (Nat.not_le.1 within)

theorem carry_of_le {t : Instant} (beyond : nanosPerSecond ≤ t.nano) : t.nano / nanosPerSecond = 1 :=
  Nat.le_antisymm t.carry_le ((Nat.le_div_iff_mul_le (by decide)).2 (by rw [Nat.one_mul]; exact beyond))

/-- Date and time of day give the start of the second that clocks show. -/
theorem ofParts?_parts (t : Instant) : ofParts? t.date t.clock = some t.wholeSecond := by
  have hnumber : t.date.number = t.second / 86400 := Date.number_ofNumber _
  rw [← of?_self t.wholeSecond]
  unfold ofParts? wholeSecond
  by_cases beyond : nanosPerSecond ≤ t.nano
  · have carry := carry_of_le beyond
    by_cases last : t.second % 60 = 59
    · -- The leap second is told as the 61st, after the 59th of those that have a number.
      have leap : t.isLeap = true := isLeap_iff.2 ⟨beyond, last⟩
      have stays : ¬t.runsOver = true := fun runs => (runsOver_iff.1 runs).2 last
      have told : t.clock.second = 60 := by
        simp only [clock, carry]
        omega
      rw [if_pos told, dif_neg stays]
      simp only [cut, leap, if_true, hnumber, clock]
      congr 1
      omega
    · -- Elsewhere the second that follows is told, which is of the same minute.
      have runs : t.runsOver = true := runsOver_iff.2 ⟨beyond, last⟩
      have told : t.clock.second ≠ 60 := by
        simp only [clock, carry]
        omega
      rw [if_neg told, dif_pos runs]
      simp only [hnumber, clock, carry]
      congr 1
      omega
  · have common : ¬t.isLeap = true := fun leap => beyond (isLeap_iff.1 leap).1
    have stays : ¬t.runsOver = true := fun runs => beyond (runsOver_iff.1 runs).1
    have carry := carry_of_lt beyond
    have told : t.clock.second ≠ 60 := by
      simp only [clock, carry]
      omega
    rw [if_neg told, dif_neg stays]
    simp only [cut, if_neg common, hnumber, clock, carry]
    congr 1
    omega

end Instant

end Courier
