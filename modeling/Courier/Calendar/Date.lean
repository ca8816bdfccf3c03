set_option autoImplicit false

/-! # Dates of the Gregorian calendar

The calendar is carried on before its introduction and before the year 1 (which follows the year 0).
Days are counted from 1 January 1970. For counting, a year starts in March, so that the leap day is its
last one, and years are grouped into cycles of 400, which all have the same number of days.
-/

namespace Courier

structure Date where
  year : Int
  month : Nat
  day : Nat
deriving Repr, DecidableEq

namespace Date

/-- Every fourth year is a leap year, but of the full centuries only every fourth one. -/
def isLeap (year : Int) : Bool := year % 4 == 0 && (year % 100 != 0 || year % 400 == 0)

def daysInMonth (year : Int) (month : Nat) : Nat :=
  if month = 2 then if isLeap year then 29 else 28
  else if month = 4 ∨ month = 6 ∨ month = 9 ∨ month = 11 then 30
  else 31

def Valid (d : Date) : Prop :=
  1 ≤ d.month ∧ d.month ≤ 12 ∧ 1 ≤ d.day ∧ d.day ≤ daysInMonth d.year d.month

instance (d : Date) : Decidable d.Valid := by unfold Valid; infer_instance

/-! ## Counting days -/

/-- The days of a cycle of 400 years. -/
def cycleDays : Nat := 146097

/-- The days from 1 March of the year 0 to 1 January 1970. -/
def epochOffset : Nat := 719468

def marchMonth (month : Nat) : Nat := (month + 9) % 12

/-- The days of a year, from March on, that are before the given month, counted from March. -/
def daysBeforeMonth (marchMonth : Nat) : Nat := (153 * marchMonth + 2) / 5

/-- The days of a cycle that are before the given one of its years. -/
def daysBeforeYear (yearOfCycle : Nat) : Nat :=
  365 * yearOfCycle + yearOfCycle / 4 - yearOfCycle / 100

/-- The number of a day; 1 January 1970 is 0. -/
def number (d : Date) : Int :=
  let year := if d.month ≤ 2 then d.year - 1 else d.year
  let dayOfCycle :=
    daysBeforeYear (year % 400).toNat + daysBeforeMonth (marchMonth d.month) + (d.day - 1)
  year / 400 * cycleDays + dayOfCycle - epochOffset

/-- The year of a cycle, counted from 0, that a day of the cycle falls into. The last day of the last
century and the last day of each fourth year belong to the years that they end. -/
def yearOfDay (dayOfCycle : Nat) : Nat :=
  let century := min (dayOfCycle / 36524) 3
  let dayOfCentury := dayOfCycle - century * 36524
  let four := dayOfCentury / 1461
  let dayOfFour := dayOfCentury % 1461
  100 * century + 4 * four + min (dayOfFour / 365) 3

/-- The date with a given number. -/
def ofNumber (n : Int) : Date :=
  let shifted := n + epochOffset
  let dayOfCycle := (shifted % cycleDays).toNat
  let yearOfCycle := yearOfDay dayOfCycle
  let dayOfYear := dayOfCycle - daysBeforeYear yearOfCycle
  let monthFromMarch := (5 * dayOfYear + 2) / 153
  let day := dayOfYear - daysBeforeMonth monthFromMarch + 1
  let month := if monthFromMarch < 10 then monthFromMarch + 3 else monthFromMarch - 9
  let year := shifted / cycleDays * 400 + yearOfCycle
  ⟨if month ≤ 2 then year + 1 else year, month, day⟩

example : number ⟨1970, 1, 1⟩ = 0 ∧ ofNumber 11016 = ⟨2000, 2, 29⟩ := by decide

end Date

end Courier
