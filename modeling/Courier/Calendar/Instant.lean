import Courier.Calendar.Date

set_option autoImplicit false

/-! # Instants

An instant is a second of universal time, counted from the start of 1970, and a part in nanoseconds. A part
of less than `10^9` lies within the second. A leap second has no number of its own: it is the part from `10^9`
on of the last second of a minute. Such a part is no less an instant in any other second, but clocks know no
leap second there and show the second that follows. Instants are held for the years from -262143 to 262142.
-/

namespace Courier

def nanosPerSecond : Nat := 1000000000

@[ext]
structure Instant where
  second : Int
  nano : Nat
  inRange : -8334601228800 ≤ second ∧ second ≤ 8210266876799
  nano_lt : nano < 2 * nanosPerSecond
deriving Repr, DecidableEq

/-- A time of day; the 61st second of a minute is a leap second. -/
structure Clock where
  hour : Nat
  minute : Nat
  second : Nat
deriving Repr, DecidableEq

namespace Instant

def of? (second : Int) (nano : Nat) : Option Instant :=
  if h : (-8334601228800 ≤ second ∧ second ≤ 8210266876799) ∧ nano < 2 * nanosPerSecond then
    some ⟨second, nano, h.1, h.2⟩
  else none

def date (t : Instant) : Date := .ofNumber (t.second / 86400)

/-- The time of day in universal time, as clocks show it. -/
def clock (t : Instant) : Clock :=
  let s := (t.second % 86400).toNat
  ⟨s / 3600, s / 60 % 60, s % 60 + t.nano / nanosPerSecond⟩

/-- The start of a second given by date and time of day; a leap second is part of the one before it. -/
def ofParts? (date : Date) (clock : Clock) : Option Instant :=
  let start := date.number * 86400 + clock.hour * 3600 + clock.minute * 60
  if clock.second = 60 then of? (start + 59) nanosPerSecond else of? (start + clock.second) 0

/-! ## Whole seconds -/

def isLeap (t : Instant) : Bool := nanosPerSecond ≤ t.nano && t.second % 60 == 59

/-- The part goes beyond the second, which is not the last of its minute. -/
def runsOver (t : Instant) : Bool := nanosPerSecond ≤ t.nano && t.second % 60 != 59

theorem isLeap_iff {t : Instant} : t.isLeap = true ↔ nanosPerSecond ≤ t.nano ∧ t.second % 60 = 59 := by
  simp only [isLeap, Bool.and_eq_true, decide_eq_true_eq, beq_iff_eq]

theorem runsOver_iff {t : Instant} : t.runsOver = true ↔ nanosPerSecond ≤ t.nano ∧ t.second % 60 ≠ 59 := by
  simp only [runsOver, Bool.and_eq_true, decide_eq_true_eq, bne_iff_ne]

/-- The instant without the part of its second; a leap second stays one. -/
def cut (t : Instant) : Instant where
  second := t.second
  nano := if t.isLeap then nanosPerSecond else 0
  inRange := t.inRange
  nano_lt := by split <;> decide

/-- The start of the second that clocks show at the instant. -/
def wholeSecond (t : Instant) : Instant :=
  if runs : t.runsOver = true then
    { second := t.second + 1
      nano := 0
      inRange := by
        -- The last second there is ends a minute.
        have := t.inRange
        have := (runsOver_iff.1 runs).2
        omega
      nano_lt := by decide }
  else t.cut

end Instant

/-- An instant as it is held at a place whose clocks are `offset` seconds ahead of universal time: `second`
counts the seconds on these clocks, from the start of 1970 there. -/
structure Zoned where
  second : Int
  nano : Nat
  offset : Int
  offset_lt : -86400 < offset ∧ offset < 86400
  inRange : -8334601228800 ≤ second - offset ∧ second - offset ≤ 8210266876799
  nano_lt : nano < 2 * nanosPerSecond
deriving Repr, DecidableEq

namespace Zoned

/-- The instant held with the given count of local seconds, part of a second and offset, if there is one. -/
def of? (second : Int) (nano : Nat) (offset : Int) : Option Zoned :=
  if h : (-86400 < offset ∧ offset < 86400) ∧
      (-8334601228800 ≤ second - offset ∧ second - offset ≤ 8210266876799) ∧ nano < 2 * nanosPerSecond then
    some ⟨second, nano, offset, h.1, h.2.1, h.2.2⟩
  else none

/-- The instant in universal time. -/
def instant (z : Zoned) : Instant := ⟨z.second - z.offset, z.nano, z.inRange, z.nano_lt⟩

end Zoned

end Courier
