import Courier.Calendar.DateText

set_option autoImplicit false

/-! # The text of an instant at a place

Such a text gives date and time as they are told at the place, perhaps with a fraction of the second, and
the offset of the place: `2011-06-15T12:30:00.5+02:00`. Every number is padded, and digits of the fraction
beyond the ninth are passed over. Written again, only the instant counts.
-/

namespace Courier.ZonedText

/-- Reads a number of exactly `count` digits between bounds. -/
def number (count least most : Nat) (s : List Char) : Option (Nat × List Char) :=
  let ds := s.take count
  if ds.length = count ∧ ds.all Char.isDigit then
    let n := Decimal.value ds
    if least ≤ n ∧ n ≤ most then some (n, s.drop count) else none
  else none

def oneOf (marks : List Char) : List Char → Option (List Char)
  | [] => none
  | c :: rest => if marks.contains c then some rest else none

/-- Reads a fraction of a second, if there is one, in nanoseconds. -/
def fraction (s : List Char) : Option (Nat × List Char) :=
  match oneOf ['.'] s with
  | none => some (0, s)
  | some rest =>
    let (ds, rest) := rest.span Char.isDigit
    if ds.isEmpty then none
    else
      let ds := ds.take 9
      some (Decimal.value ds * Nat.pow 10 (9 - ds.length), rest)

/-- Reads an offset in seconds, positive ahead of universal time. -/
def offset (s : List Char) : Option (Int × List Char) :=
  match oneOf ['Z', 'z'] s with
  | some rest => some (0, rest)
  | none => do
    let rest ← oneOf ['+', '-', '\u2212'] s
    let (hours, rest) ← number 2 0 23 rest
    let rest ← oneOf [':'] rest
    let (minutes, rest) ← number 2 0 59 rest
    let seconds : Int := hours * 3600 + minutes * 60
    return (if s.head? = some '+' then seconds else -seconds, rest)

/-- The instant and the place's offset that a text tells. -/
def parse? (text : String) : Option Zoned := do
  let (year, s) ← number 4 0 9999 text.toList
  let s ← oneOf ['-'] s
  let (month, s) ← number 2 1 12 s
  let s ← oneOf ['-'] s
  let (day, s) ← number 2 1 31 s
  let s ← oneOf ['T', 't', ' '] s
  let (hour, s) ← number 2 0 23 s
  let s ← oneOf [':'] s
  let (minute, s) ← number 2 0 59 s
  let s ← oneOf [':'] s
  let (second, s) ← number 2 0 60 s
  let (nano, s) ← fraction s
  let (offset, s) ← offset s
  if s.isEmpty ∧ day ≤ Date.daysInMonth year month then
    let date : Date := ⟨year, month, day⟩
    let start := date.number * 86400 + hour * 3600 + minute * 60
    if second = 60 then Zoned.of? (start + 59) (nanosPerSecond + nano) offset
    else Zoned.of? (start + second) nano offset
  else none

def format (z : Zoned) : String := DateText.format z.instant

end Courier.ZonedText
