import Courier.Calendar.Instant
import Courier.Text.Blank
import Courier.Text.Decimal

set_option autoImplicit false

/-! # The text of an instant

An instant is written as `2011-06-15T10:30:00Z`: date and time of day in universal time, whole seconds.
A year with other than four digits has a sign. Reading goes from left to right and is a little wider than
writing: blanks may stand before each number, numbers need not be padded, and a signed year may have any
number of digits.
-/

namespace Courier.DateText

/-! ## Writing -/

def twoDigits (n : Nat) : List Char := [Nat.digitChar (n / 10), Nat.digitChar (n % 10)]

/-- A number with zeros before it, up to four digits. -/
def fourDigits (n : Nat) : List Char :=
  let ds := Decimal.digits n
  List.replicate (4 - ds.length) '0' ++ ds

/-- A year: four digits as far as they reach, and else a sign and no fewer digits. -/
def yearText (year : Int) : List Char :=
  if 0 ≤ year ∧ year ≤ 9999 then fourDigits year.toNat
  else (if year < 0 then '-' else '+') :: fourDigits year.natAbs

def chars (t : Instant) : List Char :=
  yearText t.date.year ++ '-' :: (twoDigits t.date.month ++ '-' :: (twoDigits t.date.day
    ++ 'T' :: (twoDigits t.clock.hour ++ ':' :: (twoDigits t.clock.minute
    ++ ':' :: (twoDigits t.clock.second ++ ['Z'])))))

def format (t : Instant) : String := String.ofList (chars t)

/-! ## Reading -/

inductive Fault where
  | tooShort
  | invalid
  | outOfRange
  | tooLong
deriving Repr, DecidableEq

def Fault.message : Fault → String
  | .tooShort => "premature end of input"
  | .invalid => "input contains invalid characters"
  | .outOfRange => "input is out of range"
  | .tooLong => "trailing input"

/-- The number that digits stand for, of which there must be one; `rest` follows them. -/
def numeral (digits rest : List Char) : Except Fault (Nat × List Char) :=
  match digits, rest with
  | [], [] => .error .tooShort
  | [], _ :: _ => .error .invalid
  | digits, rest => .ok (Decimal.value digits, rest)

/-- The digits at the head of a text, no more than `most`, and what follows them. -/
def splitDigits (most : Nat) (s : List Char) : List Char × List Char :=
  let ds := (s.take most).takeWhile Char.isDigit
  (ds, s.drop ds.length)

/-- Reads a number of one or two digits, blanks before it, that lies between bounds. -/
def number (least most : Nat) (s : List Char) : Except Fault (Nat × List Char) :=
  let (ds, rest) := splitDigits 2 (s.dropWhile isBlank)
  match numeral ds rest with
  | .error fault => .error fault
  | .ok (n, rest) => if least ≤ n ∧ n ≤ most then .ok (n, rest) else .error .outOfRange

/-- Reads a year, blanks before it: with a sign any number of digits, without one no more than four. -/
def year (s : List Char) : Except Fault (Int × List Char) :=
  let signed (negative : Bool) (rest : List Char) : Except Fault (Int × List Char) :=
    let (ds, rest) := rest.span Char.isDigit
    match numeral ds rest with
    | .error fault => .error fault
    | .ok (n, rest) =>
      let n : Int := if negative then -n else n
      if -0x80000000 ≤ n ∧ n < 0x80000000 then .ok (n, rest) else .error .outOfRange
  match s.dropWhile isBlank with
  | [] => .error .tooShort
  | c :: rest =>
    if c = '-' then signed true rest
    else if c = '+' then signed false rest
    else
      let (ds, rest) := splitDigits 4 (c :: rest)
      match numeral ds rest with
      | .error fault => .error fault
      | .ok (n, rest) => .ok (n, rest)

def mark (c : Char) : List Char → Except Fault (List Char)
  | [] => .error .tooShort
  | d :: rest => if d = c then .ok rest else .error .invalid

def read (s : List Char) : Except Fault Instant := do
  let (year, s) ← year s
  let s ← mark '-' s
  let (month, s) ← number 1 12 s
  let s ← mark '-' s
  let (day, s) ← number 1 31 s
  let s ← mark 'T' s
  let (hour, s) ← number 0 23 s
  let s ← mark ':' s
  let (minute, s) ← number 0 59 s
  let s ← mark ':' s
  let (second, s) ← number 0 60 s
  let s ← mark 'Z' s
  if !s.isEmpty then .error .tooLong
  else if day ≤ Date.daysInMonth year month then
    match Instant.ofParts? ⟨year, month, day⟩ ⟨hour, minute, second⟩ with
    | some t => .ok t
    | none => .error .outOfRange
  else .error .outOfRange

/-- The instant that a text tells. -/
def parse (text : String) : Except Fault Instant := read text.toList

end Courier.DateText
