import Courier.Json.Fault
import Courier.Text.Decimal

set_option autoImplicit false

/-! # Numbers in a document

A numeral is an integer part without leading zeros, and then perhaps a fraction and an exponent. One
that is only an integer part, and fits 64 bits, is that integer. Any other is a double, and the way to it
is not the shortest: the digits that fit 64 bits are taken as a whole number, this is rounded to a double,
and the double is multiplied or divided by a power of ten, each step rounded by itself. Digits that no
longer fit are dropped; before the point each one raises the exponent.
-/

namespace Courier.Json.Numeral

def splitDigits (s : List Char) : List Char × List Char := s.span Char.isDigit

/-- Appends digits to a number for as long as it fits 64 bits; gives the number and the digits that were
not taken. -/
def absorb (n : Nat) : List Char → Nat × List Char
  | [] => (n, [])
  | c :: cs =>
    let next := n * 10 + Decimal.digitValue c
    if next < 0x10000000000000000 then absorb next cs else (n, c :: cs)

/-! ## The integer part -/

/-- Reads the integer part: its digits. -/
def readWhole : List Char → Scan (List Char)
  | [] => .error (.before .endInValue [])
  | c :: rest =>
    if c = '0' then
      match rest with
      | [] => .ok (['0'], [])
      | d :: _ => if d.isDigit then .error (.within .invalidNumber rest) else .ok (['0'], rest)
    else if c.isDigit then
      let (digits, rest) := splitDigits rest
      .ok (c :: digits, rest)
    else .error (.within .invalidNumber (c :: rest))

/-! ## The fraction -/

/-- Reads a fraction if there is one: its digits. -/
def readFraction : List Char → Scan (List Char)
  | [] => .ok ([], [])
  | c :: rest =>
    if c = '.' then
      match splitDigits rest with
      | ([], []) => .error (.within .endInValue [])
      | ([], rest) => .error (.within .invalidNumber rest)
      | (digits, rest) => .ok (digits, rest)
    else .ok ([], c :: rest)

/-! ## The exponent -/

/-- A power of ten as a numeral gives it. -/
inductive Power where
  | up (n : Nat)
  | down (n : Nat)
deriving Repr, DecidableEq

/-- The power of ten after `shift` places have been moved. -/
def Power.shifted (shift : Int) : Power → Int
  | .up n => shift + n
  | .down n => shift - n

/-- Digits of an exponent that no longer fit 31 bits: the digits after the one that is too many. -/
def tooLong (n : Nat) : List Char → Option (List Char)
  | [] => none
  | c :: cs =>
    let next := n * 10 + Decimal.digitValue c
    if next < 0x80000000 then tooLong next cs else some cs

/-- Whether a minus sign is there, and the text after the sign, if there is any. -/
def splitSign : List Char → Bool × List Char
  | [] => (false, [])
  | c :: rest => if c = '-' then (true, rest) else if c = '+' then (false, rest) else (false, c :: rest)

/-- Reads the sign and the digits of an exponent, from after its letter. A positive exponent that no
longer fits 31 bits is refused at the digit that is too many, unless the number is zero. -/
def readPower (isZero : Bool) (s : List Char) : Scan Power :=
  let (down, s) := splitSign s
  match splitDigits s with
  | ([], []) => .error (.before .endInValue [])
  | ([], rest) => .error (.within .invalidNumber rest)
  | (digits, rest) =>
    match tooLong 0 digits, down, isZero with
    | some unread, false, false => .error (.before .numberOutOfRange (unread ++ rest))
    | _, true, _ => .ok (.down (Decimal.value digits), rest)
    | _, false, _ => .ok (.up (Decimal.value digits), rest)

def readExponent (isZero : Bool) : List Char → Scan (Option Power)
  | [] => .ok (none, [])
  | c :: rest =>
    if c = 'e' ∨ c = 'E' then (readPower isZero rest).map fun (power, rest) => (some power, rest)
    else .ok (none, c :: rest)

/-! ## From digits to a double -/

/-- The largest power of ten that is a finite double. -/
def largestPower : Nat := 308

def powerOfTen (n : Nat) : Option Binary64 := Binary64.ofNat (Nat.pow 10 n)

/-- `x` divided by `10^n`, by no more than the largest power at a time. -/
def scaleDown (x : Binary64) (n : Nat) : Option Binary64 :=
  if n ≤ largestPower then do x.div (← powerOfTen n)
  else if x.significand = 0 then some x
  else do scaleDown (← x.div (← powerOfTen largestPower)) (n - largestPower)
termination_by n
decreasing_by simp_all [largestPower]; omega

/-- `x` times `10^n`; `none` when that is no finite double. -/
def scaleUp (x : Binary64) (n : Nat) : Option Binary64 :=
  if n ≤ largestPower then do x.mul (← powerOfTen n)
  else if x.significand = 0 then some x
  else none

/-- The double that a whole number and a power of ten give; `none` when it is not finite. -/
def double (negative : Bool) (n : Nat) (power : Int) : Option Binary64 := do
  let start ← Binary64.ofNat n
  let x ← if 0 ≤ power then scaleUp start power.toNat else scaleDown start (-power).toNat
  return if negative then x.neg else x

/-- What the parts of a numeral give; `none` when it is out of range. -/
def assemble (negative : Bool) (whole fraction : List Char) (power : Option Power) :
    Option Number :=
  let (n, unread) := absorb 0 whole
  let signed : Int := if negative then -(n : Int) else n
  let plain := fraction.isEmpty && power.isNone && unread.isEmpty
  if h : plain ∧ Number.InRange signed ∧ ¬(negative ∧ n = 0) then
    some (.integer signed h.2.1)
  else
    let (n, dropped) := absorb n fraction
    let shift : Int := (unread.length : Int) - (fraction.length - dropped.length : Nat)
    let power := match power with
      | none => shift
      | some power => power.shifted shift
    (double negative n power).map .double

/-- Reads a numeral, from after its sign. -/
def read (negative : Bool) (s : List Char) : Except Fault (Number × List Char) := do
  let (whole, rest) ← readWhole s
  let (fraction, rest) ← readFraction rest
  let isZero := (absorb (absorb 0 whole).1 fraction).1 == 0
  let (power, rest) ← readExponent isZero rest
  match assemble negative whole fraction power with
  | some number => .ok (number, rest)
  | none => .error (.before .numberOutOfRange rest)

/-! ## Passing over a numeral -/

def skipDigits (s : List Char) : Except Fault (List Char) :=
  match splitDigits s with
  | ([], rest) => .error (.within .invalidNumber rest)
  | (_, rest) => .ok rest

def skipExponent : List Char → Except Fault (List Char)
  | [] => .ok []
  | c :: rest => if c = 'e' ∨ c = 'E' then skipDigits (splitSign rest).2 else .ok (c :: rest)

/-- Passes over a fraction and an exponent, if they are there. -/
def skipFraction : List Char → Except Fault (List Char)
  | [] => .ok []
  | c :: rest =>
    if c = '.' then skipDigits rest >>= skipExponent else skipExponent (c :: rest)

/-- Passes over a numeral, from after its sign: any double, finite or not. -/
def skip : List Char → Except Fault (List Char)
  | [] => .error (.within .invalidNumber [])
  | c :: rest =>
    if c = '0' then
      match rest with
      | [] => .ok []
      | d :: _ => if d.isDigit then .error (.within .invalidNumber rest) else skipFraction rest
    else if c.isDigit then skipFraction (splitDigits rest).2
    else .error (.within .invalidNumber (c :: rest))

end Courier.Json.Numeral
