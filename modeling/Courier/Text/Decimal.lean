set_option autoImplicit false

/-! # Decimal numerals

The digits of a natural number and the number that digits stand for.
-/

namespace Courier.Decimal

def digits (n : Nat) : List Char := Nat.toDigits 10 n

def digitValue (c : Char) : Nat := c.toNat - 48

def value (digits : List Char) : Nat := digits.foldl (fun n c => n * 10 + digitValue c) 0

/-- The number that digits give, if they are digits, at least one, and it has no more than the given
number of bits. -/
def word? (bits : Nat) (s : List Char) : Option Nat :=
  if s.isEmpty || !s.all Char.isDigit then none
  else
    let n := value s
    if n < Nat.pow 2 bits then some n else none

def text (n : Nat) : String := String.ofList (digits n)

end Courier.Decimal
