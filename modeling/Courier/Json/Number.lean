import Courier.Binary64.Shortest
import Courier.Text.Decimal

set_option autoImplicit false

/-! # Numbers of a document

A number is an integer that fits 64 bits, with a sign or without one, or a finite double. An integer
is written in decimal. A double is written with the fewest digits that read back to it, and always so
that it does not look like an integer.
-/

namespace Courier.Json

/-- The integers a document holds exactly: those of 64 bits, signed or not. -/
abbrev Number.InRange (n : Int) : Prop := -0x8000000000000000 ≤ n ∧ n < 0x10000000000000000

inductive Number where
  | integer (n : Int) (inRange : Number.InRange n)
  | double (x : Binary64)
deriving Repr, DecidableEq

namespace Number

def natural (n : UInt64) : Number :=
  .integer n.toNat ⟨by omega, by have := n.toNat_lt; omega⟩

def integerText (n : Int) : List Char :=
  if n < 0 then '-' :: Decimal.digits n.natAbs else Decimal.digits n.natAbs

/-- From this power of ten on a double is written with an exponent. -/
def largestPlain : Int := 16

/-- Below this power of ten a double is written with an exponent. -/
def smallestPlain : Int := -5

/-- A decimal above zero. Within the plain range it is written with a point and at least one digit on
either side of it; outside, with one digit before the point, no point without a digit after it, and
the sign of the exponent. -/
def decimalText (d : Binary64.Decimal) : List Char :=
  let ds := Decimal.digits d.coefficient
  let leading := d.exponent + ds.length - 1
  if smallestPlain ≤ leading ∧ leading < largestPlain then
    if 0 ≤ d.exponent then ds ++ List.replicate d.exponent.toNat '0' ++ ['.', '0']
    else if 0 ≤ leading then
      let whole := (leading + 1).toNat
      ds.take whole ++ '.' :: ds.drop whole
    else '0' :: '.' :: List.replicate (-leading - 1).toNat '0' ++ ds
  else
    let fraction := if ds.length = 1 then [] else '.' :: ds.drop 1
    let sign := if leading < 0 then '-' else '+'
    ds.take 1 ++ fraction ++ 'e' :: sign :: Decimal.digits leading.natAbs

def doubleText (x : Binary64) : List Char :=
  let magnitude := if x.significand = 0 then ['0', '.', '0'] else decimalText x.shortest
  if x.negative then '-' :: magnitude else magnitude

def text : Number → List Char
  | .integer n _ => integerText n
  | .double x => doubleText x

end Number

end Courier.Json
