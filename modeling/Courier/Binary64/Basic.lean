set_option autoImplicit false

/-! # Finite binary floating-point numbers of 64 bits

A finite double is a sign and a whole number of units of `2^-1074`, the least double above zero:
`significand · 2^shift` units, where the significand has at most 53 bits and a shift above zero
needs all of them. Rounding takes a quotient of natural numbers to the nearest double, and of two
equally near ones to the one with the even significand.
-/

namespace Courier

/-- The double `±significand · 2^shift · 2^-1074`. -/
structure Binary64 where
  negative : Bool
  significand : Nat
  shift : Nat
deriving Repr, DecidableEq

namespace Binary64

/-- The double has 53 bits or no shift, and is below `2^1024`. -/
def Canonical (x : Binary64) : Prop :=
  x.significand < Nat.pow 2 53 ∧ (Nat.pow 2 52 ≤ x.significand ∨ x.shift = 0) ∧ x.shift ≤ 2045

instance (x : Binary64) : Decidable x.Canonical := by unfold Canonical; infer_instance

/-- The magnitude in units of `2^-1074`. -/
def units (x : Binary64) : Nat := x.significand * Nat.pow 2 x.shift

def neg (x : Binary64) : Binary64 := { x with negative := !x.negative }

/-- The double that a word of 64 bits stands for; `none` for the infinities and for what is no
number. -/
def ofBits (bits : UInt64) : Option Binary64 :=
  let word := bits.toNat
  let negative := word / Nat.pow 2 63 == 1
  let field := word / Nat.pow 2 52 % Nat.pow 2 11
  let fraction := word % Nat.pow 2 52
  if field = 2047 then none
  else if field = 0 then some ⟨negative, fraction, 0⟩
  else some ⟨negative, Nat.pow 2 52 + fraction, field - 1⟩

/-- The whole number nearest to `num / den`; of two equally near ones the even one. -/
def nearest (num den : Nat) : Nat :=
  let low := num / den
  let twice := 2 * (num % den)
  if twice < den then low
  else if den < twice then low + 1
  else low + low % 2

/-- The double nearest to `num / den` units; `none` when that is `2^1024` or more. The quotient is
given all the 53 bits it can have above the least unit before it is rounded; one that rounds up to 54
bits moves to the next shift. -/
def ofUnits (negative : Bool) (num den : Nat) : Option Binary64 :=
  let shift := (num / den).log2 - 52
  let m := nearest num (den * Nat.pow 2 shift)
  let x : Binary64 := if m = Nat.pow 2 53 then ⟨negative, Nat.pow 2 52, shift + 1⟩ else ⟨negative, m, shift⟩
  if x.shift ≤ 2045 then some x else none

def ofNat (n : Nat) : Option Binary64 := ofUnits false (n * Nat.pow 2 1074) 1

def mul (x y : Binary64) : Option Binary64 :=
  ofUnits (x.negative != y.negative) (x.units * y.units) (Nat.pow 2 1074)

/-- The quotient of two magnitudes, rounded once. -/
def div (x y : Binary64) : Option Binary64 :=
  ofUnits (x.negative != y.negative) (x.units * Nat.pow 2 1074) y.units

/-- Where the quotient has its leading bit decides the shift, so a value is rounded at 53 bits. -/
example : ofNat (Nat.pow 2 53 + 1) = some ⟨false, Nat.pow 2 52, 1075⟩ := by decide +kernel

end Binary64

end Courier
