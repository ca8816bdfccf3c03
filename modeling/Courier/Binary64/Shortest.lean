import Courier.Binary64.Basic

set_option autoImplicit false

/-! # The shortest decimal of a double

A double stands for all the reals that round to it, an interval with the double inside. Of the
decimals in that interval the shortest one is wanted: it lies on the coarsest grid `10^p` that has a
point there, and if such a grid has two, the nearer one is taken.
-/

namespace Courier.Binary64

structure Decimal where
  coefficient : Nat
  exponent : Int
deriving Repr, DecidableEq

/-- Four units of the double: the ends of its interval are whole numbers of quarter units. -/
def quarters (x : Binary64) : Nat := 4 * x.units

/-- The lower end of the interval, in quarter units. Below a power of two the doubles are twice as
dense. -/
def lowerEnd (x : Binary64) : Nat :=
  if x.significand = Nat.pow 2 52 ∧ x.shift ≠ 0 then x.quarters - Nat.pow 2 x.shift
  else x.quarters - 2 * Nat.pow 2 x.shift

def upperEnd (x : Binary64) : Nat := x.quarters + 2 * Nat.pow 2 x.shift

/-- `n` quarter units over `10^exponent`, as a quotient of natural numbers. -/
def overGrid (n : Nat) (exponent : Int) : Nat × Nat :=
  match exponent with
  | .ofNat p => (n, Nat.pow 2 1076 * Nat.pow 10 p)
  | .negSucc p => (n * Nat.pow 10 (p + 1), Nat.pow 2 1076)

/-- Whether the grid point `coefficient · 10^exponent` rounds to `x`: it lies between the ends, and
an end itself counts when the significand is even. -/
def reads (x : Binary64) (exponent : Int) (coefficient : Nat) : Bool :=
  let (low, den) := overGrid x.lowerEnd exponent
  let (high, _) := overGrid x.upperEnd exponent
  let point := coefficient * den
  if x.significand % 2 = 0 then low ≤ point && point ≤ high else low < point && point < high

/-- The point of the grid `10^exponent` that rounds to `x` and is nearest to it. Only the two
neighbours of `x` have to be tried. -/
def onGrid (x : Binary64) (exponent : Int) : Option Decimal :=
  let (num, den) := overGrid x.quarters exponent
  let below := num / den
  let remainder := num % den
  let lowReads := below != 0 && x.reads exponent below
  let highReads := x.reads exponent (below + 1)
  if lowReads && highReads then
    let up := den < 2 * remainder || (den == 2 * remainder && below % 2 == 1)
    some ⟨if up then below + 1 else below, exponent⟩
  else if lowReads then some ⟨below, exponent⟩
  else if highReads then some ⟨below + 1, exponent⟩
  else none

/-- The exponent of a grid that is coarser than `x`: `30103 / 100000` is a little more than the
decimal logarithm of two. -/
def coarseExponent (x : Binary64) : Int := ((x.units.log2 : Int) - 1074) * 30103 / 100000 + 2

/-- The shortest decimal that rounds to `x`. From the coarse grid on, every grid is tried; 17 digits
are always enough. -/
def shortest (x : Binary64) : Decimal :=
  let top := x.coarseExponent
  ((List.range 24).findSome? fun (n : Nat) => x.onGrid (top - (n : Int))).getD ⟨0, 0⟩

example : (Binary64.mk false 3602879701896397 1019).shortest = ⟨1, -1⟩ := by decide +kernel

end Courier.Binary64
