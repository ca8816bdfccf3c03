import Courier.Gzip.Bits

set_option autoImplicit false

/-! # Prefix codes

A prefix code gives each symbol a row of bits, so that no row begins another. It is told by the lengths
of the rows alone: the rows of one length are consecutive numbers, in the order of their symbols, and
shorter rows come before longer ones.
-/

namespace Courier.Gzip

/-- A prefix code: how many rows there are of each length from 1 on, and the symbols in the order of
their rows. -/
structure Code where
  counts : List Nat
  symbols : Array Nat
deriving Repr, DecidableEq

namespace Code

/-- The most bits that a row may have. -/
def longest : Nat := 15

/-- The symbols, counted from 0, to which a length is given. -/
def symbolsOf (lengths : List Nat) (length : Nat) : List Nat :=
  (lengths.zipIdx.filter fun (n, _) => n == length).map Prod.snd

/-- The code that gives each symbol a row of its length; a symbol of length 0 has none. -/
def ofLengths (lengths : List Nat) : Code where
  counts := (List.range longest).map fun n => lengths.count (n + 1)
  symbols := ((List.range longest).flatMap fun n => symbolsOf lengths (n + 1)).toArray

/-- How much of the rows of `width` bits begins with a row of the code. -/
def share (width : Nat) : List Nat → Nat
  | [] => 0
  | count :: counts => count * Nat.pow 2 (width - 1) + share (width - 1) counts

/-- Every row of bits begins with a row of the code, and with one only. -/
def isComplete (code : Code) : Bool := share longest code.counts == Nat.pow 2 longest

/-- The code can be used for reading: it is complete, or it has one row at most. -/
def isUsable (code : Code) : Bool := code.isComplete || code.symbols.size ≤ 1

/-- Reads a symbol. Of the rows as long as what has been read, `first` is the first one and `index` the
place of its symbol; `row` is what has been read. -/
def readFrom (symbols : Array Nat) : List Nat → Nat → Nat → Nat → Bits → Option (Nat × Bits)
  | [], _, _, _, _ => none
  | count :: counts, row, first, index, bits => do
    let (bit, bits) ← bits.next?
    let row := 2 * row + bit.toNat
    let first := 2 * first
    if row < first + count then return (← symbols[index + (row - first)]?, bits)
    else readFrom symbols counts row (first + count) (index + count) bits

def read? (code : Code) (bits : Bits) : Option (Nat × Bits) :=
  readFrom code.symbols code.counts 0 0 0 bits

end Code

end Courier.Gzip
