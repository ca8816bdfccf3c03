set_option autoImplicit false

/-! # Bits of compressed data

Compressed data are read bit by bit: a byte gives its lowest bit first, and so does a number. Some parts
begin at a whole byte, so what is left of the byte that is being read is kept apart from the bytes after
it.
-/

namespace Courier.Gzip

/-- What is left to read: the bits of the byte that is being read, and the bytes after it. -/
structure Bits where
  pending : List Bool
  bytes : List UInt8
deriving Repr, DecidableEq

namespace Bits

/-- The bits of a byte, the lowest first. -/
def ofByte (b : UInt8) : List Bool := (List.range 8).map b.toNat.testBit

/-- All of the bytes are left. -/
def ofBytes (bytes : List UInt8) : Bits := ⟨[], bytes⟩

def count (bits : Bits) : Nat := bits.pending.length + 8 * bits.bytes.length

def next? (bits : Bits) : Option (Bool × Bits) :=
  match bits.pending with
  | bit :: pending => some (bit, ⟨pending, bits.bytes⟩)
  | [] =>
    match bits.bytes with
    | [] => none
    | b :: bytes => some (b.toNat.testBit 0, ⟨(ofByte b).tail, bytes⟩)

/-- The number that the next bits give. -/
def number? : Nat → Bits → Option (Nat × Bits)
  | 0, bits => some (0, bits)
  | width + 1, bits => do
    let (bit, bits) ← bits.next?
    let (high, bits) ← number? width bits
    return (bit.toNat + 2 * high, bits)

end Bits

end Courier.Gzip
