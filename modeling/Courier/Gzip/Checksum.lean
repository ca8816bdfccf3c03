set_option autoImplicit false

/-! # Checksums

The checksum of bytes is what is left when they are divided as a polynomial over two elements, with the
lowest bit of each byte first: CRC-32.
-/

namespace Courier.Gzip

namespace Checksum

/-- The divisor, with the coefficients of the highest powers in the lowest bits. -/
def divisor : UInt32 := 0xEDB88320

/-- Divides on by one bit. -/
def step (register : UInt32) : UInt32 :=
  if register &&& 1 = 1 then (register >>> 1) ^^^ divisor else register >>> 1

/-- Takes one more byte in. -/
def feed (register : UInt32) (b : UInt8) : UInt32 :=
  Nat.repeat step 8 (register ^^^ b.toUInt32)

end Checksum

def checksum (bytes : List UInt8) : UInt32 :=
  bytes.foldl Checksum.feed 0xFFFFFFFF ^^^ 0xFFFFFFFF

end Courier.Gzip
