import Courier.Gzip.Checksum
import Courier.Gzip.Deflate

set_option autoImplicit false

/-! # Compressed data

Compressed data are one member after another, with nothing between them and nothing after the last. A
member is a head, deflated data, and a tail that tells the checksum and the size of the data. What a head
may tell besides is passed over.
-/

namespace Courier.Gzip

/-- The number that bytes give, the lowest first. -/
def number : List UInt8 → Nat
  | [] => 0
  | b :: bytes => b.toNat + 256 * number bytes

/-- The first bytes, if there are as many, and those after them. -/
def cut? (count : Nat) (bytes : List UInt8) : Option (List UInt8 × List UInt8) :=
  let first := bytes.take count
  if first.length = count then some (first, bytes.drop count) else none

def afterZero? : List UInt8 → Option (List UInt8)
  | [] => none
  | b :: bytes => if b = 0 then some bytes else afterZero? bytes

/-! ## Members -/

/-- What the head of a member tells besides. -/
structure Flags where
  hasChecksum : Bool
  hasExtra : Bool
  hasName : Bool
  hasComment : Bool
deriving Repr, DecidableEq

/-- The flags that a byte gives; bits without a meaning must not be set. -/
def Flags.ofByte? (b : UInt8) : Option Flags :=
  let n := b.toNat
  if n < 32 then some ⟨n.testBit 1, n.testBit 2, n.testBit 3, n.testBit 4⟩ else none

/-- How the head of a member begins: its mark, and the number of the only method. -/
def mark : List UInt8 := [0x1F, 0x8B, 8]

/-- What follows what a head tells besides, its own checksum apart. -/
def afterFields? (flags : Flags) (bytes : List UInt8) : Option (List UInt8) := do
  let bytes ←
    if flags.hasExtra then do
      let (size, bytes) ← cut? 2 bytes
      (cut? (number size) bytes).map Prod.snd
    else some bytes
  let bytes ← if flags.hasName then afterZero? bytes else some bytes
  if flags.hasComment then afterZero? bytes else some bytes

/-- What follows the head of a member. -/
def afterHead? (bytes : List UInt8) : Option (List UInt8) := do
  let (start, rest) ← cut? 10 bytes
  if start.take 3 ≠ mark then none
  let flags ← Flags.ofByte? (start.getD 3 0)
  let rest ← afterFields? flags rest
  if flags.hasChecksum then
    let (told, after) ← cut? 2 rest
    let head := bytes.take (bytes.length - rest.length)
    if number told = (checksum head).toNat % 0x10000 then some after else none
  else some rest

/-- The data of the first member, and what follows it. -/
def member? (bytes : List UInt8) : Option (List UInt8 × List UInt8) := do
  let rest ← afterHead? bytes
  let (data, rest) ← Deflate.inflate? rest
  let (toldChecksum, rest) ← cut? 4 rest
  let (toldSize, rest) ← cut? 4 rest
  if number toldChecksum = (checksum data).toNat ∧ number toldSize = data.length % 0x100000000 then
    some (data, rest)
  else none

/-- The data of at most `count` members, which are all that there is. -/
def members? : Nat → List UInt8 → Option (List UInt8)
  | 0, _ => none
  | count + 1, bytes => do
    let (data, rest) ← member? bytes
    if rest.isEmpty then return data else return data ++ (← members? count rest)

/-- The data that compressed bytes give. There is at least one member, and each has a byte at least. -/
def decode? (bytes : List UInt8) : Option (List UInt8) := members? bytes.length bytes

end Courier.Gzip
