import Courier.Gzip.Code

set_option autoImplicit false

/-! # Deflated data

Deflated data are blocks. A block is stored as it is, or it is a row of symbols in a prefix code: a symbol
is a byte, the end of the block, or a copy of what has been written before. The code is a fixed one, or
the block begins with it. Reading takes at least one bit a step, so the number of bits bounds the steps.
-/

namespace Courier.Gzip.Deflate

/-! ## Copies -/

/-- The least length of a copy, and how many bits tell what is added, for the symbols of lengths, counted
from 0. -/
def lengthOf? (symbol : Nat) : Option (Nat × Nat) :=
  if symbol < 8 then some (3 + symbol, 0)
  else if symbol < 28 then
    let extra := (symbol - 4) / 4
    some (3 + (4 + symbol % 4) * Nat.pow 2 extra, extra)
  else if symbol = 28 then some (258, 0)
  else none

/-- The least distance back, and how many bits tell what is added, for the symbols of distances. -/
def distanceOf? (symbol : Nat) : Option (Nat × Nat) :=
  if symbol < 4 then some (1 + symbol, 0)
  else if symbol < 30 then
    let extra := (symbol - 2) / 2
    some (1 + (2 + symbol % 2) * Nat.pow 2 extra, extra)
  else none

/-- Copies `length` bytes from `distance` bytes back, one by one, so that a copy may copy from itself. -/
def copy? (distance : Nat) : Nat → Array UInt8 → Option (Array UInt8)
  | 0, out => some out
  | length + 1, out =>
    if h : 0 < distance ∧ distance ≤ out.size then
      copy? distance length (out.push out[out.size - distance])
    else none

/-! ## Blocks -/

/-- The codes of a block: one for bytes, ends and lengths, and one for distances. -/
structure Codes where
  main : Code
  distances : Code
deriving Repr, DecidableEq

def endSymbol : Nat := 256

/-- A number within the range that a symbol stands for. -/
def ranged? (range : Option (Nat × Nat)) (bits : Bits) : Option (Nat × Bits) := do
  let (least, extra) ← range
  let (more, bits) ← bits.number? extra
  return (least + more, bits)

/-- Reads the symbols of a block to its end. -/
def symbols? (codes : Codes) : Nat → Array UInt8 → Bits → Option (Array UInt8 × Bits)
  | 0, _, _ => none
  | steps + 1, out, bits => do
    let (symbol, bits) ← codes.main.read? bits
    if symbol < endSymbol then symbols? codes steps (out.push (UInt8.ofNat symbol)) bits
    else if symbol = endSymbol then return (out, bits)
    else
      let (length, bits) ← ranged? (lengthOf? (symbol - endSymbol - 1)) bits
      let (symbol, bits) ← codes.distances.read? bits
      let (distance, bits) ← ranged? (distanceOf? symbol) bits
      symbols? codes steps (← copy? distance length out) bits

/-- Reads a block that is stored as it is: its length, its length with all bits turned, and its bytes. -/
def stored? (out : Array UInt8) : List UInt8 → Option (Array UInt8 × Bits)
  | a :: b :: c :: d :: rest =>
    let length := a.toNat + 256 * b.toNat
    let data := rest.take length
    if length + (c.toNat + 256 * d.toNat) = 65535 ∧ data.length = length then
      some (data.foldl Array.push out, .ofBytes (rest.drop length))
    else none
  | _ => none

/-! ## Codes -/

/-- The codes of a block that does not bring its own. -/
def fixedCodes : Codes where
  main := .ofLengths
    (List.replicate 144 8 ++ List.replicate 112 9 ++ List.replicate 24 7 ++ List.replicate 8 8)
  distances := .ofLengths (List.replicate 32 5)

/-- The order in which the lengths of the code for lengths are told. -/
def lengthOrder : List Nat := [16, 17, 18, 0, 8, 7, 9, 6, 10, 5, 11, 4, 12, 3, 13, 2, 14, 1, 15]

def triples? : Nat → Bits → Option (List Nat × Bits)
  | 0, bits => some ([], bits)
  | n + 1, bits => do
    let (length, bits) ← bits.number? 3
    let (lengths, bits) ← triples? n bits
    return (length :: lengths, bits)

/-- Reads `total` lengths of rows; `lengths` holds those so far, the last one first. A symbol is a length,
or it repeats the last one or no length at all; a repetition must not go beyond the end. -/
def lengths? (code : Code) (total : Nat) : Nat → List Nat → Bits → Option (List Nat × Bits)
  | 0, lengths, bits => if lengths.length = total then some (lengths.reverse, bits) else none
  | steps + 1, lengths, bits =>
    if lengths.length = total then some (lengths.reverse, bits)
    else do
      let (symbol, bits) ← code.read? bits
      if symbol < 16 then lengths? code total steps (symbol :: lengths) bits
      else if symbol = 16 then
        let last ← lengths.head?
        let (more, bits) ← bits.number? 2
        lengths? code total steps (List.replicate (3 + more) last ++ lengths) bits
      else if symbol = 17 then
        let (more, bits) ← bits.number? 3
        lengths? code total steps (List.replicate (3 + more) 0 ++ lengths) bits
      else
        let (more, bits) ← bits.number? 7
        lengths? code total steps (List.replicate (11 + more) 0 ++ lengths) bits

/-- Reads the codes of a block that brings its own. Their lengths are in a code themselves, which comes
first. -/
def codes? (bits : Bits) : Option (Codes × Bits) := do
  let (mainMore, bits) ← bits.number? 5
  let (distanceMore, bits) ← bits.number? 5
  let (orderMore, bits) ← bits.number? 4
  let mainSize := 257 + mainMore
  let distanceSize := 1 + distanceMore
  let (told, bits) ← triples? (4 + orderMore) bits
  let code := Code.ofLengths ((List.range 19).map fun symbol =>
    ((lengthOrder.zip told).lookup symbol).getD 0)
  if !code.isComplete then none
  let total := mainSize + distanceSize
  let (lengths, bits) ← lengths? code total total [] bits
  let codes : Codes :=
    ⟨.ofLengths (lengths.take mainSize), .ofLengths (lengths.drop mainSize)⟩
  if mainSize ≤ 286 && distanceSize ≤ 30 && codes.main.isUsable && codes.distances.isUsable then
    return (codes, bits)
  else none

/-! ## Reading -/

def block? (kind steps : Nat) (out : Array UInt8) (bits : Bits) : Option (Array UInt8 × Bits) :=
  match kind with
  | 0 => stored? out bits.bytes
  | 1 => symbols? fixedCodes steps out bits
  | 2 =>
    match codes? bits with
    | some (codes, bits) => symbols? codes steps out bits
    | none => none
  | _ => none

def blocks? : Nat → Array UInt8 → Bits → Option (Array UInt8 × Bits)
  | 0, _, _ => none
  | steps + 1, out, bits => do
    let (isLast, bits) ← bits.next?
    let (kind, bits) ← bits.number? 2
    let (out, bits) ← block? kind steps out bits
    if isLast then return (out, bits) else blocks? steps out bits

/-- The data that deflated bytes give, and the bytes after those. -/
def inflate? (bytes : List UInt8) : Option (List UInt8 × List UInt8) :=
  let bits := Bits.ofBytes bytes
  (blocks? bits.count #[] bits).map fun (out, bits) => (out.toList, bits.bytes)

end Courier.Gzip.Deflate
