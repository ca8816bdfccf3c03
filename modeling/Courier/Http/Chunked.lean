import Courier.Text.Blank
import Courier.Text.Decimal
import Courier.Text.Hex
import Courier.Text.Latin

set_option autoImplicit false

/-! # Bodies in chunks

A body may come in chunks: each begins with a line that tells its size by hex digits, and ends with the
end of a line. A chunk of no bytes is the last one; after it lines may follow that do not belong to the
body, up to an empty one. Lines end in a carriage return and a line feed.
-/

namespace Courier.Chunked

/-- The first line, without its end, and what follows it. -/
def cutLine? : List UInt8 → Option (List UInt8 × List UInt8)
  | [] => none
  | [_] => none
  | a :: b :: rest =>
    if a = 13 ∧ b = 10 then some ([], rest)
    else (cutLine? (b :: rest)).map fun (line, rest) => (a :: line, rest)

theorem length_of_cutLine? {bytes line rest : List UInt8} (h : cutLine? bytes = some (line, rest)) :
    bytes.length = line.length + 2 + rest.length := by
  fun_induction cutLine? bytes generalizing line with
  | case1 => simp at h
  | case2 => simp at h
  | case3 a b tail _ =>
    simp only [Option.some.injEq, Prod.mk.injEq] at h
    obtain ⟨rfl, rfl⟩ := h
    simp only [List.length_cons, List.length_nil]
    omega
  | case4 a b tail _ ih =>
    simp only [Option.map_eq_some_iff, Prod.exists, Prod.mk.injEq] at h
    obtain ⟨line', rest', h', rfl, rfl⟩ := h
    have := ih h'
    simp only [List.length_cons] at this ⊢
    omega

/-- The size that a line tells. What follows a semicolon does not count, nor do blanks around the digits;
a size has no more than 64 bits. -/
def size? (line : List UInt8) : Option Nat := do
  let told := Latin.decode (line.takeWhile (· != 59))
  let digits := ((told.dropWhile isBlank).reverse.dropWhile isBlank).reverse
  if digits.isEmpty then none
  let size ← digits.foldlM (fun n c => (Hex.value? c).map (n * 16 + ·)) 0
  if size < 0x10000000000000000 then some size else none

/-- What follows the first empty line. -/
def afterEmptyLine? (bytes : List UInt8) : Option (List UInt8) :=
  match _h : cutLine? bytes with
  | none => none
  | some ([], rest) => some rest
  | some (_ :: _, rest) => afterEmptyLine? rest
termination_by bytes.length
decreasing_by
  have := length_of_cutLine? _h
  omega

/-- The body that bytes begin with, and what follows it. -/
def read? (bytes : List UInt8) : Option (List UInt8 × List UInt8) :=
  match _h₁ : cutLine? bytes with
  | none => none
  | some (line, rest) =>
    match size? line with
    | none => none
    | some 0 => (afterEmptyLine? rest).map fun rest => ([], rest)
    | some (size + 1) =>
      match _h₂ : cutLine? (rest.drop (size + 1)) with
      | some ([], after) =>
        (read? after).map fun (body, after) => (rest.take (size + 1) ++ body, after)
      | _ => none
termination_by bytes.length
decreasing_by
  have := length_of_cutLine? _h₁
  have hRest := length_of_cutLine? _h₂
  simp only [List.length_drop] at hRest
  omega

def chunk (bytes : List UInt8) : List UInt8 :=
  (Nat.toDigits 16 bytes.length).flatMap String.utf8EncodeChar ++ [13, 10] ++ bytes ++ [13, 10]

/-- The chunks of a body: all of it, if it is not empty, and an empty one. -/
def write (body : List UInt8) : List UInt8 :=
  (if body.isEmpty then [] else chunk body) ++ chunk []

end Courier.Chunked
