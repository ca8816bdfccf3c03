import Courier.Json.Literal
import Courier.Json.Numeral

set_option autoImplicit false

/-! # Reading one value

A reader takes the number of containers that may still be opened and the text from where its value
starts, and gives the value and the text after it. Blanks before the value belong to it.
-/

namespace Courier.Json

/-- Reads a value; the first argument tells how many containers may still be opened. -/
abbrev Reader (α : Type) := Nat → List Char → Scan α

/-- How many containers of a document may stand inside one another. -/
def nestingLimit : Nat := 127

/-! ## Blanks and keywords -/

/-- The four characters that may stand between the parts of a document. -/
def isSpace (c : Char) : Bool := c == ' ' || c == '\n' || c == '\t' || c == '\r'

def dropSpace (s : List Char) : List Char := s.dropWhile isSpace

/-- Takes the letters of a keyword one by one. -/
def keyword : (letters : List Char) → List Char → Except Fault (List Char)
  | [], rest => .ok rest
  | _ :: _, [] => .error (.before .endInValue [])
  | letter :: letters, c :: rest =>
    if c = letter then keyword letters rest else .error (.within .expectedKeyword (c :: rest))

/-- A keyword of which the first letter has been seen, and what it means. -/
def meaning {α : Type} (letters : List Char) (a : α) (rest : List Char) : Scan α :=
  (keyword letters rest).map fun rest => (a, rest)

/-! ## Values of the wrong kind -/

/-- What stands at the head of a text. A text and a numeral are read through, of a container only the
bracket is looked at. -/
def found : List Char → Scan Found
  | [] => .error (.within .expectedValue [])
  | c :: rest =>
    if c = 'n' then meaning ['u', 'l', 'l'] .null rest
    else if c = 't' then meaning ['r', 'u', 'e'] (.boolean true) rest
    else if c = 'f' then meaning ['a', 'l', 's', 'e'] (.boolean false) rest
    else if c = '-' then (Numeral.read true rest).map fun (n, rest) => (.number n, rest)
    else if c.isDigit then (Numeral.read false (c :: rest)).map fun (n, rest) => (.number n, rest)
    else if c = '"' then (Literal.read rest).map fun (s, rest) => (.string s, rest)
    else if c = '[' then .ok (.sequence, c :: rest)
    else if c = '{' then .ok (.map, c :: rest)
    else .error (.within .expectedValue (c :: rest))

/-- The fault of a value that is not what was expected; one inside the value comes first. -/
def mismatch (expected : String) (s : List Char) : Fault :=
  match found s with
  | .error fault => fault
  | .ok (found, rest) => .before (.wrongType found expected) rest

/-- Reads what comes after the blanks; `take` gets the first character and what follows it. -/
def afterSpace {α : Type} (take : Char → List Char → Scan α) (s : List Char) : Scan α :=
  match dropSpace s with
  | [] => .error (.within .endInValue [])
  | c :: rest => take c rest

/-! ## Plain values -/

def readText : Reader String := fun _ => afterSpace fun c rest =>
  if c = '"' then Literal.read rest else .error (mismatch "a string" (c :: rest))

def readFlag : Reader Bool := fun _ => afterSpace fun c rest =>
  if c = 't' then meaning ['r', 'u', 'e'] true rest
  else if c = 'f' then meaning ['a', 'l', 's', 'e'] false rest
  else .error (mismatch "a boolean" (c :: rest))

def readNothing : Reader Unit := fun _ => afterSpace fun c rest =>
  if c = 'n' then meaning ['u', 'l', 'l'] () rest else .error (mismatch "unit" (c :: rest))

/-- The natural number of 64 bits that a number is. -/
def Number.natural? : Number → Except Cause UInt64
  | .integer n h =>
    if 0 ≤ n then .ok (UInt64.ofNat n.toNat)
    else .error (.wrongValue (.number (.integer n h)) "u64")
  | .double x => .error (.wrongType (.number (.double x)) "u64")

/-- A number that has been read, as a natural number of 64 bits. -/
def narrow : Scan Number → Scan UInt64
  | .error fault => .error fault
  | .ok (n, rest) =>
    match n.natural? with
    | .ok n => .ok (n, rest)
    | .error cause => .error (.before cause rest)

def readNatural : Reader UInt64 := fun _ => afterSpace fun c rest =>
  if c = '-' then narrow (Numeral.read true rest)
  else if c.isDigit then narrow (Numeral.read false (c :: rest))
  else .error (mismatch "u64" (c :: rest))

/-- A value, or the keyword that stands for nothing. -/
def readOptional {α : Type} (read : Reader α) : Reader (Option α) := fun depth s =>
  let plain : Scan (Option α) := (read depth s).map fun (a, rest) => (some a, rest)
  match dropSpace s with
  | [] => plain
  | c :: rest => if c = 'n' then meaning ['u', 'l', 'l'] none rest else plain

end Courier.Json
