import Courier.Json.Container
import Courier.Json.Tree
import Courier.Table

set_option autoImplicit false

/-! # Reading a whole document

A document is one value and nothing after it but blanks. `readValue` takes it whatever it says; of two
members with one name the later one stays, and members come in the order of their names.
-/

namespace Courier.Json

def readValue (depth : Nat) : List Char → Scan Value := afterSpace fun c rest =>
  if c = 'n' then meaning ['u', 'l', 'l'] .null rest
  else if c = 't' then meaning ['r', 'u', 'e'] (.boolean true) rest
  else if c = 'f' then meaning ['a', 'l', 's', 'e'] (.boolean false) rest
  else if c = '-' then (Numeral.read true rest).map fun (n, rest) => (.number n, rest)
  else if c.isDigit then (Numeral.read false (c :: rest)).map fun (n, rest) => (.number n, rest)
  else if c = '"' then (Literal.read rest).map fun (s, rest) => (.string s, rest)
  else if c = '[' then
    match depth with
    | 0 => .error (.within .recursionLimit (c :: rest))
    | depth + 1 => (items (readValue depth) rest).map fun (items, rest) => (.array items, rest)
  else if c = '{' then
    match depth with
    | 0 => .error (.within .recursionLimit (c :: rest))
    | depth + 1 =>
      let member (entries : List (String × Value)) (name : String) (s : List Char) :=
        (memberValue (readValue depth) s).map fun (v, rest) => (insertEntry name v entries, rest)
      (close endObject (members member [] rest)).map fun (entries, rest) => (.object entries, rest)
  else .error (.within .expectedValue (c :: rest))

def readDocument {α : Type} (read : Reader α) (text : String) : Except SyntaxFault α :=
  let s := text.toList
  match read nestingLimit s with
  | .error fault => .error (fault.locate s)
  | .ok (a, rest) =>
    match dropSpace rest with
    | [] => .ok a
    | c :: rest => .error ((Fault.within .trailingCharacters (c :: rest)).locate s)

end Courier.Json
