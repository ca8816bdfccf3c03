import Courier.Json.Container

set_option autoImplicit false

/-! # Passing over a value

The value of a member that nobody asks for is passed over. It has to be well formed, but its numbers may
be of any size, its texts may hold units that make up no character, and its containers may stand inside
one another without a limit: the ones still open are kept in a list, the innermost first.
-/

namespace Courier.Json.Skip

inductive Open where
  | array
  | object
deriving Repr, DecidableEq

def Open.closing : Open → Char
  | .array => ']'
  | .object => '}'

/-- What is wrong when the document ends inside a container. -/
def Open.atEnd : Open → Cause
  | .array => .endInArray
  | .object => .endInObject

/-- What is wrong when neither a comma nor the closing bracket follows a value. -/
def Open.expected : Open → Cause
  | .array => .expectedCommaOrBracket
  | .object => .expectedCommaOrBrace

/-- Passes over what stands before a value in a container: in an object its name and the colon. -/
def head : Open → List Char → Except Fault (List Char)
  | .array, s => .ok s
  | .object, s =>
    match dropSpace s with
    | [] => .error (.within .endInObject [])
    | c :: rest =>
      if c = '"' then Literal.skip rest >>= colon else .error (.within .keyNotText (c :: rest))

/-- The head of a value: a container it opens, or none if it is the whole value. -/
def start (s : List Char) : Scan (Option Open) :=
  match dropSpace s with
  | [] => .error (.within .endInValue [])
  | c :: rest =>
    if c = 'n' then meaning ['u', 'l', 'l'] none rest
    else if c = 't' then meaning ['r', 'u', 'e'] none rest
    else if c = 'f' then meaning ['a', 'l', 's', 'e'] none rest
    else if c = '-' then (Numeral.skip rest).map fun rest => (none, rest)
    else if c.isDigit then (Numeral.skip (c :: rest)).map fun rest => (none, rest)
    else if c = '"' then (Literal.skip rest).map fun rest => (none, rest)
    else if c = '[' then .ok (some .array, rest)
    else if c = '{' then .ok (some .object, rest)
    else .error (.within .expectedValue (c :: rest))

mutual

/-- Passes over a value that stands inside `opened`, and then over all that is left of these. -/
def value : (fuel : Nat) → (opened : List Open) → List Char → Except Fault (List Char)
  | 0, _, s => .error (.before .endInValue s)
  | fuel + 1, opened, s =>
    match start s with
    | .error fault => .error fault
    | .ok (none, rest) => next fuel false opened rest
    | .ok (some container, rest) => next fuel true (container :: opened) rest

/-- Passes over what follows a value, or an opening bracket if `first`, inside `opened`. -/
def next : (fuel : Nat) → (first : Bool) → (opened : List Open) → List Char →
    Except Fault (List Char)
  | 0, _, _, s => .error (.before .endInValue s)
  | _ + 1, _, [], s => .ok s
  | fuel + 1, first, container :: opened, s =>
    match dropSpace s with
    | [] => .error (.within container.atEnd [])
    | c :: rest =>
      if c = container.closing then next fuel false opened rest
      else if first then item fuel container opened (c :: rest)
      else if c = ',' then item fuel container opened rest
      else .error (.within container.expected (c :: rest))

/-- Passes over an item or a member of `container`, and then over all that is left. -/
def item : (fuel : Nat) → (container : Open) → (opened : List Open) → List Char →
    Except Fault (List Char)
  | 0, _, _, s => .error (.before .endInValue s)
  | fuel + 1, container, opened, s =>
    match head container s with
    | .error fault => .error fault
    | .ok rest => value fuel (container :: opened) rest

end

end Skip

def skip (s : List Char) : Except Fault (List Char) := Skip.value (3 * s.length + 3) [] s

end Courier.Json
