import Courier.Json.Reader

set_option autoImplicit false

/-! # Arrays and objects

The items of an array are parted by commas, and so are the members of an object; a member is a text, a
colon and a value. How items and members follow one another is the same whatever is read from them, so
the loops here take a reader for the parts. A container that is read for a record may have to end before
its closing bracket is in sight; then what stands there is the fault.
-/

namespace Courier.Json

/-! ## What comes next -/

/-- Whether another item of an array follows: the text where it starts, or the closing bracket. -/
def nextItem (first : Bool) (s : List Char) : Except Fault (Bool × List Char) :=
  match dropSpace s with
  | [] => .error (.within .endInArray [])
  | c :: rest =>
    if c = ']' then .ok (false, c :: rest)
    else if first then .ok (true, c :: rest)
    else if c = ',' then
      match dropSpace rest with
      | [] => .error (.within .endInValue [])
      | d :: rest =>
        if d = ']' then .error (.within .trailingComma (d :: rest)) else .ok (true, d :: rest)
    else .error (.within .expectedCommaOrBracket (c :: rest))

def memberName (c : Char) (rest : List Char) : Scan (Option String) :=
  if c = '"' then (Literal.read rest).map fun (name, rest) => (some name, rest)
  else .error (.within .keyNotText (c :: rest))

/-- The name of the next member of an object, and the text after it; or the closing bracket. -/
def nextName (first : Bool) (s : List Char) : Scan (Option String) :=
  match dropSpace s with
  | [] => .error (.within .endInObject [])
  | c :: rest =>
    if c = '}' then .ok (none, c :: rest)
    else if first then memberName c rest
    else if c = ',' then
      match dropSpace rest with
      | [] => .error (.within .endInValue [])
      | d :: rest =>
        if d = '}' then .error (.within .trailingComma (d :: rest)) else memberName d rest
    else .error (.within .expectedCommaOrBrace (c :: rest))

def colon (s : List Char) : Except Fault (List Char) :=
  match dropSpace s with
  | [] => .error (.within .endInObject [])
  | c :: rest => if c = ':' then .ok rest else .error (.within .expectedColon (c :: rest))

/-! ## The closing bracket -/

/-- Looks for the end of an array: why it is not there, and how far the text has been passed. -/
def endArray (s : List Char) : Option Cause × List Char :=
  match dropSpace s with
  | [] => (some .endInArray, [])
  | c :: rest =>
    if c = ']' then (none, rest)
    else if c = ',' then
      match dropSpace rest with
      | [] => (some .trailingCharacters, [])
      | d :: rest =>
        (some (if d = ']' then .trailingComma else .trailingCharacters), d :: rest)
    else (some .trailingCharacters, c :: rest)

/-- Looks for the end of an object: why it is not there, and how far the text has been passed. -/
def endObject (s : List Char) : Option Cause × List Char :=
  match dropSpace s with
  | [] => (some .endInObject, [])
  | c :: rest =>
    if c = '}' then (none, rest)
    else (some (if c = ',' then .trailingComma else .trailingCharacters), c :: rest)

/-- Ends a container whose content has been read, well or badly. A fault of the content comes before one
of the end; a pending one is placed where the end was looked for. -/
def close {α : Type} (endOf : List Char → Option Cause × List Char) : Scan α → Scan α
  | .ok (a, rest) =>
    match endOf rest with
    | (none, rest) => .ok (a, rest)
    | (some cause, rest) => .error (.within cause rest)
  | .error ⟨cause, .pending rest⟩ => .error (.before cause (endOf rest).2)
  | .error fault => .error fault

/-- Opens a container, whose bracket is the next character, if one may still be opened. -/
def enter {α : Type} (content : Nat → List Char → Scan α) : Reader α
  | 0, s => .error (.within .recursionLimit s)
  | depth + 1, s => content depth (s.drop 1)

/-! ## All items, all members -/

/-- Reads items to the closing bracket; `fuel` bounds their number. -/
def itemsFrom {α : Type} (item : List Char → Scan α) :
    (fuel : Nat) → (first : Bool) → (acc : List α) → List Char → Scan (List α)
  | 0, _, _, s => .error (.before .endInArray s)
  | fuel + 1, first, acc, s =>
    match nextItem first s with
    | .error fault => .error fault
    | .ok (false, rest) => .ok (acc.reverse, rest)
    | .ok (true, rest) =>
      match item rest with
      | .error fault => .error fault
      | .ok (a, rest) => itemsFrom item fuel false (a :: acc) rest

/-- Reads the items of an array and its end, from after the opening bracket. -/
def items {α : Type} (item : List Char → Scan α) (s : List Char) : Scan (List α) :=
  close endArray (itemsFrom item (s.length + 1) true [] s)

/-- Reads members to the closing bracket, and folds them: `member` gets what has been made of the members
before, the name, and the text after the name, at the colon. -/
def membersFrom {σ : Type} (member : σ → String → List Char → Scan σ) :
    (fuel : Nat) → (first : Bool) → σ → List Char → Scan σ
  | 0, _, _, s => .error (.before .endInObject s)
  | fuel + 1, first, state, s =>
    match nextName first s with
    | .error fault => .error fault
    | .ok (none, rest) => .ok (state, rest)
    | .ok (some name, rest) =>
      match member state name rest with
      | .error fault => .error fault
      | .ok (state, rest) => membersFrom member fuel false state rest

/-- Reads the members of an object to its closing bracket, from after the opening one. -/
def members {σ : Type} (member : σ → String → List Char → Scan σ) (start : σ) (s : List Char) :
    Scan σ :=
  membersFrom member (s.length + 1) true start s

/-- Reads the colon and the value of a member. -/
def memberValue {α : Type} (read : List Char → Scan α) (s : List Char) : Scan α :=
  match colon s with
  | .error fault => .error fault
  | .ok rest => read rest

end Courier.Json
