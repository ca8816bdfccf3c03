import Courier.Json.Number
import Courier.Text.Quoted
import Courier.Text.Utf8

set_option autoImplicit false

/-! # What is wrong with a document, and where

A fault has a cause and a place. While a document is read, a place is told by the bytes that follow
it, so that a reader knows nothing of what came before; line and column are worked out once, when
reading has ended. Some causes belong to a record as a whole: their place stays pending until the
record's end has been looked for.
-/

namespace Courier.Json

/-- What stands in a document where something else was expected. -/
inductive Found where
  | null
  | boolean (b : Bool)
  | number (n : Number)
  | string (s : String)
  | sequence
  | map
deriving Repr, DecidableEq

def Found.text : Found → String
  | .null => "null"
  | .boolean b => s!"boolean `{b}`"
  | .number (.integer n h) => s!"integer `{String.ofList (Number.text (.integer n h))}`"
  | .number (.double x) => s!"floating point `{String.ofList (Number.text (.double x))}`"
  | .string s => s!"string {quoted s}"
  | .sequence => "sequence"
  | .map => "map"

/-- The first thing that is wrong with a document. -/
inductive Cause where
  | endInArray
  | endInObject
  | endInString
  | endInValue
  | expectedColon
  | expectedCommaOrBracket
  | expectedCommaOrBrace
  | expectedKeyword
  | expectedValue
  | invalidEscape
  | invalidNumber
  | numberOutOfRange
  | controlCharacter
  | keyNotText
  | loneSurrogate
  | trailingComma
  | trailingCharacters
  | endOfHexEscape
  | recursionLimit
  /-- A value of the wrong kind. -/
  | wrongType (found : Found) (expected : String)
  /-- A value of the right kind that does not fit. -/
  | wrongValue (found : Found) (expected : String)
  /-- A record given as an array of `count` items, which are too few. -/
  | tooFewItems (count : Nat) (expected : String)
  | missingField (name : String)
  | duplicateField (name : String)
  /-- A text that is none of the choices. -/
  | unknownChoice (found : String) (choices : List String)
  /-- A text that is no date, with the reason. -/
  | invalidDate (found reason : String)
deriving Repr, DecidableEq

def Cause.message : Cause → String
  | .endInArray => "EOF while parsing a list"
  | .endInObject => "EOF while parsing an object"
  | .endInString => "EOF while parsing a string"
  | .endInValue => "EOF while parsing a value"
  | .expectedColon => "expected `:`"
  | .expectedCommaOrBracket => "expected `,` or `]`"
  | .expectedCommaOrBrace => "expected `,` or `\x7d`"
  | .expectedKeyword => "expected ident"
  | .expectedValue => "expected value"
  | .invalidEscape => "invalid escape"
  | .invalidNumber => "invalid number"
  | .numberOutOfRange => "number out of range"
  | .controlCharacter => "control character (\\u0000-\\u001F) found while parsing a string"
  | .keyNotText => "key must be a string"
  | .loneSurrogate => "lone leading surrogate in hex escape"
  | .trailingComma => "trailing comma"
  | .trailingCharacters => "trailing characters"
  | .endOfHexEscape => "unexpected end of hex escape"
  | .recursionLimit => "recursion limit exceeded"
  | .wrongType found expected => s!"invalid type: {found.text}, expected {expected}"
  | .wrongValue found expected => s!"invalid value: {found.text}, expected {expected}"
  | .tooFewItems count expected => s!"invalid length {count}, expected {expected}"
  | .missingField name => s!"missing field `{name}`"
  | .duplicateField name => s!"duplicate field `{name}`"
  | .unknownChoice found choices =>
    s!"unknown variant `{found}`, expected " ++ " or ".intercalate (choices.map fun c => s!"`{c}`")
  | .invalidDate found reason => s!"invalid date {quoted found}: {reason}"

inductive Place where
  /-- Just before the last `left` bytes of the document. -/
  | fixed (left : Nat)
  /-- Where the record around ends, which is looked for from `rest` on. -/
  | pending (rest : List Char)
deriving Repr, DecidableEq

structure Fault where
  cause : Cause
  place : Place
deriving Repr, DecidableEq

namespace Fault

def before (cause : Cause) (rest : List Char) : Fault := ⟨cause, .fixed (Utf8.size rest)⟩

/-- A fault within `rest`, after the first byte; at the end of the document there is none to pass. -/
def within (cause : Cause) (rest : List Char) : Fault := ⟨cause, .fixed (Utf8.size rest - 1)⟩

/-- A fault of the record that is being read, found before `rest`. -/
def pending (cause : Cause) (rest : List Char) : Fault := ⟨cause, .pending rest⟩

/-- The bytes left after the fault. -/
def left (fault : Fault) : Nat :=
  match fault.place with
  | .fixed left => left
  | .pending rest => Utf8.size rest

end Fault

/-- The outcome of reading one part of a document: the part and the text after it. -/
abbrev Scan (α : Type) := Except Fault (α × List Char)

/-! ## Lines and columns -/

/-- The line and column reached after `budget` bytes, from the given ones on. A column counts bytes and
starts at zero; a character may be cut. -/
def advance (line column budget : Nat) : List Char → Nat × Nat
  | [] => (line, column)
  | c :: cs =>
    if budget < c.utf8Size then (line, column + budget)
    else if c = '\n' then advance (line + 1) 0 (budget - 1) cs
    else advance line (column + c.utf8Size) (budget - c.utf8Size) cs

/-- What is wrong with a document, by line and column. -/
structure SyntaxFault where
  cause : Cause
  line : Nat
  column : Nat
deriving Repr, DecidableEq

def SyntaxFault.message (fault : SyntaxFault) : String :=
  s!"{fault.cause.message} at line {fault.line} column {fault.column}"

/-- The fault by line and column of the document it was found in. -/
def Fault.locate (document : List Char) (fault : Fault) : SyntaxFault :=
  let (line, column) := advance 1 0 (Utf8.size document - fault.left) document
  ⟨fault.cause, line, column⟩

end Courier.Json
