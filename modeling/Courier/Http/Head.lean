import Courier.Http.Header
import Courier.Text.Latin
import Courier.Text.Utf8

set_option autoImplicit false

/-! # The head of a message

The headers of a message stand on lines, one on each, and an empty line ends them. A line ends in a line
feed, with or without a carriage return before it. A reader takes only so many headers, and so many bytes.
-/

namespace Courier.Head

inductive Fault where
  /-- A line is no header. -/
  | malformed
  /-- There are more headers, or more bytes, than a reader takes. -/
  | tooLarge
  /-- The bytes end before the head does. -/
  | unfinished
  /-- Headers that tell the length of the body tell none, or not all the same one. -/
  | badLength
deriving Repr, DecidableEq

def Fault.message : Fault → String
  | .malformed => "a line of the head is no header"
  | .tooLarge => "the head is too large"
  | .unfinished => "the head has no end"
  | .badLength => "the length of the body is not told"

/-- The carriage return and the line feed that end a written line. -/
def lineEnd : List UInt8 := [13, 10]

/-- The first line, without its end, and what follows it. -/
def cutLine? (bytes : List UInt8) : Option (List UInt8 × List UInt8) :=
  match bytes.span (· != 10) with
  | (_, []) => none
  | (line, _ :: rest) => some (if line.getLast? = some 13 then line.dropLast else line, rest)

/-- The header that a line gives: a name, a colon directly after it, and a value. -/
def header? (line : List UInt8) : Option (String × String) :=
  match (Latin.decode line).span (· != ':') with
  | (_, []) => none
  | (name, _ :: value) =>
    let name := String.ofList name
    let value := String.ofList (Headers.trim value)
    if Headers.isName name && Headers.isValue value then some (Headers.arrived (name, value)) else none

/-- The most headers that a client takes. -/
def countLimit : Nat := 128

/-- The most bytes of a head that a client takes. -/
def sizeLimit : Nat := 65536

/-- At most `allowance` headers, and what follows the empty line after them. -/
def lines : Nat → List UInt8 → Except Fault (Headers × List UInt8)
  | allowance, bytes =>
    match cutLine? bytes with
    | none => .error .unfinished
    | some ([], rest) => .ok ([], rest)
    | some (line, rest) =>
      match header? line, allowance with
      | none, _ => .error .malformed
      | some _, 0 => .error .tooLarge
      | some header, allowance + 1 =>
        match lines allowance rest with
        | .ok (headers, rest) => .ok (header :: headers, rest)
        | .error fault => .error fault

/-- The headers that a message begins with, and what follows them. -/
def read (bytes : List UInt8) : Except Fault (Headers × List UInt8) :=
  match lines countLimit bytes with
  | .error fault => .error fault
  | .ok (headers, rest) =>
    if sizeLimit < bytes.length - rest.length then .error .tooLarge else .ok (headers, rest)

def line (header : String × String) : List UInt8 :=
  Utf8.encode (header.1.toList ++ [':', ' '] ++ header.2.toList) ++ lineEnd

/-- The head that has the headers, in order. -/
def write (headers : Headers) : List UInt8 := headers.flatMap line ++ lineEnd

end Courier.Head
