import Courier.Json.Document
import Courier.Json.Writer

set_option autoImplicit false

/-! # Shapes

A shape says how data of one type stands in a document: how it is read and what is written for it.
Shapes of parts make up the shapes of lists, tables and records.
-/

namespace Courier.Json

/-- How data of type `α` stands in a document. -/
structure Shape (α : Type) where
  read : Reader α
  write : α → Value

namespace Shape

def text : Shape String := ⟨readText, .string⟩

def flag : Shape Bool := ⟨readFlag, .boolean⟩

def natural : Shape UInt64 := ⟨readNatural, .natural⟩

def value : Shape Value := ⟨readValue, id⟩

/-- Data that may be absent; `null` stands for nothing. -/
def optional {α : Type} (shape : Shape α) : Shape (Option α) where
  read := readOptional shape.read
  write
    | none => .null
    | some a => shape.write a

/-- A container that has to begin with `bracket`. -/
def container {α : Type} (bracket : Char) (expected : String) (content : Nat → List Char → Scan α) :
    Reader α := fun depth => afterSpace fun c rest =>
  if c = bracket then enter content depth (c :: rest) else .error (mismatch expected (c :: rest))

def list {α : Type} (shape : Shape α) : Shape (List α) where
  read := container '[' "a sequence" fun depth => items (shape.read depth)
  write as := .array (as.map shape.write)

def readTable {α : Type} (read : Reader α) : Reader (Table α) :=
  container '{' "a map" fun depth s =>
    let member (table : Table α) (name : String) (s : List Char) :=
      (memberValue (read depth) s).map fun (a, rest) => (table.insert name a, rest)
    close endObject (members member .empty s)

def table {α : Type} (shape : Shape α) : Shape (Table α) where
  read := readTable shape.read
  write t := .object (t.entries.map fun (name, a) => (name, shape.write a))

end Shape

end Courier.Json
